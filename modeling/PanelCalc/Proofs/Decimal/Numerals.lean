import PanelCalc.Proofs.Decimal.Figures
import PanelCalc.Proofs.Decimal.Rounding

/-!
# Numerals of displayed numbers

A displayed number without an exponent is a sign and a numeral that a lexer takes as a whole, and
the numeral denotes the rounded number exactly: `Rounded.numeral_amount`.
-/

namespace PanelCalc

/-- Digits are split off as a whole, with what is split off behind them. -/
theorem Token.splitNumeral_digits {digits : List Char}
    (all : ∀ char ∈ digits, Decimal.isDigit char = true) (pointSeen : Bool) (rest : List Char) :
    splitNumeral pointSeen (digits ++ rest) =
      (digits ++ (splitNumeral pointSeen rest).1, (splitNumeral pointSeen rest).2) := by
  induction digits with
  | nil => rfl
  | cons char others recurse =>
      rw [List.forall_mem_cons] at all
      simp [splitNumeral, all.1, recurse all.2]

namespace Decimal

theorem isDigit_point : isDigit '.' = false := by decide

namespace Figures

/-- The digits of figures, with a point if there is a digit behind it. -/
def numeral (figures : Figures) : List Char :=
  figures.whole ++ if figures.fraction = [] then [] else '.' :: figures.fraction

/-- Figures without an exponent are written as a sign and a numeral. -/
theorem text_of_plain {figures : Figures} (plain : figures.exponent = none) :
    figures.text = (if figures.negative then ['-'] else []) ++ figures.numeral := by
  simp [text, numeral, plain]

variable {figures : Figures}

/-- The point does not count among the digits of a numeral. -/
theorem Digital.numerator_numeral (digital : figures.Digital) :
    numerator figures.numeral = ofDigits (figures.whole ++ figures.fraction) := by
  have whole : figures.whole.filter isDigit = figures.whole :=
    List.filter_eq_self.mpr digital.whole
  have fraction : figures.fraction.filter isDigit = figures.fraction :=
    List.filter_eq_self.mpr digital.fraction
  rw [numerator, numeral, List.filter_append, whole]
  split
  · rename_i none
    rw [none, List.filter_nil]
  · rw [List.filter_cons_of_neg (by simp [isDigit_point]), fraction]

/-- As many digits follow the point as the fraction has. -/
theorem Digital.places_numeral (digital : figures.Digital) :
    places figures.numeral = figures.fraction.length := by
  have noPoint : ∀ char ∈ figures.whole, decide (char ≠ '.') = true := by
    intro char member
    rw [decide_eq_true_iff]
    rintro rfl
    exact absurd (digital.whole _ member) (by decide)
  rw [places, numeral, List.dropWhile_append_of_pos noPoint]
  split
  · rename_i none
    simp [none]
  · simp

/-- A numeral is split off as a whole. -/
theorem Digital.splitNumeral_numeral (digital : figures.Digital) :
    Token.splitNumeral false figures.numeral = (figures.numeral, []) := by
  rw [numeral, Token.splitNumeral_digits digital.whole]
  split
  · simp [Token.splitNumeral]
  · have behind := Token.splitNumeral_digits digital.fraction true []
    rw [List.append_nil] at behind
    simp [Token.splitNumeral, isDigit_point, behind]

theorem Digital.any_isDigit_numeral (digital : figures.Digital) :
    figures.numeral.any isDigit = true := by
  obtain ⟨char, others, whole⟩ := List.exists_cons_of_ne_nil digital.whole_ne_nil
  have digit := digital.whole char (by simp [whole])
  simp [numeral, whole, digit]

end Figures

namespace Rounded

variable {negative : Bool} {count : Nat} {number : Rounded}

/-- Figures have the sign with which they are made. -/
theorem negative_figures (negative : Bool) (count : Nat) (number : Rounded) :
    (number.figures negative count).negative = negative := by
  unfold figures expansion Expansion.figures
  split
  · rfl
  split <;> rfl

/-- Figures without an exponent belong to a number that needs none. -/
theorem fixed_of_plain (plain : (number.figures negative count).exponent = none) :
    leastFixedExponent ≤ number.exponent ∧ number.exponent < count := by
  unfold figures expansion Expansion.figures at plain
  split at plain
  · cases plain
  · rename_i fixed
    simp only [Bool.or_eq_true, decide_eq_true_eq, not_or, not_lt, not_le] at fixed
    exact fixed

/-- Digits with a point in front of the last `places` of them, behind which superfluous zeros are
dropped. -/
theorem ofDigits_div_significant (whole digits : List Char) :
    (ofDigits (whole ++ Figures.significant digits) : ℚ) /
        10 ^ (Figures.significant digits).length =
      ofDigits (whole ++ digits) / 10 ^ digits.length := by
  rw [div_eq_div_iff (by positivity) (by positivity)]
  exact_mod_cast Figures.ofDigits_significant whole digits

/-- The numeral of a number that needs no exponent denotes the number. -/
theorem numeral_amount (full : number.Full count) (fixed : leastFixedExponent ≤ number.exponent)
    (short : number.exponent < count) :
    (ofDigits ((number.figures negative count).whole ++ (number.figures negative count).fraction) :
        ℚ) / 10 ^ (number.figures negative count).fraction.length = number.amount count := by
  have written : ofDigits (lastDigits count number.significand) = number.significand := by
    rw [ofDigits_lastDigits, Nat.mod_eq_of_lt full.2]
  have amountIs : ∀ places : Nat, (places : Int) = count - 1 - number.exponent →
      (number.significand : ℚ) / 10 ^ places = number.amount count := by
    intro places same
    have exponent : number.exponent - count + 1 = -(places : Int) := by omega
    rw [amount, step, exponent, zpow_neg, zpow_natCast, div_eq_mul_inv]
  unfold figures expansion Expansion.figures
  dsimp only
  rw [if_neg (by simp; omega)]
  split
  · rename_i nonnegative
    rw [ofDigits_div_significant, List.take_append_drop, written, List.length_drop,
      length_lastDigits]
    exact amountIs _ (by omega)
  · rename_i negativeExponent
    have zeros : ofDigits ('0' :: List.replicate (number.exponent.natAbs - 1) '0') = 0 :=
      ofDigits_zeros (number.exponent.natAbs - 1 + 1)
    rw [ofDigits_div_significant, ← List.append_assoc, ofDigits_append, List.singleton_append,
      zeros, Nat.zero_mul, Nat.zero_add, written, List.length_append, List.length_replicate,
      length_lastDigits]
    exact amountIs _ (by omega)

end Rounded
end Decimal
end PanelCalc
