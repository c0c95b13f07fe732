import PanelCalc.Proofs.Decimal.Denoted

/-!
# Tidy texts of numbers

How numbers are written without anything superfluous: `Tidy`. No zero stands in front of another
digit before the point or at the end behind it, no point without a digit behind it, and an exponent
has its sign and no zero in front. Rounded numbers are written tidily: `Rounded.tidy_figures`.
-/

namespace PanelCalc.Decimal

/-- The digits of a whole number, with no zero in front of another digit. -/
structure IsWhole (digits : List Char) : Prop where
  ne_nil : digits ≠ []
  all : ∀ char ∈ digits, isDigit char = true
  front : digits = ['0'] ∨ digits.head? ≠ some '0'

/-- What stands behind the digits of a whole number: nothing, or a point and digits, the last of
which is no zero. -/
inductive IsFraction : List Char → Prop
  | none : IsFraction []
  | point {digits : List Char} {last : Char} : (∀ char ∈ digits, isDigit char = true) →
      isDigit last = true → last ≠ '0' → IsFraction ('.' :: (digits ++ [last]))

/-- An exponent with its letter and its sign. -/
inductive IsExponent : List Char → Prop
  | signed {sign : Char} {digits : List Char} : sign = '+' ∨ sign = '-' → digits ≠ [] →
      (∀ char ∈ digits, isDigit char = true) → digits.head? ≠ some '0' →
        IsExponent ('e' :: sign :: digits)

/-- A number that is written without anything superfluous. -/
def Tidy (text : List Char) : Prop :=
  ∃ sign whole fraction exponent, text = sign ++ whole ++ fraction ++ exponent ∧
    (sign = [] ∨ sign = ['-']) ∧ IsWhole whole ∧ IsFraction fraction ∧
    (exponent = [] ∨ IsExponent exponent)

/-! ## Leading digits -/

theorem digitChar_ne_zero {digit : Nat} (positive : 0 < digit) (small : digit < 10) :
    Nat.digitChar digit ≠ '0' := by
  have all : ∀ digit < 10, 0 < digit → Nat.digitChar digit ≠ '0' := by decide
  exact all digit small positive

/-- A number with as many digits as are written out has no zero in front. -/
theorem head_lastDigits {count number : Nat} (least : 10 ^ count ≤ number)
    (below : number < 10 ^ (count + 1)) : (lastDigits (count + 1) number).head? ≠ some '0' := by
  have unit := ten_pow_pos count
  have positive : 0 < number / 10 ^ count := Nat.div_pos least unit
  have small : number / 10 ^ count < 10 := by
    rw [Nat.div_lt_iff_lt_mul unit, ← Nat.pow_succ']
    exact below
  rw [lastDigits, tenTo_eq, Nat.mod_eq_of_lt small, List.head?_cons, ne_eq, Option.some.injEq]
  exact digitChar_ne_zero positive small

/-- The digits of a number other than zero have no zero in front. -/
theorem head_toDigits {number : Nat} (positive : 0 < number) :
    (Nat.toDigits 10 number).head? ≠ some '0' := by
  induction number using Nat.strongRecOn with
  | ind number recurse =>
      by_cases single : number < 10
      · rw [Nat.toDigits_of_lt_base single]
        simpa using digitChar_ne_zero positive single
      · rw [Nat.toDigits_of_base_le (by decide) (by omega),
          List.head?_append_of_ne_nil _ Nat.toDigits_ne_nil]
        exact recurse (number / 10) (by omega) (by omega)

theorem isExponent_exponentText {exponent : Int} (nonzero : exponent ≠ 0) :
    IsExponent ('e' :: Figures.exponentText exponent) := by
  refine .signed ?_ Nat.toDigits_ne_nil (fun _ => isDigit_of_mem_toDigits) ?_
  · split
    · exact .inr rfl
    · exact .inl rfl
  · exact head_toDigits (Int.natAbs_pos.mpr nonzero)

/-! ## Rounded numbers -/

/-- Without the zeros at their end, digits behind a point are tidy. -/
theorem isFraction_significant {digits : List Char}
    (all : ∀ char ∈ digits, isDigit char = true) :
    IsFraction (if Figures.significant digits = [] then [] else '.' :: Figures.significant digits) := by
  split
  · exact .none
  · rename_i some
    obtain ⟨front, last, split⟩ : ∃ front last, Figures.significant digits = front ++ [last] :=
      ⟨_, _, (List.dropLast_concat_getLast some).symm⟩
    have inside : ∀ char ∈ front ++ [last], isDigit char = true := fun char member =>
      all char (Figures.mem_of_mem_significant (split ▸ member))
    have turned : digits.reverse.dropWhile (· == '0') = last :: front.reverse := by
      have reversed := congrArg List.reverse split
      simpa [Figures.significant, Text.dropEnd] using reversed
    have nonzero := List.head?_dropWhile_not (· == '0') digits.reverse
    rw [turned] at nonzero
    rw [split]
    exact .point (fun char member => inside char (List.mem_append_left _ member))
      (inside last (List.mem_append_right _ (List.mem_singleton_self last)))
      (by simpa using nonzero)

/-- Figures that are tidy but for what their text puts between them. -/
theorem Figures.tidy_text {figures : Figures} {digits : List Char} (whole : IsWhole figures.whole)
    (all : ∀ char ∈ digits, isDigit char = true) (trimmed : figures.fraction = significant digits)
    (nonzero : figures.exponent ≠ some 0) : Tidy figures.text := by
  have fraction := isFraction_significant all
  rw [← trimmed] at fraction
  refine ⟨_, _, _, _, rfl, ?_, whole, fraction, ?_⟩
  · split
    · exact .inr rfl
    · exact .inl rfl
  · split
    · rename_i exponent written
      refine .inr (isExponent_exponentText ?_)
      rintro rfl
      exact nonzero written
    · exact .inl rfl

/-- The first digits of a row that has no zero in front. -/
theorem isWhole_take {digits : List Char} (notEmpty : digits ≠ [])
    (all : ∀ char ∈ digits, isDigit char = true) (front : digits.head? ≠ some '0') {places : Nat}
    (positive : 0 < places) : IsWhole (digits.take places) where
  ne_nil := by
    rw [ne_eq, List.take_eq_nil_iff]
    rintro (none | none)
    · omega
    · exact notEmpty none
  all char member := all char (List.mem_of_mem_take member)
  front := by
    right
    rw [List.head?_take, if_neg (by omega)]
    exact front

/-- A rounded number is written tidily. -/
theorem Rounded.tidy_figures (negative : Bool) {count : Nat} (someDigit : 0 < count)
    {number : Rounded} (full : number.Full count) : Tidy (number.figures negative count).text := by
  have all : ∀ char ∈ lastDigits count number.significand, isDigit char = true :=
    fun _ member => isDigit_of_mem_lastDigits member
  have notEmpty := lastDigits_ne_nil someDigit number.significand
  have front : (lastDigits count number.significand).head? ≠ some '0' := by
    obtain ⟨least, below⟩ := full
    obtain ⟨others, rfl⟩ : ∃ others, count = others + 1 := ⟨count - 1, by omega⟩
    exact head_lastDigits least below
  have behind : ∀ places, ∀ char ∈ (lastDigits count number.significand).drop places,
      isDigit char = true := fun _ char member => all char (List.mem_of_mem_drop member)
  unfold Rounded.figures Rounded.expansion Expansion.figures
  split
  · rename_i exponential
    refine Figures.tidy_text (isWhole_take notEmpty all front Nat.one_pos) (behind 1) rfl ?_
    simp only [Bool.or_eq_true, decide_eq_true_eq] at exponential
    have least : leastFixedExponent = -6 := rfl
    simp only [ne_eq, Option.some.injEq]
    omega
  split
  · exact Figures.tidy_text (isWhole_take notEmpty all front (Nat.succ_pos _)) (behind _) rfl
      nofun
  · have digit : ∀ char ∈ ['0'], isDigit char = true := by
      intro char member
      rw [List.mem_singleton.mp member]
      decide
    have zero : IsWhole ['0'] := ⟨nofun, digit, .inl rfl⟩
    refine Figures.tidy_text zero (fun char member => ?_) rfl nofun
    rcases List.mem_append.mp member with zeros | inside
    · rw [List.eq_of_mem_replicate zeros]
      decide
    · exact all char inside

end PanelCalc.Decimal
