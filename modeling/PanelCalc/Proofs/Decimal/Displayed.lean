import PanelCalc.Proofs.Decimal.Closest
import PanelCalc.Proofs.Decimal.Redisplay
import PanelCalc.Proofs.Decimal.Tidy

/-!
# What is displayed for a number

Every finite number is displayed as a text that denotes the closest decimal number with the digits
it is shown with, and that has nothing superfluous in it: `display_closest`.
-/

namespace PanelCalc.Decimal

open Binary64 (amountOfBits amountOfBits_nonneg amountOfBits_strictMono unitsOfBits unitsPerOne
  magnitudeBits isNegative isFinite)

/-! ## The texts of figures -/

namespace Figures

variable {figures : Figures}

/-- A text has the letter of an exponent just when it is written with an exponent. -/
theorem Digital.letter_mem_text_iff (digital : figures.Digital) :
    'e' ∈ figures.text ↔ figures.exponent ≠ none := by
  constructor
  · intro member written
    rw [text_of_plain written] at member
    rcases List.mem_append.mp member with sign | inside
    · split at sign
      · exact absurd (List.mem_singleton.mp sign) (by decide)
      · cases sign
    · rcases digital.of_mem_numeral inside with digit | point
      · exact absurd digit (by decide)
      · exact absurd point (by decide)
  · intro written
    by_contra noLetter
    exact written (exponent_eq_none_of_text noLetter)

/-- A text has a sign in front just when the figures are negative. -/
theorem Digital.head_text_iff (digital : figures.Digital) :
    figures.text.head? = some '-' ↔ figures.negative = true := by
  obtain ⟨char, others, whole, noSign⟩ := digital.exists_whole
  cases sign : figures.negative <;> simp [text, sign, whole, noSign]

end Figures

namespace Rounded

variable {negative : Bool} {count : Nat} {number : Rounded}

/-- Which numbers are written with an exponent. -/
theorem exponent_figures_ne_none_iff :
    (number.figures negative count).exponent ≠ none ↔
      number.exponent < leastFixedExponent ∨ count ≤ number.exponent := by
  unfold figures expansion Expansion.figures
  split
  · rename_i exponential
    simpa using exponential
  · rename_i fixed
    split <;> simpa using fixed

/-- The figures of a number stand for it. -/
theorem size_figures (someDigit : 0 < count) (full : number.Full count) :
    (number.figures negative count).size = number.amount count := by
  by_cases exponential : number.exponent < leastFixedExponent ∨ count ≤ number.exponent
  · have written : ofDigits (lastDigits count number.significand) = number.significand := by
      rw [ofDigits_lastDigits, Nat.mod_eq_of_lt full.2]
    unfold figures expansion Expansion.figures Figures.size
    rw [if_pos (by simpa using exponential)]
    simp only [Option.getD_some]
    rw [ofDigits_div_significant, List.take_append_drop, written, List.length_drop,
      length_lastDigits, amount, step_eq someDigit]
    ring
  · have plain : (number.figures negative count).exponent = none := by
      by_contra some
      exact exponential (exponent_figures_ne_none_iff.mp some)
    obtain ⟨fixed, short⟩ := fixed_of_plain plain
    rw [Figures.size, plain, numeral_amount full fixed short, Option.getD_none, zpow_zero, mul_one]

end Rounded

/-! ## The texts of numbers -/

/-- The number that a finite binary64 number is. -/
def exact (value : Float) : ℚ := signed (isNegative value) (amountOfBits (magnitudeBits value))

/-- How many digits a number is shown with: 16 from ten thousand million on, and below the binary64
number nearest to one millionth, otherwise 14. -/
def shownDigits (size : ℚ) : Nat :=
  if 10 ^ 10 ≤ size ∨ size < amountOfBits smallBits then 16 else 14

theorem abs_exact (value : Float) : |exact value| = amountOfBits (magnitudeBits value) :=
  abs_signed _ (amountOfBits_nonneg _)

theorem exact_eq_zero_iff {value : Float} : exact value = 0 ↔ magnitudeBits value = 0 := by
  rw [← abs_eq_zero, abs_exact, Binary64.amountOfBits_eq_zero_iff]

theorem exact_neg_iff {value : Float} (nonzero : exact value ≠ 0) :
    exact value < 0 ↔ isNegative value = true := by
  refine signed_neg_iff ?_
  rw [← abs_exact]
  exact abs_pos.mpr nonzero

theorem displayDigits_eq_shownDigits (value : Float) :
    displayDigits (unitsOfBits (magnitudeBits value)) = shownDigits |exact value| := by
  simp only [displayDigits_eq, abs_exact, shownDigits, amountOfBits_strictMono.lt_iff_lt]
  rfl

/-- A text shows a number other than zero: it denotes the closest decimal number with the digits
that the number is shown with, has an exponent just when that decimal number is written with one,
has a sign just when the number is negative, and has nothing superfluous in it. -/
def Shows (text : List Char) (value : ℚ) : Prop :=
  ∃ number : Rounded, number.Closest (shownDigits |value|) |value| ∧
    denoted? text = some (signed (value < 0) (number.amount (shownDigits |value|))) ∧
    ('e' ∈ text ↔ number.exponent < -6 ∨ shownDigits |value| ≤ number.exponent) ∧
    (text.head? = some '-' ↔ value < 0) ∧ Tidy text

/-- The figures of a number other than zero show it. -/
theorem shows_figures {value : Float} (nonzero : exact value ≠ 0) :
    Shows (figures value).text (exact value) := by
  have bits : magnitudeBits value ≠ 0 := fun zero => nonzero (exact_eq_zero_iff.mpr zero)
  obtain ⟨full, covers⟩ := (Rounded.rounded_eq_iff (Binary64.unitsOfBits_pos bits) _).mp rfl
  have sign : decide (exact value < 0) = isNegative value := by
    rw [Bool.eq_iff_iff, decide_eq_true_iff]
    exact exact_neg_iff nonzero
  have someDigit := displayDigits_pos (unitsOfBits (magnitudeBits value))
  rw [figures_eq bits, figuresOfBits]
  unfold Shows
  rw [sign, exact_neg_iff nonzero]
  rw [displayDigits_eq_shownDigits] at full covers someDigit ⊢
  rw [← abs_exact] at covers
  have digital := Rounded.digital_figures (isNegative value) someDigit
    (rounded (unitsOfBits (magnitudeBits value)))
  refine ⟨_, Rounded.closest_of_covers someDigit full covers, ?_, ?_, ?_, ?_⟩
  · rw [digital.denoted_text, Rounded.negative_figures, Rounded.size_figures someDigit full]
  · rw [digital.letter_mem_text_iff, Rounded.exponent_figures_ne_none_iff]
    rfl
  · rw [digital.head_text_iff, Rounded.negative_figures]
  · exact Rounded.tidy_figures _ someDigit full

/-- Every finite number other than zero is shown by its text. Both zeros have the same text. -/
theorem display_closest {value : Float} (bounded : isFinite value = true) :
    if exact value = 0 then display value = "0"
    else Shows (display value).toList (exact value) := by
  split
  · rename_i zero
    rw [display, if_pos bounded, figures_of_zero (exact_eq_zero_iff.mp zero)]
    rfl
  · rename_i nonzero
    rw [toList_display bounded]
    exact shows_figures nonzero

/-- A negative number that lies in the middle between two decimal numbers of 14 digits is shown as the
one that is farther from zero. -/
theorem display_closest_of_tie :
    let value := Binary64.ofMagnitude true 0x41D26580B4820000
    isFinite value = true ∧ exact value = -(39506172481 / 32) ∧
      display value = "-1234567890.0313" ∧
      Shows "-1234567890.0313".toList (-(39506172481 / 32)) := by
  intro value
  have bounded : isFinite value = true := by decide +kernel
  have text : display value = "-1234567890.0313" := by decide +kernel
  have sign : isNegative value = true := by decide +kernel
  have units : 32 * unitsOfBits (magnitudeBits value) = 39506172481 * unitsPerOne := by
    decide +kernel
  have amountIs : amountOfBits (magnitudeBits value) = 39506172481 / 32 := by
    rw [amountOfBits, div_eq_div_iff Binary64.unitsPerOne_pos.ne' (by norm_num), mul_comm]
    exact_mod_cast units
  have exactly : exact value = -(39506172481 / 32) := by simp [exact, signed, sign, amountIs]
  have shown := display_closest bounded
  rw [exactly, text, if_neg (by norm_num)] at shown
  exact ⟨bounded, exactly, text, shown⟩

end PanelCalc.Decimal
