import Mathlib
import PanelCalc.Proofs.Decimal.Numerals

/-!
# The number that a text denotes

A reader of decimal texts that owes nothing to how numbers are displayed: a sign, digits with at
most one point among them, and the power of ten by which they are multiplied. What figures are
written as is read as the number that they stand for: `Figures.Digital.denoted_text`.
-/

namespace PanelCalc.Decimal

/-- The whole number that a row of digits denotes. -/
def natural? (digits : List Char) : Option Nat :=
  if digits ≠ [] ∧ ∀ char ∈ digits, isDigit char = true then some (ofDigits digits) else none

/-- The whole number that digits denote, with a sign in front of them or without one. -/
def integer? : List Char → Option Int
  | '-' :: digits => (natural? digits).map fun size : Nat => -(size : Int)
  | '+' :: digits => (natural? digits).map Int.ofNat
  | digits => (natural? digits).map Int.ofNat

/-- The number that digits denote, with at most one point among them. -/
def numeral? (numeral : List Char) : Option ℚ :=
  if Token.splitNumeral false numeral = (numeral, []) ∧ numeral.any isDigit then
    some ((numerator numeral : ℚ) / tenTo (places numeral))
  else none

/-- The number that a text without a sign denotes: a numeral, or one that is multiplied by the power
of ten whose exponent stands behind a letter. -/
def unsigned? (text : List Char) : Option ℚ :=
  match text.dropWhile (· ≠ 'e') with
  | [] => numeral? text
  | _ :: exponent => do
      let factor ← numeral? (text.takeWhile (· ≠ 'e'))
      let power ← integer? exponent
      return factor * 10 ^ power

/-- A number with its sign. -/
def signed (negative : Bool) (size : ℚ) : ℚ := if negative then -size else size

/-- The number that a text denotes. -/
def denoted? : List Char → Option ℚ
  | '-' :: text => (unsigned? text).map fun size => -size
  | text => unsigned? text

theorem signed_inj {negative : Bool} {left right : ℚ} :
    signed negative left = signed negative right ↔ left = right := by
  cases negative with
  | true => exact neg_inj
  | false => rfl

theorem abs_signed (negative : Bool) {size : ℚ} (nonnegative : 0 ≤ size) :
    |signed negative size| = size := by
  cases negative with
  | true => exact (abs_neg size).trans (abs_of_nonneg nonnegative)
  | false => exact abs_of_nonneg nonnegative

theorem signed_neg_iff {negative : Bool} {size : ℚ} (positive : 0 < size) :
    signed negative size < 0 ↔ negative = true := by
  cases negative with
  | true => simpa [signed] using positive
  | false => simpa [signed] using positive.le

/-! ## Exponents -/

/-- The digits of a whole number denote it. -/
theorem ofDigits_toDigits (number : Nat) : ofDigits (Nat.toDigits 10 number) = number := by
  induction number using Nat.strongRecOn with
  | ind number recurse =>
      have last := ofDigits_last number
      by_cases single : number < 10
      · rw [Nat.mod_eq_of_lt single] at last
        rw [Nat.toDigits_of_lt_base single, last]
      · rw [Nat.toDigits_of_base_le (by decide) (by omega), ofDigits_append,
          recurse (number / 10) (by omega), last, List.length_singleton, pow_one]
        omega

theorem natural_toDigits (number : Nat) : natural? (Nat.toDigits 10 number) = some number := by
  rw [natural?, if_pos ⟨Nat.toDigits_ne_nil, fun _ => isDigit_of_mem_toDigits⟩, ofDigits_toDigits]

namespace Figures

theorem integer_exponentText (exponent : Int) : integer? (exponentText exponent) = some exponent := by
  unfold exponentText
  split
  · rename_i below
    simp only [integer?, natural_toDigits, Option.map_some, Option.some.injEq]
    omega
  · rename_i above
    simp only [integer?, natural_toDigits, Option.map_some, Option.some.injEq]
    exact Int.natAbs_of_nonneg (not_lt.mp above)

/-- The number that figures stand for, without its sign. -/
def size (figures : Figures) : ℚ :=
  (ofDigits (figures.whole ++ figures.fraction) : ℚ) / 10 ^ figures.fraction.length *
    10 ^ figures.exponent.getD 0

variable {figures : Figures}

theorem Digital.numeral_denoted (digital : figures.Digital) :
    numeral? figures.numeral =
      some ((ofDigits (figures.whole ++ figures.fraction) : ℚ) / 10 ^ figures.fraction.length) := by
  rw [numeral?, if_pos ⟨digital.splitNumeral_numeral, digital.any_isDigit_numeral⟩,
    digital.numerator_numeral, digital.places_numeral, tenTo_eq]
  push_cast
  rfl

/-- A numeral consists of digits and points. -/
theorem Digital.of_mem_numeral (digital : figures.Digital) {char : Char}
    (member : char ∈ figures.numeral) : isDigit char = true ∨ char = '.' := by
  rcases List.mem_append.mp member with whole | fraction
  · exact .inl (digital.whole char whole)
  · split at fraction
    · cases fraction
    · rcases List.mem_cons.mp fraction with point | inside
      · exact .inr point
      · exact .inl (digital.fraction char inside)

/-- What figures are written as without their sign. -/
theorem text_eq_body (figures : Figures) :
    figures.text = (if figures.negative then ['-'] else []) ++ (figures.numeral ++
      match figures.exponent with
      | some exponent => 'e' :: exponentText exponent
      | none => []) := by
  cases written : figures.exponent <;> simp [text, numeral, written]

theorem Digital.unsigned_body (digital : figures.Digital) :
    unsigned? (figures.numeral ++
      match figures.exponent with
      | some exponent => 'e' :: exponentText exponent
      | none => []) = some figures.size := by
  have noLetter : ∀ char ∈ figures.numeral, decide (char ≠ 'e') = true := by
    intro char member
    rw [decide_eq_true_iff]
    rintro rfl
    rcases digital.of_mem_numeral member with digit | point
    · exact absurd digit (by decide)
    · exact absurd point (by decide)
  unfold unsigned?
  rw [List.dropWhile_append_of_pos noLetter, List.takeWhile_append_of_pos noLetter]
  cases written : figures.exponent with
  | none => simp [digital.numeral_denoted, size, written]
  | some exponent =>
      simp [digital.numeral_denoted, integer_exponentText, size, written]

/-- What figures are written as denotes the number that they stand for. -/
theorem Digital.denoted_text (digital : figures.Digital) :
    denoted? figures.text = some (signed figures.negative figures.size) := by
  rw [text_eq_body, signed]
  have body := digital.unsigned_body
  cases sign : figures.negative with
  | true => simp [denoted?, body]
  | false =>
      obtain ⟨char, others, whole, noSign⟩ := digital.exists_whole
      unfold denoted?
      split
      · rename_i text same
        have first := congrArg List.head? same
        have shown : figures.numeral.head? = some char := by simp [numeral, whole]
        simp [List.head?_append, shown] at first
        exact absurd first noSign
      · exact body

end Figures

end PanelCalc.Decimal
