import Mathlib.Algebra.Order.Field.Rat
import PanelCalc.Decimal.Figures

/-!
# Rows of digits

The number that a row of digits denotes, and how it depends on the parts of the row. `lastDigits`
writes out a number that `ofDigits` reads back: `ofDigits_lastDigits`.
-/

namespace PanelCalc.Decimal

theorem tenTo_eq (exponent : Nat) : tenTo exponent = 10 ^ exponent := rfl

theorem ten_pow_pos (exponent : Nat) : 0 < 10 ^ exponent := Nat.pow_pos (Nat.succ_pos 9)

/-- The characters written for digits are digits. -/
theorem isDigit_digitChar {digit : Nat} (small : digit < 10) :
    isDigit (Nat.digitChar digit) = true := by
  have all : ∀ digit < 10, isDigit (Nat.digitChar digit) = true := by decide
  exact all digit small

theorem digitValue_digitChar {digit : Nat} (small : digit < 10) :
    digitValue (Nat.digitChar digit) = digit := by
  have all : ∀ digit < 10, digitValue (Nat.digitChar digit) = digit := by decide
  exact all digit small

/-- The last digit of a number denotes its remainder. -/
theorem ofDigits_last (number : Nat) :
    ofDigits [Nat.digitChar (number % 10)] = number % 10 := by
  simp [ofDigits, digitValue_digitChar (Nat.mod_lt number (Nat.succ_pos 9))]

/-- What has been read before a row of digits moves up by the length of the row. -/
theorem foldl_digits (digits : List Char) (start : Nat) :
    digits.foldl (fun value char => 10 * value + digitValue char) start =
      start * 10 ^ digits.length + ofDigits digits := by
  induction digits generalizing start with
  | nil => simp [ofDigits]
  | cons char rest recurse =>
      simp only [ofDigits, List.foldl_cons, List.length_cons] at recurse ⊢
      rw [recurse, recurse (10 * 0 + digitValue char), Nat.pow_succ]
      grind

/-- The number of a row of digits that consists of two rows. -/
theorem ofDigits_append (left right : List Char) :
    ofDigits (left ++ right) = ofDigits left * 10 ^ right.length + ofDigits right := by
  rw [ofDigits, List.foldl_append, foldl_digits]
  rfl

theorem ofDigits_zeros (count : Nat) : ofDigits (List.replicate count '0') = 0 := by
  induction count with
  | zero => rfl
  | succ count recurse =>
      rw [List.replicate_succ', ofDigits_append, recurse]
      rfl

theorem length_lastDigits (count number : Nat) : (lastDigits count number).length = count := by
  induction count generalizing number with
  | zero => rfl
  | succ count recurse => simp [lastDigits, recurse]

theorem lastDigits_ne_nil {count : Nat} (positive : 0 < count) (number : Nat) :
    lastDigits count number ≠ [] := by
  rw [← List.length_pos_iff, length_lastDigits]
  exact positive

theorem isDigit_of_mem_lastDigits {count number : Nat} {char : Char}
    (member : char ∈ lastDigits count number) : isDigit char = true := by
  induction count generalizing number with
  | zero => cases member
  | succ count recurse =>
      rcases List.mem_cons.mp member with rfl | inside
      · exact isDigit_digitChar (Nat.mod_lt _ (Nat.succ_pos 9))
      · exact recurse inside

/-- The last digits of a number denote its remainder. -/
theorem ofDigits_lastDigits (count number : Nat) :
    ofDigits (lastDigits count number) = number % 10 ^ count := by
  induction count generalizing number with
  | zero => simp [lastDigits, ofDigits, Nat.mod_one]
  | succ count recurse =>
      rw [lastDigits, ← List.singleton_append, ofDigits_append, recurse, ofDigits_last,
        length_lastDigits, tenTo_eq, Nat.mod_pow_succ, Nat.mul_comm, Nat.add_comm]

/-- The first ones of the last digits of a number are those of a number with fewer digits. -/
theorem take_lastDigits (count more number : Nat) :
    (lastDigits (count + more) number).take count = lastDigits count (number / 10 ^ more) := by
  induction count with
  | zero => rfl
  | succ count recurse =>
      rw [Nat.add_right_comm, lastDigits, List.take_succ_cons, recurse, lastDigits, tenTo_eq,
        tenTo_eq, Nat.add_comm count more, Nat.pow_add, Nat.div_div_eq_div_mul]

/-- One of the last digits of a number. -/
theorem getElem?_lastDigits (count more number : Nat) :
    (lastDigits (count + (more + 1)) number)[count]? =
      some (Nat.digitChar (number / 10 ^ more % 10)) := by
  induction count with
  | zero => simp [lastDigits, tenTo_eq]
  | succ count recurse =>
      rw [Nat.add_right_comm, lastDigits, List.getElem?_cons_succ, recurse]

namespace Figures

/-- Only zeros are dropped from the end of digits. -/
theorem significant_append_zeros (digits : List Char) :
    ∃ count, significant digits ++ List.replicate count '0' = digits := by
  refine ⟨(digits.reverse.takeWhile (· == '0')).length, ?_⟩
  have zeros : digits.reverse.takeWhile (· == '0') =
      List.replicate (digits.reverse.takeWhile (· == '0')).length '0' := by
    refine List.eq_replicate_of_mem fun char member => ?_
    have all := List.all_eq_true.mp (List.all_takeWhile (p := (· == '0'))) char member
    simpa using all
  have whole := List.takeWhile_append_dropWhile (p := (· == '0')) (l := digits.reverse)
  rw [zeros] at whole
  have turned := congrArg List.reverse whole
  simpa [significant, Text.dropEnd] using turned

theorem mem_of_mem_significant {digits : List Char} {char : Char}
    (member : char ∈ significant digits) : char ∈ digits := by
  obtain ⟨count, whole⟩ := significant_append_zeros digits
  rw [← whole]
  exact List.mem_append_left _ member

/-- Dropping zeros behind a point leaves the denoted number as it is. -/
theorem ofDigits_significant (whole digits : List Char) :
    ofDigits (whole ++ significant digits) * 10 ^ digits.length =
      ofDigits (whole ++ digits) * 10 ^ (significant digits).length := by
  obtain ⟨count, restored⟩ := significant_append_zeros digits
  have length := congrArg List.length restored
  rw [List.length_append, List.length_replicate] at length
  have moved :
      ofDigits (whole ++ digits) = ofDigits (whole ++ significant digits) * 10 ^ count := by
    conv => lhs; rw [← restored, ← List.append_assoc]
    rw [ofDigits_append, ofDigits_zeros, List.length_replicate, Nat.add_zero]
  rw [moved, ← length, Nat.pow_add]
  grind

end Figures
end PanelCalc.Decimal
