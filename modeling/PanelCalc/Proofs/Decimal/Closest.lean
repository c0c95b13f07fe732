import PanelCalc.Proofs.Decimal.Rounding

/-!
# The closest decimal number

A quotient that is rounded to a decimal number lies no closer to any other one with as many digits,
and to no larger one as close: `Rounded.closest_of_covers`. Other numbers may have another exponent;
those with a smaller one lie below a power of ten, where the steps are smaller.
-/

namespace PanelCalc.Decimal.Rounded

/-- No decimal number with `count` digits lies closer to a quotient than this one, and no larger one
lies as close. -/
structure Closest (count : Nat) (number : Rounded) (quotient : ℚ) : Prop where
  full : number.Full count
  nearest : ∀ other : Rounded, other.Full count →
    |number.amount count - quotient| ≤ |other.amount count - quotient|
  larger : ∀ other : Rounded, other.Full count →
    |other.amount count - quotient| = |number.amount count - quotient| →
      other.amount count ≤ number.amount count

variable {count : Nat} {number other : Rounded} {quotient : ℚ}

/-- A number with the same exponent or a larger one consists of whole steps. -/
theorem exists_steps (later : number.exponent ≤ other.exponent) :
    ∃ steps : Nat, other.amount count = steps * number.step count := by
  obtain ⟨places, same⟩ : ∃ places : Nat, other.exponent = number.exponent + places :=
    ⟨(other.exponent - number.exponent).toNat, by omega⟩
  refine ⟨other.significand * 10 ^ places, ?_⟩
  have exponent : other.exponent - count + 1 = number.exponent - count + 1 + places := by omega
  rw [amount, step, step, exponent, zpow_add_places]
  push_cast
  ring

/-- A number with a smaller exponent lies below the power of ten by a smaller step at least. -/
theorem amount_le_of_exponent_lt (someDigit : 0 < count) (full : other.Full count)
    (earlier : other.exponent < number.exponent) :
    other.amount count ≤ 10 ^ number.exponent - number.step count / 10 := by
  obtain ⟨_, last⟩ := amount_bounds someDigit full
  rcases (Int.add_one_le_iff.mpr earlier).eq_or_lt with next | far
  · have exponent : number.exponent - count + 1 = other.exponent - count + 1 + 1 := by omega
    have steps : number.step count = 10 * other.step count := by
      rw [step, step, exponent, zpow_ten_succ]
    rw [← next, steps]
    linarith
  · have unitPos := other.step_pos count
    have unit := step_le someDigit number
    have tenth : (10 : ℚ) ^ number.exponent = 10 * 10 ^ (number.exponent - 1) := by
      rw [← zpow_ten_succ, sub_add_cancel]
    have below : (10 : ℚ) ^ (other.exponent + 1) ≤ 10 ^ (number.exponent - 1) :=
      zpow_le_zpow_right₀ (by norm_num) (by omega)
    have power : (0 : ℚ) < 10 ^ (number.exponent - 1) := by positivity
    linarith

/-- Of all rows of steps, the one around which a quotient lies is the closest. -/
theorem closest_steps (above : number.amount count - number.step count / 2 ≤ quotient)
    (before : quotient < number.amount count + number.step count / 2) (steps : Nat) :
    |number.amount count - quotient| ≤ |steps * number.step count - quotient| ∧
      (|steps * number.step count - quotient| = |number.amount count - quotient| →
        steps * number.step count ≤ number.amount count) := by
  have unitPos := number.step_pos count
  have close : |number.amount count - quotient| ≤ number.step count / 2 := by
    rw [abs_le]
    constructor <;> linarith
  rcases Nat.lt_trichotomy steps number.significand with fewer | same | more
  · have short : ((steps + 1 : Nat) : ℚ) ≤ number.significand := by exact_mod_cast fewer
    have scaled := mul_le_mul_of_nonneg_right short unitPos.le
    have below : steps * number.step count ≤ number.amount count - number.step count := by
      simp only [amount]
      push_cast at scaled
      linarith
    refine ⟨close.trans ?_, fun _ => by linarith⟩
    rw [abs_of_nonpos (by linarith)]
    linarith
  · rw [same]
    exact ⟨le_rfl, fun _ => le_rfl⟩
  · have long : ((number.significand + 1 : Nat) : ℚ) ≤ steps := by exact_mod_cast more
    have scaled := mul_le_mul_of_nonneg_right long unitPos.le
    have beyond : number.amount count + number.step count ≤ steps * number.step count := by
      simp only [amount]
      push_cast at scaled
      linarith
    have farther : number.step count / 2 < |steps * number.step count - quotient| := by
      rw [abs_of_pos (by linarith)]
      linarith
    exact ⟨by linarith, fun tie => by linarith⟩

/-- A quotient that is rounded to a number without reaching its power of ten. -/
theorem closest_of_lowest (someDigit : 0 < count) (full : number.Full count)
    (lowest : number.significand = 10 ^ (count - 1)) (below : quotient < 10 ^ number.exponent)
    (above : number.amount count - number.step count / 20 ≤ quotient) :
    number.Closest count quotient := by
  have unitPos := number.step_pos count
  have power := amount_of_lowest someDigit lowest
  have distance : |number.amount count - quotient| = number.amount count - quotient := by
    rw [power]
    exact abs_of_pos (by linarith)
  have onEitherSide : ∀ other : Rounded, other.Full count →
      number.amount count ≤ other.amount count ∨
        other.amount count ≤ number.amount count - number.step count / 10 := by
    intro other fullOther
    by_cases later : number.exponent ≤ other.exponent
    · left
      have reached : (10 : ℚ) ^ number.exponent ≤ 10 ^ other.exponent :=
        zpow_le_zpow_right₀ (by norm_num) later
      linarith [(amount_bounds someDigit fullOther).1]
    · right
      rw [power]
      exact amount_le_of_exponent_lt someDigit fullOther (Int.not_le.mp later)
  refine ⟨full, fun other fullOther => ?_, fun other fullOther tie => ?_⟩
  · rw [distance]
    rcases onEitherSide other fullOther with atLeast | short
    · rw [abs_of_pos (by linarith)]
      linarith
    · rw [abs_of_neg (by linarith)]
      linarith
  · rw [distance] at tie
    rcases onEitherSide other fullOther with atLeast | short
    · rw [abs_of_pos (by linarith)] at tie
      linarith
    · linarith

/-- A quotient that is rounded to a number after reaching its power of ten. -/
theorem closest_of_reached (someDigit : 0 < count) (full : number.Full count)
    (least : 10 ^ number.exponent ≤ quotient)
    (above : number.amount count - number.step count / 2 ≤ quotient)
    (before : quotient < number.amount count + number.step count / 2) :
    number.Closest count quotient := by
  have unitPos := number.step_pos count
  have whole := closest_steps above before
  have power : (10 : ℚ) ^ number.exponent = (10 ^ (count - 1) : Nat) * number.step count :=
    zpow_eq_steps number.exponent someDigit
  -- A number below the power of ten is farther away than that power, which consists of steps.
  have far : ∀ other : Rounded, other.Full count → other.exponent < number.exponent →
      |number.amount count - quotient| < |other.amount count - quotient| := by
    intro other fullOther earlier
    have short := amount_le_of_exponent_lt someDigit fullOther earlier
    have nearest := (whole (10 ^ (count - 1))).1
    rw [← power, abs_of_nonpos (by linarith : (10 : ℚ) ^ number.exponent - quotient ≤ 0)] at nearest
    refine lt_of_le_of_lt nearest ?_
    rw [abs_of_neg (by linarith)]
    linarith
  refine ⟨full, fun other fullOther => ?_, fun other fullOther tie => ?_⟩
  · by_cases later : number.exponent ≤ other.exponent
    · obtain ⟨steps, same⟩ := @exists_steps count _ _ later
      rw [same]
      exact (whole steps).1
    · exact (far other fullOther (Int.not_le.mp later)).le
  · by_cases later : number.exponent ≤ other.exponent
    · obtain ⟨steps, same⟩ := @exists_steps count _ _ later
      rw [same] at tie ⊢
      exact (whole steps).2 tie
    · exact absurd tie (far other fullOther (Int.not_le.mp later)).ne'

/-- The number to which a quotient is rounded is the closest one. -/
theorem closest_of_covers (someDigit : 0 < count) (full : number.Full count)
    (covers : number.Covers count quotient) : number.Closest count quotient := by
  rcases covers with ⟨least, above, before⟩ | ⟨lowest, below, above⟩
  · exact closest_of_reached someDigit full least above before
  · exact closest_of_lowest someDigit full lowest below above

end PanelCalc.Decimal.Rounded
