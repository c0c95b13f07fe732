import PanelCalc.Decimal.Display
import PanelCalc.Proofs.Binary64.Nearest
import PanelCalc.Proofs.Decimal.Rounding

/-!
# Magnitudes nearest to decimal numbers

A magnitude that is nearest to a decimal number need not be equal to it. It never lies exactly
half a step above the number, where it would be rounded up, and it does not fall too far below a
power of ten, where the steps are smaller: `Rounded.amount_ne_tie` and `Rounded.small_step`.
-/

namespace PanelCalc.Decimal

open Binary64 (amountOfBits unitsOfBits unitsPerOne)

/-- No magnitude is nearer to an amount than these bits. -/
def Nearest (bits : Nat) (amount : ℚ) : Prop :=
  ∀ other, |amountOfBits bits - amount| ≤ |amountOfBits other - amount|

/-- The nearest magnitude is the amount itself if that is a magnitude. -/
theorem Nearest.eq_of_exact {bits : Nat} {amount : ℚ} (nearest : Nearest bits amount)
    (exact : ∃ other, amountOfBits other = amount) : amountOfBits bits = amount := by
  obtain ⟨other, same⟩ := exact
  have distance := nearest other
  rw [same, sub_self, abs_zero] at distance
  exact sub_eq_zero.mp (abs_eq_zero.mp (le_antisymm distance (abs_nonneg _)))

/-- The nearest magnitude does not fall below a magnitude that the amount reaches. -/
theorem Nearest.le_of_le {bits other : Nat} {amount : ℚ} (nearest : Nearest bits amount)
    (reached : amountOfBits other ≤ amount) : amountOfBits other ≤ amountOfBits bits := by
  by_contra short
  have distance := nearest other
  rw [abs_of_nonpos (by linarith), abs_of_nonpos (by linarith)] at distance
  linarith

/-- Two magnitudes are not exactly one decimal place apart. -/
theorem units_ne_add_unit {left right places : Nat} :
    left * 10 ^ (places + 1) ≠ right * 10 ^ (places + 1) + unitsPerOne := by
  intro same
  have five : 5 ∣ 10 ^ (places + 1) := Dvd.dvd.pow (by decide) (Nat.succ_ne_zero _)
  have divides : 5 ∣ unitsPerOne :=
    (Nat.dvd_add_right (five.mul_left right)).mp (same ▸ five.mul_left left)
  rw [Binary64.unitsPerOne_eq] at divides
  have isTwo := Nat.prime_five.dvd_of_dvd_pow divides
  omega

/-- A magnitude that lies one half below a whole number has few digits, and so does the whole
number. -/
theorem exists_amount_of_half_below {bits whole : Nat} (positive : 0 < whole)
    (half : amountOfBits bits = whole - 1 / 2) : ∃ other, amountOfBits other = whole := by
  have unit := Binary64.unitsPerOne_pos
  rw [amountOfBits, div_eq_iff unit.ne'] at half
  have doubled : 2 * unitsOfBits bits = (2 * whole - 1) * unitsPerOne := by
    have cast : ((2 * whole - 1 : Nat) : ℚ) = 2 * whole - 1 := by
      rw [Nat.cast_sub (by omega)]
      push_cast
      rfl
    have scaled : 2 * (unitsOfBits bits : ℚ) = (2 * whole - 1 : Nat) * unitsPerOne := by
      rw [cast, half]
      ring
    exact_mod_cast scaled
  have odd : (2 * whole - 1) % 2 = 1 := by omega
  have coprime : Nat.Coprime (2 * whole - 1) 2 :=
    Nat.coprime_two_right.mpr (Nat.odd_iff.mpr odd)
  have divides : 2 * whole - 1 ∣ unitsOfBits bits :=
    coprime.dvd_of_dvd_mul_left ⟨unitsPerOne, doubled⟩
  have positiveUnits : 0 < unitsOfBits bits := by
    have factors : 0 < (2 * whole - 1) * unitsPerOne :=
      Nat.mul_pos (by omega) (by exact_mod_cast unit)
    omega
  have short := Binary64.lt_of_dvd_units odd positiveUnits divides
  obtain ⟨other, same⟩ := @Binary64.exists_amountOfBits whole (by omega) 0
  exact ⟨other, by simpa using same⟩

namespace Rounded

section

variable {count bits found : Nat} {number : Rounded}

/-- A nearest magnitude lies half a step above no number that is displayed without an exponent. -/
theorem amount_ne_tie (someDigit : 0 < count) (full : number.Full count)
    (covers : number.Covers count (amountOfBits bits)) (short : number.exponent < count)
    (nearest : Nearest found (number.amount count)) :
    amountOfBits found ≠ number.amount count + number.step count / 2 := by
  intro tie
  have unitPos := number.step_pos count
  have distance := nearest bits
  rw [tie, add_sub_cancel_left, abs_of_pos (by linarith)] at distance
  have below : amountOfBits bits = number.amount count - number.step count / 2 := by
    rcases covers with ⟨_, above, before⟩ | ⟨lowest, before, above⟩
    · rcases le_abs'.mp distance with far | far
      · linarith
      · linarith
    · rw [amount_of_lowest someDigit lowest] at distance above
      rw [abs_of_neg (by linarith)] at distance
      linarith
  obtain ⟨places, exponent⟩ : ∃ places : Nat, number.exponent - count + 1 = -(places : Int) :=
    ⟨(count - 1 - number.exponent).toNat, by omega⟩
  have unit : number.step count = 1 / 10 ^ places := by
    rw [step, exponent, zpow_neg, zpow_natCast, one_div]
  cases places with
  | zero =>
      have one : number.step count = 1 := by simpa using unit
      rw [amount, one, mul_one] at below nearest tie
      have positive : 0 < number.significand :=
        Nat.lt_of_lt_of_le (ten_pow_pos _) full.1
      have exact := nearest.eq_of_exact (exists_amount_of_half_below positive below)
      linarith
  | succ places =>
      -- The two magnitudes are a step apart, which is no binary fraction.
      have apart : amountOfBits found = amountOfBits bits + 1 / 10 ^ (places + 1) := by linarith
      have ones := Binary64.unitsPerOne_pos
      have power : (0 : ℚ) < 10 ^ (places + 1) := by positivity
      simp only [amountOfBits] at apart
      field_simp at apart
      exact units_ne_add_unit (by exact_mod_cast apart)

end

/-- Powers of ten up to the twenty-second are magnitudes. -/
theorem exists_amount_pow {exponent : Nat} (small : exponent ≤ 22) :
    ∃ bits, amountOfBits bits = 10 ^ exponent := by
  have fits : 5 ^ exponent ≤ 2 * Binary64.leadingBit :=
    (Nat.pow_le_pow_right (by decide) small).trans (by decide)
  obtain ⟨bits, same⟩ := Binary64.exists_amountOfBits fits exponent
  refine ⟨bits, ?_⟩
  rw [same]
  push_cast
  rw [← mul_pow]
  norm_num

/-- Decimal fractions down to the two hundredth place have magnitudes close to them. -/
theorem exists_amount_near {places : Nat} (few : places ≤ 200) :
    ∃ bits, |amountOfBits bits - 1 / 10 ^ places| ≤ 1 / 10 ^ places / 2 ^ 53 := by
  have normal : Binary64.leadingBit ≤ 1 * unitsPerOne / 10 ^ places := by
    have least : Binary64.leadingBit ≤ unitsPerOne / 10 ^ 200 := by decide +kernel
    rw [Nat.one_mul]
    exact least.trans (Nat.div_le_div_left (Nat.pow_le_pow_right (by decide) few)
      (ten_pow_pos _))
  obtain ⟨bits, close⟩ := Binary64.exists_amount_close (ten_pow_pos _) normal
  refine ⟨bits, ?_⟩
  have parts : (2 : ℚ) * Binary64.leadingBit = 2 ^ 53 := by
    rw [Binary64.leadingBit_eq]
    norm_num
  rw [parts] at close
  simpa using close

/-- A nearest magnitude does not fall below a power of ten by more than the small steps there
allow, if the power is displayed without an exponent. -/
theorem small_step {count : Nat} (someDigit : 0 < count) {number : Rounded} {found : Nat}
    (lowest : number.significand = 10 ^ (count - 1))
    (nearest : Nearest found (number.amount count))
    (small : number.exponent ≤ 22)
    (whole : 0 ≤ number.exponent ∨ count = usualDigits ∧ -6 ≤ number.exponent) :
    number.amount count - number.step count / 20 ≤ amountOfBits found := by
  have unitPos := number.step_pos count
  by_cases nonnegative : 0 ≤ number.exponent
  · obtain ⟨exponent, same⟩ := Int.eq_ofNat_of_zero_le nonnegative
    rw [amount_of_lowest someDigit lowest, same, zpow_natCast] at nearest ⊢
    have exact := nearest.eq_of_exact (exists_amount_pow (by omega))
    linarith
  · obtain ⟨rfl, least⟩ : count = usualDigits ∧ -6 ≤ number.exponent := by omega
    obtain ⟨places, same⟩ : ∃ places : Nat, number.exponent = -(places : Int) :=
      ⟨number.exponent.natAbs, by omega⟩
    have unit : number.step usualDigits = 1 / 10 ^ places / 10 ^ 13 := by
      rw [step_eq someDigit, same, zpow_neg, zpow_natCast, one_div]
      rfl
    rw [amount_of_lowest someDigit lowest, same, zpow_neg, zpow_natCast, ← one_div] at nearest ⊢
    obtain ⟨other, near⟩ := @exists_amount_near places (by omega)
    have distance := abs_le.mp ((nearest other).trans near)
    have fraction : (0 : ℚ) < 1 / 10 ^ places := by positivity
    rw [unit]
    linarith

end Rounded
end PanelCalc.Decimal
