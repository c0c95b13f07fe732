import Mathlib.Algebra.Order.Floor.Semifield
import Mathlib.Data.Nat.Cast.Field
import PanelCalc.Decimal.Display
import PanelCalc.Proofs.Binary64.Nearest
import PanelCalc.Proofs.Decimal.Rounding

/-!
# Rounding digit by digit

Rounding an expansion by its digits gives the decimal number that is nearest to the quotient:
`Expansion.roundHalfUp_ofQuotient`. Magnitudes have no more digits than are written:
`Expansion.amount_ofQuotient`. The figures of a number are therefore those of the decimal number that
is nearest to it, `figures_eq`.
-/

namespace PanelCalc.Decimal

open Binary64 (amountOfBits binaryPlaces leadingBit magnitudeBits signBit unitsOfBits unitsPerOne)

/-- A number is a multiple of the next power of ten if its multiple of this one ends in a zero. -/
theorem ten_pow_succ_dvd_iff {count number : Nat} :
    10 ^ (count + 1) ∣ number ↔ 10 ^ count ∣ number ∧ number / 10 ^ count % 10 = 0 := by
  rw [Nat.dvd_iff_mod_eq_zero, Nat.dvd_iff_mod_eq_zero, Nat.mod_pow_succ, Nat.add_eq_zero_iff,
    Nat.mul_eq_zero]
  simp

theorem digitChar_eq_nine_iff {digit : Nat} (small : digit < 10) :
    Nat.digitChar digit = '9' ↔ digit = 9 := by
  have all : ∀ digit < 10, Nat.digitChar digit = '9' ↔ digit = 9 := by decide
  exact all digit small

theorem five_le_digitChar_iff {digit : Nat} (small : digit < 10) :
    '5' ≤ Nat.digitChar digit ↔ 5 ≤ digit := by
  have all : ∀ digit < 10, '5' ≤ Nat.digitChar digit ↔ 5 ≤ digit := by decide
  exact all digit small

namespace Expansion

/-- Adding one to digits gives the digits of the next number, and carries just where they come to
zeros again. -/
theorem carry_lastDigits (count number : Nat) :
    carry (lastDigits count number) =
      (decide (10 ^ count ∣ number + 1), lastDigits count (number + 1)) := by
  induction count with
  | zero => simp [lastDigits, carry]
  | succ count recurse =>
      have small : number / 10 ^ count % 10 < 10 := Nat.mod_lt _ (Nat.succ_pos 9)
      simp only [lastDigits, carry, recurse, tenTo_eq, ten_pow_succ_dvd_iff, Nat.succ_div]
      by_cases divides : 10 ^ count ∣ number + 1
      · simp only [divides, decide_true, if_true, true_and]
        by_cases nine : number / 10 ^ count % 10 = 9
        · have zero : (number / 10 ^ count + 1) % 10 = 0 := by omega
          simp [(digitChar_eq_nine_iff small).mpr nine, zero]
        · have next : (number / 10 ^ count + 1) % 10 = number / 10 ^ count % 10 + 1 := by omega
          simp [mt (digitChar_eq_nine_iff small).mp nine, next, digitValue_digitChar small]
      · simp [divides]

/-- The number after nines is a one and zeros. -/
theorem take_cons_lastDigits {count : Nat} (someDigit : 0 < count) :
    ('1' :: lastDigits count (10 ^ count)).take count = lastDigits count (10 ^ (count - 1)) := by
  have front : '1' :: lastDigits count (10 ^ count) = lastDigits (count + 1) (10 ^ count) := by
    simp [lastDigits, tenTo_eq]
  rw [front, take_lastDigits, Nat.pow_div someDigit (Nat.succ_pos 9)]

/-- What rounding makes of the digits of a number. -/
theorem roundHalfUp_lastDigits {count places number : Nat} (someDigit : 0 < count)
    (short : number / 10 ^ (places + 1) < 10 ^ count) (exponent : Int) :
    roundHalfUp count ⟨lastDigits (count + (places + 1)) number, exponent⟩ =
      let whole := number / 10 ^ (places + 1) + if 5 ≤ number / 10 ^ places % 10 then 1 else 0
      if whole = 10 ^ count then ⟨lastDigits count (10 ^ (count - 1)), exponent + 1⟩
      else ⟨lastDigits count whole, exponent⟩ := by
  have small : number / 10 ^ places % 10 < 10 := Nat.mod_lt _ (Nat.succ_pos 9)
  have kept : ((lastDigits (count + (places + 1)) number).take count).rightpad count '0' =
      lastDigits count (number / 10 ^ (places + 1)) := by
    rw [take_lastDigits, List.rightpad, length_lastDigits, Nat.sub_self, List.replicate_zero,
      List.append_nil]
  simp only [roundHalfUp, kept, getElem?_lastDigits, Option.any_some, decide_eq_true_eq,
    five_le_digitChar_iff small, carry_lastDigits]
  generalize number / 10 ^ (places + 1) = whole at *
  by_cases five : 5 ≤ number / 10 ^ places % 10
  · simp only [five, if_true]
    by_cases nines : whole + 1 = 10 ^ count
    · simp [nines, take_cons_lastDigits someDigit]
    · have nomultiple : ¬10 ^ count ∣ whole + 1 := fun divides =>
        nines (le_antisymm short (Nat.le_of_dvd (Nat.succ_pos _) divides))
      simp [nines, nomultiple]
  · simp [five, short.ne]

/-! ## Quotients -/

/-- Half of the step of a digit is added to a number: it reaches the next step just when the digit
behind is a five or more. -/
theorem add_half_div (number places : Nat) :
    (number + 5 * 10 ^ places) / 10 ^ (places + 1) =
      number / 10 ^ (places + 1) + if 5 ≤ number / 10 ^ places % 10 then 1 else 0 := by
  have unit := ten_pow_pos places
  have rest := Nat.mod_lt number unit
  have half : 5 * 10 ^ places / 10 ^ (places + 1) = 0 := Nat.div_eq_of_lt (by omega)
  rw [Nat.add_div (ten_pow_pos _), half, Nat.mod_pow_succ, Nat.mod_eq_of_lt (b := 10 ^ (places + 1))
    (a := 5 * 10 ^ places) (by omega), Nat.pow_succ]
  generalize number / 10 ^ places % 10 = digit
  generalize 10 ^ places = power at *
  congr 2
  rw [eq_iff_iff]
  constructor
  · intro reached
    by_contra small
    have few : power * digit ≤ power * 4 := Nat.mul_le_mul_left power (by omega)
    omega
  · intro large
    have most : power * 5 ≤ power * digit := Nat.mul_le_mul_left power large
    omega

/-- The nearest multiple of a step is found among the digits of a finer expansion. -/
theorem eq_add_half_div {significand places whole : Nat} {scaled : ℚ}
    (least : (significand : ℚ) ≤ scaled) (below : scaled < significand + 1)
    (above : (whole - 1 / 2) * (10 : ℚ) ^ (places + 1) ≤ scaled)
    (before : scaled < (whole + 1 / 2) * 10 ^ (places + 1)) :
    whole = (significand + 5 * 10 ^ places) / 10 ^ (places + 1) := by
  rw [pow_succ] at above before
  have lower : whole * (10 * 10 ^ places) < significand + 1 + 5 * 10 ^ places := by
    have scaled : (whole : ℚ) * (10 * 10 ^ places) < significand + 1 + 5 * 10 ^ places := by
      linarith
    exact_mod_cast scaled
  have upper : significand + 5 * 10 ^ places < (whole + 1) * (10 * 10 ^ places) := by
    have scaled : (significand : ℚ) + 5 * 10 ^ places < (whole + 1) * (10 * 10 ^ places) := by
      linarith
    exact_mod_cast scaled
  rw [Nat.pow_succ']
  exact (Nat.div_eq_of_lt_le (by omega) upper).symm

/-- A power of ten counted in steps of `10 ^ -finer`. -/
theorem zpow_mul_steps {place : Int} {finer steps : Nat} (split : place + finer = steps) :
    (10 : ℚ) ^ place * 10 ^ finer = 10 ^ steps := by
  rw [← zpow_add_places, split, zpow_natCast]

/-- The digits that are written are those of the whole part of a quotient in finer steps. -/
theorem div_eq_floor_scaled (num den finer : Nat) :
    num * 10 ^ finer / den = ⌊(num / den * 10 ^ finer : ℚ)⌋₊ := by
  rw [div_mul_eq_mul_div, ← @Nat.floor_div_eq_div ℚ]
  push_cast
  rfl

/-- The expansion of a quotient, given the place of its leading digit. -/
theorem ofQuotient_of_leading {num den finer : Nat} {leading : Int} (positive : 0 < den)
    (onGrid : 0 ≤ leading + finestPlace) (finerIs : (finer : Int) = exactPlaces - leading)
    (least : (10 : ℚ) ^ leading ≤ num / den) (below : (num : ℚ) / den < 10 ^ (leading + 1)) :
    ofQuotient num den = ⟨lastDigits (exactPlaces + 1) (num * 10 ^ finer / den), leading⟩ := by
  obtain ⟨digits, sameDigits⟩ : ∃ digits : Nat, (digits : Int) = leading + finestPlace :=
    ⟨(leading + finestPlace).toNat, by omega⟩
  have counted := digitCount_scaled positive sameDigits least below
  have exponent : ((digits + 1 : Nat) : Int) - 1 - finestPlace = leading := by omega
  simp only [ofQuotient, counted, exponent, ← finerIs, Int.toNat_natCast]
  rfl

theorem lt_exactPlaces {quotient : ℚ} {leading : Int} (least : (10 : ℚ) ^ leading ≤ quotient)
    (bounded : quotient < 10 ^ (exactPlaces + 1)) : leading < exactPlaces + 1 := by
  have exponents := lt_of_le_of_lt least bounded
  rw [← zpow_natCast, zpow_lt_zpow_iff_right₀ (by norm_num)] at exponents
  exact_mod_cast exponents

/-- Rounding an expansion by its digits gives the nearest decimal number. -/
theorem roundHalfUp_ofQuotient {count num den : Nat} (positive : 0 < den) (someDigit : 0 < count)
    (few : count ≤ exactPlaces) (grid : (10 : ℚ) ^ ((count : Int) - finestPlace - 1) ≤ num / den)
    (bounded : (num : ℚ) / den < 10 ^ (exactPlaces + 1)) :
    (ofQuotient num den).roundHalfUp count = (Rounded.nearest count num den).expansion count := by
  obtain ⟨leading, whole, least, below, above, before⟩ :=
    Rounded.exists_leading (lt_of_lt_of_le (by positivity) grid) count
  have onGrid := Rounded.le_leading_of_grid grid below
  have short := lt_exactPlaces least bounded
  obtain ⟨finer, finerIs⟩ : ∃ finer : Nat, (finer : Int) = exactPlaces - leading :=
    ⟨(exactPlaces - leading).toNat, by omega⟩
  obtain ⟨places, split⟩ : ∃ places, exactPlaces + 1 = count + (places + 1) :=
    ⟨exactPlaces - count, by omega⟩
  rw [Rounded.nearest_of_leading positive someDigit onGrid least below above before,
    ofQuotient_of_leading positive (by omega) finerIs least below]
  -- The quotient in steps of the last digit that is written.
  obtain ⟨scaled, scaledIs⟩ : ∃ scaled : ℚ, scaled = num / den * 10 ^ finer := ⟨_, rfl⟩
  have unit : (0 : ℚ) < 10 ^ finer := by positivity
  have nonnegative : 0 ≤ scaled := by
    rw [scaledIs]
    exact mul_nonneg (div_nonneg (Nat.cast_nonneg num) (Nat.cast_nonneg den)) unit.le
  have written : num * 10 ^ finer / den = ⌊scaled⌋₊ := scaledIs ▸ div_eq_floor_scaled num den finer
  have step : (10 : ℚ) ^ (leading - count + 1) * 10 ^ finer = 10 ^ (places + 1) :=
    zpow_mul_steps (by omega)
  have power : (10 : ℚ) ^ (leading + 1) * 10 ^ finer = 10 ^ (count + (places + 1)) :=
    zpow_mul_steps (by omega)
  have scaledAbove : (whole - 1 / 2) * (10 : ℚ) ^ (places + 1) ≤ scaled := by
    rw [← step, ← mul_assoc, scaledIs]
    exact mul_le_mul_of_nonneg_right above unit.le
  have scaledBefore : scaled < (whole + 1 / 2) * 10 ^ (places + 1) := by
    rw [← step, ← mul_assoc, scaledIs]
    exact mul_lt_mul_of_pos_right before unit
  have scaledBelow : scaled < 10 ^ (count + (places + 1)) := by
    rw [← power, scaledIs]
    exact mul_lt_mul_of_pos_right below unit
  have wholeIs := eq_add_half_div (Nat.floor_le nonnegative) (Nat.lt_floor_add_one scaled)
    scaledAbove scaledBefore
  have fits : ⌊scaled⌋₊ / 10 ^ (places + 1) < 10 ^ count := by
    rw [Nat.div_lt_iff_lt_mul (ten_pow_pos _), ← Nat.pow_add, Nat.floor_lt nonnegative]
    exact_mod_cast scaledBelow
  rw [add_half_div] at wholeIs
  rw [written, split, roundHalfUp_lastDigits someDigit fits, ← wholeIs]
  simp only
  split <;> rfl

/-! ## Magnitudes -/

/-- The number that an expansion stands for. -/
def amount (expansion : Expansion) : ℚ :=
  ofDigits expansion.digits * 10 ^ (expansion.exponent + 1 - expansion.digits.length)

/-- No magnitude has digits behind those that are written. -/
theorem unitsPerOne_dvd {bits finer : Nat} {leading : Int}
    (least : (10 : ℚ) ^ leading ≤ amountOfBits bits)
    (finerIs : (finer : Int) = exactPlaces - leading) :
    unitsPerOne ∣ unitsOfBits bits * 10 ^ finer := by
  obtain ⟨place, significand, rfl, short, normal⟩ := Binary64.exists_place bits
  rw [amountOfBits] at least
  rw [Binary64.unitsOfBits_place short.le normal, Binary64.unitsPerOne_eq] at least ⊢
  have enough : binaryPlaces ≤ place + finer := by
    -- Otherwise the significand would have too many digits for its place.
    by_contra few
    obtain ⟨digits, rfl⟩ : ∃ digits : Nat, leading = digits :=
      ⟨leading.toNat, by simp only [exactPlaces, binaryPlaces] at *; omega⟩
    have long : place + 27 ≤ digits := by simp only [exactPlaces, binaryPlaces] at *; omega
    rw [zpow_natCast, le_div_iff₀ (by positivity)] at least
    have wide : 10 ^ digits * 2 ^ binaryPlaces ≤ significand * 2 ^ place := by
      exact_mod_cast least
    have power : 2 ^ (place + 27) ≤ 10 ^ digits :=
      (Nat.pow_le_pow_right (by decide) long).trans (Nat.pow_le_pow_left (by decide) digits)
    have narrow : significand * 2 ^ place < 2 ^ 53 * 2 ^ place :=
      Nat.mul_lt_mul_of_pos_right short (Nat.two_pow_pos place)
    have exponents : 2 ^ (53 + place) ≤ 2 ^ (place + 27 + binaryPlaces) :=
      Nat.pow_le_pow_right (by decide) (by simp only [binaryPlaces]; omega)
    have scaled := Nat.mul_le_mul_right (2 ^ binaryPlaces) power
    rw [← Nat.pow_add] at narrow scaled
    omega
  have twos := Nat.pow_dvd_pow 2 enough
  rw [Nat.pow_add] at twos
  have tens : 2 ^ finer ∣ 10 ^ finer := pow_dvd_pow_of_dvd (by decide) finer
  exact twos.trans (Nat.mul_dvd_mul (Nat.dvd_mul_left _ _) tens)

end Expansion

theorem displayDigits_pos (units : Nat) : 0 < displayDigits units := by
  unfold displayDigits
  split <;> decide

theorem displayDigits_le (units : Nat) : displayDigits units ≤ extremeDigits := by
  unfold displayDigits
  split <;> decide

/-- The smallest magnitude is on the grid of all displayed numbers. -/
theorem Rounded.grid_of_pos {count units : Nat} (few : count ≤ extremeDigits) (positive : 0 < units) :
    (10 : ℚ) ^ ((count : Int) - finestPlace - 1) ≤ (units : ℚ) / unitsPerOne := by
  have onePos := Binary64.unitsPerOne_pos
  have room : unitsPerOne ≤ 10 ^ 325 := by decide +kernel
  have finest : (count : Int) - finestPlace - 1 ≤ -(325 : Nat) := by
    simp only [extremeDigits, finestPlace] at few ⊢
    omega
  calc (10 : ℚ) ^ ((count : Int) - finestPlace - 1)
      ≤ 10 ^ (-(325 : Nat) : Int) := zpow_le_zpow_right₀ (by norm_num) finest
    _ = 1 / 10 ^ 325 := by rw [zpow_neg, zpow_natCast, one_div]
    _ ≤ 1 / unitsPerOne := by
        rw [div_le_div_iff₀ (by positivity) onePos, one_mul, one_mul]
        exact_mod_cast room
    _ ≤ units / unitsPerOne := by
        refine div_le_div_of_nonneg_right ?_ onePos.le
        exact_mod_cast positive

namespace Expansion

/-- No magnitude comes near the end of the digits that are written. -/
theorem amountOfBits_lt {bits : Nat} (inRange : bits < signBit) :
    amountOfBits bits < 10 ^ (exactPlaces + 1) := by
  have enclosed : unitsOfBits signBit ≤ 10 ^ 400 * unitsPerOne := by decide +kernel
  have room : (10 : ℚ) ^ 400 ≤ 10 ^ (exactPlaces + 1) :=
    pow_le_pow_right₀ (by norm_num) (by decide)
  have bound : amountOfBits signBit ≤ 10 ^ 400 := by
    rw [amountOfBits, div_le_iff₀ Binary64.unitsPerOne_pos]
    exact_mod_cast enclosed
  exact lt_of_lt_of_le (Binary64.amountOfBits_strictMono inRange) (bound.trans room)

/-- The expansion of a magnitude stands for it: no further digits are cut off. -/
theorem amount_ofQuotient {bits : Nat} (nonzero : bits ≠ 0) (inRange : bits < signBit) :
    (ofQuotient (unitsOfBits bits) unitsPerOne).amount = amountOfBits bits := by
  have somePos := Binary64.unitsOfBits_pos nonzero
  have grid := @Rounded.grid_of_pos 1 _ (by decide) somePos
  obtain ⟨leading, _, least, below, _⟩ :=
    Rounded.exists_leading (lt_of_lt_of_le (by positivity) grid) 1
  have onGrid := Rounded.le_leading_of_grid grid below
  have short := lt_exactPlaces least (amountOfBits_lt inRange)
  obtain ⟨finer, finerIs⟩ : ∃ finer : Nat, (finer : Int) = exactPlaces - leading :=
    ⟨(exactPlaces - leading).toNat, by omega⟩
  have onePos : 0 < unitsPerOne := by exact_mod_cast Binary64.unitsPerOne_pos
  have written : ((unitsOfBits bits * 10 ^ finer / unitsPerOne : Nat) : ℚ) =
      amountOfBits bits * 10 ^ finer := by
    rw [Nat.cast_div (unitsPerOne_dvd least finerIs) Binary64.unitsPerOne_pos.ne', amountOfBits,
      div_mul_eq_mul_div]
    push_cast
    rfl
  have fits : unitsOfBits bits * 10 ^ finer / unitsPerOne < 10 ^ (exactPlaces + 1) := by
    have power : (10 : ℚ) ^ (leading + 1) * 10 ^ finer = 10 ^ (exactPlaces + 1) :=
      zpow_mul_steps (by omega)
    have scaled := mul_lt_mul_of_pos_right below (show (0 : ℚ) < 10 ^ finer by positivity)
    rw [power] at scaled
    have bound := written.trans_lt scaled
    exact_mod_cast bound
  have exponent : (finer : Int) + (leading + 1 - (exactPlaces + 1 : Nat)) = 0 := by omega
  rw [ofQuotient_of_leading onePos (by omega) finerIs least below, amount, ofDigits_lastDigits,
    length_lastDigits, Nat.mod_eq_of_lt fits, written, mul_assoc, ← zpow_natCast,
    ← zpow_add₀ (by norm_num), exponent, zpow_zero, mul_one]

/-- The digits of a magnitude are rounded to those of the nearest decimal number. -/
theorem roundHalfUp_units {count bits : Nat} (someDigit : 0 < count) (few : count ≤ extremeDigits)
    (nonzero : bits ≠ 0) (inRange : bits < signBit) :
    (ofQuotient (unitsOfBits bits) unitsPerOne).roundHalfUp count =
      (Rounded.nearest count (unitsOfBits bits) unitsPerOne).expansion count :=
  roundHalfUp_ofQuotient (by exact_mod_cast Binary64.unitsPerOne_pos) someDigit
    (few.trans (by decide)) (Rounded.grid_of_pos few (Binary64.unitsOfBits_pos nonzero))
    (amountOfBits_lt inRange)

end Expansion

/-! ## Numbers -/

/-- The decimal number that is displayed for a magnitude. -/
def rounded (units : Nat) : Rounded :=
  Rounded.nearest (displayDigits units) units unitsPerOne

/-- The figures of a magnitude other than zero with the given sign. -/
def figuresOfBits (negative : Bool) (bits : Nat) : Figures :=
  (rounded (unitsOfBits bits)).figures negative (displayDigits (unitsOfBits bits))

/-- The figures of a number other than zero are those of its magnitude. -/
theorem figures_eq {value : Float} (nonzero : Binary64.magnitudeBits value ≠ 0) :
    figures value = figuresOfBits (Binary64.isNegative value) (Binary64.magnitudeBits value) := by
  have notZero : ¬Binary64.isZero value = true := by simp [Binary64.isZero, nonzero]
  have inRange : magnitudeBits value < signBit := Nat.mod_lt _ (by decide)
  rw [figures, if_neg notZero, figuresOfBits, Rounded.figures, rounded,
    ← Expansion.roundHalfUp_units (displayDigits_pos _) (displayDigits_le _) nonzero inRange]
  rfl

/-- Both zeros have the same figures. -/
theorem figures_of_zero {value : Float} (zero : magnitudeBits value = 0) :
    figures value = .zero := by
  rw [figures, if_pos (by simp [Binary64.isZero, zero])]

end PanelCalc.Decimal
