import Mathlib.Algebra.Order.Field.Power
import Mathlib.Algebra.Order.Field.Rat
import Mathlib.Data.Int.Log
import Mathlib.Data.Rat.Floor
import Mathlib.Tactic.FieldSimp
import Mathlib.Tactic.Linarith
import Mathlib.Tactic.Positivity
import Mathlib.Tactic.Ring
import PanelCalc.Binary64.Rounding
import PanelCalc.Proofs.Decimal.Digits

/-!
# Rounding to significant digits

`Rounded.nearest` finds the decimal number with a given count of significant digits that is nearest
to a positive quotient, a tie going to the larger one. Which quotients are rounded to a given decimal
number is said by `Rounded.nearest_eq_iff`: they lie around it by half a step of its last digit, and
below a power of ten the steps are ten times smaller.
-/

namespace PanelCalc.Decimal

/-- The decimal number `significand * 10 ^ (exponent - count + 1)` for a significand of `count`
digits, so that `exponent` belongs to its leading digit. -/
structure Rounded where
  significand : Nat
  exponent : Int
  deriving DecidableEq, Repr

/-- The decimal number of `count` significant digits nearest to `num / den`. A significand that
rounds up to `10 ^ count` is written with one digit less and the next exponent. -/
def Rounded.nearest (count num den : Nat) : Rounded :=
  let scaled := num * tenTo finestPlace
  let digits := digitCount (scaled / den)
  let significand := Binary64.halfUp scaled (den * tenTo (digits - count))
  let exponent : Int := (digits : Int) - 1 - finestPlace
  if significand = tenTo count then ⟨tenTo (count - 1), exponent + 1⟩
  else ⟨significand, exponent⟩

/-- A decimal number written out in `count` digits. -/
def Rounded.expansion (count : Nat) (number : Rounded) : Expansion :=
  { digits := lastDigits count number.significand, exponent := number.exponent }

/-- The figures of a decimal number of `count` significant digits. -/
def Rounded.figures (negative : Bool) (count : Nat) (number : Rounded) : Figures :=
  (number.expansion count).figures negative count

/-- Between two powers of ten, all whole numbers have the same count of digits. -/
theorem digitCount_eq {count number : Nat} (least : 10 ^ count ≤ number)
    (below : number < 10 ^ (count + 1)) : digitCount number = count + 1 := by
  induction count generalizing number with
  | zero =>
      rw [digitCount, if_pos (by omega)]
  | succ count recurse =>
      rw [Nat.pow_succ] at least below
      have positive : 0 < 10 ^ count := ten_pow_pos _
      rw [digitCount, if_neg (by omega), recurse (by omega) (by omega)]

/-- A quotient is rounded to the whole number around which it lies by one half. -/
theorem halfUp_eq {num den whole : Nat} (positive : 0 < den)
    (above : (whole : ℚ) - 1 / 2 ≤ num / den) (below : (num : ℚ) / den < whole + 1 / 2) :
    Binary64.halfUp num den = whole := by
  have denominator : (0 : ℚ) < den := by exact_mod_cast positive
  rw [le_div_iff₀ denominator] at above
  rw [div_lt_iff₀ denominator] at below
  have above : 2 * (whole * den) ≤ 2 * num + den := by
    have scaled : 2 * ((whole : ℚ) * den) ≤ 2 * num + den := by linarith
    exact_mod_cast scaled
  have below : 2 * num + den < 2 * (whole * den) + 2 * den := by
    have scaled : 2 * (num : ℚ) + den < 2 * (whole * den) + 2 * den := by linarith
    exact_mod_cast scaled
  refine Nat.div_eq_of_lt_le ?_ ?_
  · linarith
  · rw [Nat.succ_mul]
    linarith

/-- A power of ten counted in steps of `10 ^ -places`. -/
theorem zpow_add_places (exponent : Int) (places : Nat) :
    (10 : ℚ) ^ (exponent + places) = 10 ^ exponent * 10 ^ places := by
  rw [zpow_add₀ (by norm_num), zpow_natCast]

/-- The place of the leading digit of a quotient counted in steps of `10 ^ -places`. -/
theorem digitCount_scaled {num den places digits : Nat} {leading : Int} (positive : 0 < den)
    (same : (digits : Int) = leading + places)
    (least : (10 : ℚ) ^ leading ≤ num / den) (below : (num : ℚ) / den < 10 ^ (leading + 1)) :
    digitCount (num * tenTo places / den) = digits + 1 := by
  have denominator : (0 : ℚ) < den := by exact_mod_cast positive
  have unit : (0 : ℚ) < 10 ^ places := by positivity
  have next : ((digits + 1 : Nat) : Int) = leading + 1 + places := by omega
  rw [tenTo_eq]
  refine digitCount_eq ?_ ?_
  · rw [Nat.le_div_iff_mul_le positive]
    have scaled : (10 : ℚ) ^ digits * den ≤ num * 10 ^ places := by
      rw [← zpow_natCast 10 digits, same, zpow_add_places, mul_right_comm]
      exact mul_le_mul_of_nonneg_right ((le_div_iff₀ denominator).mp least) unit.le
    exact_mod_cast scaled
  · rw [Nat.div_lt_iff_lt_mul positive]
    have scaled : num * (10 : ℚ) ^ places < 10 ^ (digits + 1) * den := by
      rw [← zpow_natCast 10 (digits + 1), next, zpow_add_places, mul_right_comm]
      exact mul_lt_mul_of_pos_right ((div_lt_iff₀ denominator).mp below) unit
    exact_mod_cast scaled

/-- Rounding a quotient to a multiple of a power of ten. -/
theorem halfUp_scaled {num den places shift whole : Nat} {exponent : Int} (positive : 0 < den)
    (same : (shift : Int) = exponent + places)
    (above : (whole - 1 / 2) * (10 : ℚ) ^ exponent ≤ num / den)
    (before : (num : ℚ) / den < (whole + 1 / 2) * 10 ^ exponent) :
    Binary64.halfUp (num * tenTo places) (den * tenTo shift) = whole := by
  have step : (0 : ℚ) < 10 ^ exponent := by positivity
  have quotient : ((num * 10 ^ places : Nat) : ℚ) / (den * 10 ^ shift : Nat) =
      num / den / 10 ^ exponent := by
    have nonzero : (den : ℚ) ≠ 0 := Nat.cast_ne_zero.mpr positive.ne'
    push_cast
    rw [← zpow_natCast 10 shift, same, zpow_add_places]
    field_simp
  rw [tenTo_eq, tenTo_eq]
  refine halfUp_eq (Nat.mul_pos positive (ten_pow_pos _)) ?_ ?_
  · rw [quotient, le_div_iff₀ step]
    exact above
  · rw [quotient, div_lt_iff₀ step]
    exact before

namespace Rounded

/-- The step of the last digit of a decimal number with `count` digits. -/
def step (count : Nat) (number : Rounded) : ℚ := 10 ^ (number.exponent - count + 1)

/-- The decimal number itself. -/
def amount (count : Nat) (number : Rounded) : ℚ := number.significand * number.step count

/-- A significand of exactly `count` digits. -/
def Full (count : Nat) (number : Rounded) : Prop :=
  10 ^ (count - 1) ≤ number.significand ∧ number.significand < 10 ^ count

/-- Where a quotient is rounded to a decimal number with `count` digits: within half a step, the
upper end excluded, and below a power of ten within half of the smaller step there. -/
def Covers (count : Nat) (number : Rounded) (quotient : ℚ) : Prop :=
  (10 ^ number.exponent ≤ quotient ∧
    number.amount count - number.step count / 2 ≤ quotient ∧
    quotient < number.amount count + number.step count / 2) ∨
  (number.significand = 10 ^ (count - 1) ∧ quotient < 10 ^ number.exponent ∧
    number.amount count - number.step count / 20 ≤ quotient)

/-- The decimal number to which a quotient is rounded, given the place of the quotient's leading
digit and the nearest multiple of the step there. -/
theorem nearest_of_leading {count num den whole : Nat} {leading : Int} (positive : 0 < den)
    (someDigit : 0 < count) (grid : (count : Int) ≤ leading + finestPlace + 1)
    (least : (10 : ℚ) ^ leading ≤ num / den) (below : (num : ℚ) / den < 10 ^ (leading + 1))
    (above : (whole - 1 / 2) * (10 : ℚ) ^ (leading - count + 1) ≤ num / den)
    (before : (num : ℚ) / den < (whole + 1 / 2) * 10 ^ (leading - count + 1)) :
    nearest count num den =
      if whole = 10 ^ count then ⟨10 ^ (count - 1), leading + 1⟩ else ⟨whole, leading⟩ := by
  obtain ⟨digits, places⟩ : ∃ digits : Nat, (digits : Int) = leading + finestPlace :=
    ⟨(leading + finestPlace).toNat, by omega⟩
  have counted := digitCount_scaled positive places least below
  have shift : ((digits + 1 - count : Nat) : Int) = leading - count + 1 + finestPlace := by omega
  have rounded := halfUp_scaled positive shift above before
  have exponent : ((digits + 1 : Nat) : Int) - 1 - finestPlace = leading := by omega
  rw [nearest, counted, rounded, exponent]
  rfl

/-- A power of ten and the next one. -/
theorem zpow_ten_succ (exponent : Int) : (10 : ℚ) ^ (exponent + 1) = 10 * 10 ^ exponent := by
  rw [zpow_add_one₀ (by norm_num), mul_comm]

theorem step_pos (count : Nat) (number : Rounded) : 0 < number.step count := by
  unfold step
  positivity

/-- A power of ten in steps of the last of `count` digits. -/
theorem zpow_eq_steps (exponent : Int) {count : Nat} (someDigit : 0 < count) :
    (10 : ℚ) ^ exponent = (10 ^ (count - 1) : Nat) * 10 ^ (exponent - count + 1) := by
  have parts : exponent = ((count - 1 : Nat) : Int) + (exponent - count + 1) := by omega
  conv => lhs; rw [parts]
  rw [zpow_add₀ (by norm_num), zpow_natCast]
  push_cast
  rfl

/-- The step of the last of `count` digits. -/
theorem step_eq {count : Nat} (someDigit : 0 < count) (number : Rounded) :
    number.step count = 10 ^ number.exponent / 10 ^ (count - 1) := by
  rw [eq_div_iff (by positivity), zpow_eq_steps number.exponent someDigit, mul_comm]
  push_cast
  rfl

/-- The first number with too many digits. -/
theorem pow_count {count : Nat} (someDigit : 0 < count) : 10 ^ count = 10 * 10 ^ (count - 1) := by
  rw [← Nat.pow_succ', Nat.succ_eq_add_one, Nat.sub_add_cancel someDigit]

/-- The place of the leading digit of a quotient, and the nearest multiple of the step there. -/
theorem exists_leading {quotient : ℚ} (positive : 0 < quotient) (count : Nat) :
    ∃ (leading : Int) (whole : Nat), (10 : ℚ) ^ leading ≤ quotient ∧
      quotient < 10 ^ (leading + 1) ∧
      (whole - 1 / 2) * (10 : ℚ) ^ (leading - count + 1) ≤ quotient ∧
      quotient < (whole + 1 / 2) * 10 ^ (leading - count + 1) := by
  let leading := Int.log 10 quotient
  have step : (0 : ℚ) < 10 ^ (leading - count + 1) := by positivity
  have nonnegative : 0 ≤ quotient / 10 ^ (leading - count + 1) + 1 / 2 := by positivity
  refine ⟨leading, ⌊quotient / 10 ^ (leading - count + 1) + 1 / 2⌋₊,
    Int.zpow_log_le_self (by norm_num) positive, Int.lt_zpow_succ_log_self (by norm_num) quotient,
    ?_, ?_⟩
  · rw [← le_div_iff₀ step]
    linarith [Nat.floor_le nonnegative]
  · rw [← div_lt_iff₀ step]
    linarith [Nat.lt_floor_add_one (quotient / 10 ^ (leading - count + 1) + 1 / 2)]

/-- Whole numbers that differ by less than one half beyond a bound keep to the bound. -/
theorem le_of_lt_add_half {left right : Nat} (close : (left : ℚ) < right + 1 / 2) :
    left ≤ right := by
  by_contra above
  have next : ((right + 1 : Nat) : ℚ) ≤ left := by
    exact_mod_cast Nat.lt_of_not_le above
  push_cast at next
  linarith

/-- On the grid, no quotient has its leading digit too far behind the point. -/
theorem le_leading_of_grid {count : Nat} {leading : Int} {quotient : ℚ}
    (grid : (10 : ℚ) ^ ((count : Int) - finestPlace - 1) ≤ quotient)
    (below : quotient < 10 ^ (leading + 1)) : (count : Int) ≤ leading + finestPlace + 1 := by
  have exponents := lt_of_le_of_lt grid below
  rw [zpow_lt_zpow_iff_right₀ (by norm_num)] at exponents
  omega

/-- Every quotient on the grid is rounded to a number with a full significand around it. -/
theorem nearest_covers {count num den : Nat} (positive : 0 < den) (someDigit : 0 < count)
    (grid : (10 : ℚ) ^ ((count : Int) - finestPlace - 1) ≤ num / den) :
    (nearest count num den).Full count ∧ (nearest count num den).Covers count (num / den) := by
  obtain ⟨leading, whole, least, below, above, before⟩ :=
    exists_leading (lt_of_lt_of_le (by positivity) grid) count
  rw [nearest_of_leading positive someDigit (le_leading_of_grid grid below) least below above
    before]
  have unitPos : (0 : ℚ) < 10 ^ (leading - count + 1) := by positivity
  have first := zpow_eq_steps leading someDigit
  have next := zpow_ten_succ leading
  have longer := pow_count someDigit
  have fullLow : 10 ^ (count - 1) ≤ whole := by
    refine le_of_lt_add_half (lt_of_mul_lt_mul_right ?_ unitPos.le)
    linarith
  have fullHigh : whole ≤ 10 ^ count := by
    refine le_of_lt_add_half ?_
    rw [longer]
    have scaled : (whole - 1 / 2) * (10 : ℚ) ^ (leading - count + 1) <
        (10 * 10 ^ (count - 1) : Nat) * 10 ^ (leading - count + 1) := by
      push_cast at first ⊢
      linarith
    linarith [lt_of_mul_lt_mul_right scaled unitPos.le]
  split
  · rename_i full
    have nextStep : (10 : ℚ) ^ (leading + 1 - count + 1) = 10 * 10 ^ (leading - count + 1) := by
      rw [← zpow_ten_succ]
      congr 1
      omega
    have positivePower : 0 < 10 ^ (count - 1) := ten_pow_pos _
    refine ⟨⟨le_rfl, by simp only; omega⟩, .inr ⟨rfl, below, ?_⟩⟩
    rw [full, longer] at above
    simp only [amount, step, nextStep]
    push_cast at above ⊢
    linarith
  · rename_i notFull
    refine ⟨⟨fullLow, lt_of_le_of_ne fullHigh notFull⟩, .inl ⟨least, ?_, ?_⟩⟩
    · simp only [amount, step]
      linarith
    · simp only [amount, step]
      linarith

/-- A quotient around a number, and not below its power of ten, is rounded to it. -/
theorem nearest_eq_of_around {count num den significand : Nat} {exponent : Int}
    (positive : 0 < den) (someDigit : 0 < count)
    (grid : (10 : ℚ) ^ ((count : Int) - finestPlace - 1) ≤ num / den)
    (short : significand < 10 ^ count) (least : (10 : ℚ) ^ exponent ≤ num / den)
    (above : (significand - 1 / 2) * (10 : ℚ) ^ (exponent - count + 1) ≤ num / den)
    (before : (num : ℚ) / den < (significand + 1 / 2) * 10 ^ (exponent - count + 1)) :
    nearest count num den = ⟨significand, exponent⟩ := by
  have unitPos : (0 : ℚ) < 10 ^ (exponent - count + 1) := by positivity
  have below : (num : ℚ) / den < 10 ^ (exponent + 1) := by
    have last : ((significand + 1 : Nat) : ℚ) ≤ (10 * 10 ^ (count - 1) : Nat) := by
      exact_mod_cast pow_count someDigit ▸ short
    have scaled := mul_le_mul_of_nonneg_right last unitPos.le
    rw [zpow_ten_succ, zpow_eq_steps exponent someDigit]
    push_cast at scaled ⊢
    linarith
  rw [nearest_of_leading positive someDigit (le_leading_of_grid grid below) least below above
    before, if_neg (Nat.ne_of_lt short)]

/-- A quotient that is less than half a small step below a power of ten is rounded to it. -/
theorem nearest_eq_of_below {count num den : Nat} {exponent : Int} (positive : 0 < den)
    (someDigit : 0 < count) (grid : (10 : ℚ) ^ ((count : Int) - finestPlace - 1) ≤ num / den)
    (below : (num : ℚ) / den < 10 ^ exponent)
    (above : (10 : ℚ) ^ exponent - 10 ^ (exponent - count + 1) / 20 ≤ num / den) :
    nearest count num den = ⟨10 ^ (count - 1), exponent⟩ := by
  obtain ⟨leading, rfl⟩ : ∃ leading : Int, exponent = leading + 1 := ⟨exponent - 1, by omega⟩
  have shifted : leading + 1 - count + 1 = leading - count + 1 + 1 := by omega
  have unitPos : (0 : ℚ) < 10 ^ (leading - count + 1) := by positivity
  have first := zpow_eq_steps leading someDigit
  have some : (1 : ℚ) ≤ (10 ^ (count - 1) : Nat) := by
    exact_mod_cast Nat.one_le_pow _ _ (Nat.succ_pos 9)
  have scaled := mul_le_mul_of_nonneg_right some unitPos.le
  rw [shifted, zpow_ten_succ, zpow_ten_succ] at above
  have least : (10 : ℚ) ^ leading ≤ num / den := by linarith
  have whole : ((10 ^ count : Nat) : ℚ) * 10 ^ (leading - count + 1) = 10 * 10 ^ leading := by
    rw [pow_count someDigit, first]
    push_cast
    ring
  have near : (((10 ^ count : Nat) : ℚ) - 1 / 2) * 10 ^ (leading - count + 1) ≤ num / den := by
    linarith
  have before : (num : ℚ) / den < ((10 ^ count : Nat) + 1 / 2) * 10 ^ (leading - count + 1) := by
    rw [zpow_ten_succ] at below
    linarith
  rw [nearest_of_leading positive someDigit (le_leading_of_grid grid below) least below near
    before, if_pos rfl]

/-- A number with a full significand is the one to which the quotients around it are rounded. -/
theorem nearest_eq_of_covers {count num den : Nat} (positive : 0 < den) (someDigit : 0 < count)
    (grid : (10 : ℚ) ^ ((count : Int) - finestPlace - 1) ≤ num / den) {number : Rounded}
    (full : number.Full count) (covers : number.Covers count (num / den)) :
    nearest count num den = number := by
  obtain ⟨significand, exponent⟩ := number
  obtain ⟨_, short⟩ := full
  simp only [Covers, amount, step] at covers short
  rcases covers with ⟨least, above, before⟩ | ⟨lowest, below, above⟩
  · refine nearest_eq_of_around positive someDigit grid short least ?_ ?_
    · linarith
    · linarith
  · rw [lowest, ← zpow_eq_steps exponent someDigit] at above
    rw [lowest]
    exact nearest_eq_of_below positive someDigit grid below above

/-- Which quotients on the grid are rounded to a number. -/
theorem nearest_eq_iff {count num den : Nat} (positive : 0 < den) (someDigit : 0 < count)
    (grid : (10 : ℚ) ^ ((count : Int) - finestPlace - 1) ≤ num / den) (number : Rounded) :
    nearest count num den = number ↔ number.Full count ∧ number.Covers count (num / den) := by
  constructor
  · rintro rfl
    exact nearest_covers positive someDigit grid
  · rintro ⟨full, covers⟩
    exact nearest_eq_of_covers positive someDigit grid full covers

section

variable {count : Nat} {number other : Rounded} {quotient : ℚ}

/-- A number whose digits are a one and zeros is a power of ten. -/
theorem amount_of_lowest (someDigit : 0 < count) (lowest : number.significand = 10 ^ (count - 1)) :
    number.amount count = 10 ^ number.exponent := by
  rw [amount, lowest, step, ← zpow_eq_steps number.exponent someDigit]

/-- A number lies between the powers of ten on both sides of it, the next one a step or more
away. -/
theorem amount_bounds (someDigit : 0 < count) (full : number.Full count) :
    10 ^ number.exponent ≤ number.amount count ∧
      number.amount count + number.step count ≤ 10 ^ (number.exponent + 1) := by
  have unitPos := number.step_pos count
  have first : (10 : ℚ) ^ number.exponent = (10 ^ (count - 1) : Nat) * number.step count :=
    zpow_eq_steps number.exponent someDigit
  have least : ((10 ^ (count - 1) : Nat) : ℚ) ≤ number.significand := by exact_mod_cast full.1
  have last : ((number.significand + 1 : Nat) : ℚ) ≤ (10 * 10 ^ (count - 1) : Nat) := by
    exact_mod_cast pow_count someDigit ▸ full.2
  have lower := mul_le_mul_of_nonneg_right least unitPos.le
  have upper := mul_le_mul_of_nonneg_right last unitPos.le
  rw [zpow_ten_succ, first]
  simp only [amount]
  push_cast at lower upper ⊢
  constructor <;> linarith

/-- Numbers of as many digits that have the same amount are the same. -/
theorem eq_of_amount_eq (someDigit : 0 < count) (full : number.Full count)
    (fullOther : other.Full count) (same : number.amount count = other.amount count) :
    number = other := by
  obtain ⟨least, last⟩ := amount_bounds someDigit full
  obtain ⟨leastOther, lastOther⟩ := amount_bounds someDigit fullOther
  have unitPos := number.step_pos count
  have unitPosOther := other.step_pos count
  have above := lt_of_le_of_lt least (same.trans_lt (lt_of_lt_of_le (by linarith) lastOther))
  have below := lt_of_le_of_lt leastOther (same.symm.trans_lt (lt_of_lt_of_le (by linarith) last))
  rw [zpow_lt_zpow_iff_right₀ (by norm_num)] at above below
  have exponents : number.exponent = other.exponent := by omega
  have steps : number.step count = other.step count := by rw [step, step, exponents]
  rw [amount, amount, steps, mul_left_inj' unitPosOther.ne'] at same
  obtain ⟨significand, exponent⟩ := number
  obtain ⟨significandOther, exponentOther⟩ := other
  simp only [Nat.cast_inj] at same exponents
  rw [same, exponents]

/-- The numbers whose amount is a power of ten. -/
theorem amount_eq_zpow_iff (someDigit : 0 < count) (full : number.Full count) (exponent : Int) :
    number.amount count = 10 ^ exponent ↔ number = ⟨10 ^ (count - 1), exponent⟩ := by
  have power := @amount_of_lowest count ⟨10 ^ (count - 1), exponent⟩ someDigit rfl
  have fullPower : Full count ⟨10 ^ (count - 1), exponent⟩ :=
    ⟨le_rfl, Nat.pow_lt_pow_right (by decide) (Nat.sub_lt someDigit Nat.one_pos)⟩
  constructor
  · intro same
    exact eq_of_amount_eq someDigit full fullPower (same.trans power.symm)
  · rintro rfl
    exact power

/-- The step of the last digit is no more than the unit of the first one. -/
theorem step_le (someDigit : 0 < count) (number : Rounded) :
    number.step count ≤ 10 ^ number.exponent :=
  zpow_le_zpow_right₀ (by norm_num) (by omega)

/-- A quotient lies below the number to which it is rounded by half a step at most. -/
theorem Covers.distance (someDigit : 0 < count) (covers : number.Covers count quotient) :
    |quotient - number.amount count| ≤ number.step count / 2 := by
  have unitPos := number.step_pos count
  rw [abs_le]
  rcases covers with ⟨_, above, before⟩ | ⟨lowest, below, above⟩
  · constructor <;> linarith
  · rw [amount_of_lowest someDigit lowest] at above ⊢
    constructor <;> linarith

/-- A quotient is hardly smaller than the power of ten at its exponent after rounding. -/
theorem Covers.lower (someDigit : 0 < count) (covers : number.Covers count quotient) :
    10 ^ number.exponent - number.step count / 20 ≤ quotient := by
  rcases covers with ⟨least, _, _⟩ | ⟨lowest, _, above⟩
  · linarith [number.step_pos count]
  · rwa [amount_of_lowest someDigit lowest] at above

/-- A quotient is smaller than the next power of ten. -/
theorem Covers.upper (someDigit : 0 < count) (full : number.Full count)
    (covers : number.Covers count quotient) : quotient < 10 ^ (number.exponent + 1) := by
  obtain ⟨_, last⟩ := amount_bounds someDigit full
  have unitPos := number.step_pos count
  rcases covers with ⟨_, _, before⟩ | ⟨_, below, _⟩
  · linarith
  · rw [zpow_ten_succ]
    have power : (0 : ℚ) < 10 ^ number.exponent := by positivity
    linarith

/-- What is no farther from a number than a quotient that is rounded to it, is rounded to it too,
unless it lies half a step above the number, or below a power of ten by more than the smaller
steps there allow. -/
theorem Covers.of_nearer (someDigit : 0 < count) (full : number.Full count)
    (covers : number.Covers count quotient) {other : ℚ}
    (nearer : |other - number.amount count| ≤ |quotient - number.amount count|)
    (noTie : other ≠ number.amount count + number.step count / 2)
    (smallStep : number.significand = 10 ^ (count - 1) → other < number.amount count →
      number.amount count - number.step count / 20 ≤ other) : number.Covers count other := by
  have unitPos := number.step_pos count
  have half := nearer.trans (covers.distance someDigit)
  obtain ⟨below, above⟩ := abs_le.mp half
  by_cases reached : 10 ^ number.exponent ≤ other
  · exact .inl ⟨reached, by linarith, lt_of_le_of_ne (by linarith) noTie⟩
  · have short := lt_of_not_ge reached
    have lowest : number.significand = 10 ^ (count - 1) := by
      by_contra higher
      have next : ((10 ^ (count - 1) + 1 : Nat) : ℚ) ≤ number.significand := by
        have := full.1
        exact_mod_cast (by omega : 10 ^ (count - 1) + 1 ≤ number.significand)
      have scaled := mul_le_mul_of_nonneg_right next unitPos.le
      have first : (10 : ℚ) ^ number.exponent = (10 ^ (count - 1) : Nat) * number.step count :=
        zpow_eq_steps number.exponent someDigit
      simp only [amount] at below
      push_cast at first scaled
      linarith
    refine .inr ⟨lowest, short, smallStep lowest ?_⟩
    rwa [amount_of_lowest someDigit lowest]

end

end Rounded
end PanelCalc.Decimal
