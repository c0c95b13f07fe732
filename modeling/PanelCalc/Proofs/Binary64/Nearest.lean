import Mathlib.Algebra.Order.Field.Rat
import Mathlib.Data.Nat.Prime.Basic
import Mathlib.Tactic.FieldSimp
import Mathlib.Tactic.GCongr
import Mathlib.Tactic.Linarith
import Mathlib.Tactic.Positivity
import Mathlib.Tactic.Ring
import PanelCalc.Binary64.Rounding

/-!
# Nearest magnitudes

Magnitude bits grow with the units that they stand for: `unitsOfBits_strictMono`. Those units are
the multiples of a power of two by at most `2 ^ 53`: `exists_unitsOfBits` and `lt_of_dvd_units`.
No magnitude lies nearer to a quotient than the one that `nearestBits` finds:
`nearestBits_nearest`.
-/

namespace PanelCalc.Binary64

theorem leadingBit_eq : leadingBit = 2 ^ 52 := rfl

/-- An exponent above the smallest one and a significand beside it. A full significand carries
into the exponent. -/
theorem unitsOfBits_place {exponent significand : Nat} (fits : significand ≤ 2 * leadingBit)
    (normal : exponent = 0 ∨ leadingBit ≤ significand) :
    unitsOfBits (exponent * leadingBit + significand) = significand * 2 ^ exponent := by
  unfold unitsOfBits
  split
  · rename_i small
    simp only [leadingBit_eq] at small ⊢
    have lowest : exponent = 0 := by
      by_contra positive
      have := Nat.mul_le_mul_right (2 ^ 52) (Nat.one_le_iff_ne_zero.mpr positive)
      omega
    simp [lowest]
  · rename_i large
    simp only [leadingBit_eq] at fits normal large ⊢
    have leading : 2 ^ 52 ≤ significand := by
      rcases normal with lowest | leading
      · simp only [lowest] at large
        omega
      · exact leading
    rw [Nat.shiftLeft_eq]
    rcases Nat.lt_or_ge significand (2 * 2 ^ 52) with short | full
    · have quotient : (exponent * 2 ^ 52 + significand) / 2 ^ 52 = exponent + 1 := by omega
      have rest : (exponent * 2 ^ 52 + significand) % 2 ^ 52 = significand - 2 ^ 52 := by omega
      rw [quotient, rest, Nat.add_sub_cancel, Nat.add_sub_cancel' leading]
    · have same : significand = 2 * 2 ^ 52 := Nat.le_antisymm fits full
      have quotient : (exponent * 2 ^ 52 + significand) / 2 ^ 52 = exponent + 2 := by omega
      have rest : (exponent * 2 ^ 52 + significand) % 2 ^ 52 = 0 := by omega
      rw [quotient, rest, same]
      change (2 ^ 52 + 0) * 2 ^ (exponent + 1) = _
      rw [Nat.pow_succ]
      omega

/-- Magnitude bits are made up of such an exponent and a significand of at most 53 bits. -/
theorem exists_place (bits : Nat) :
    ∃ exponent significand, bits = exponent * leadingBit + significand ∧
      significand < 2 * leadingBit ∧ (exponent = 0 ∨ leadingBit ≤ significand) := by
  refine ⟨bits / leadingBit - 1, bits - (bits / leadingBit - 1) * leadingBit, ?_⟩
  simp only [leadingBit_eq]
  refine ⟨?_, ?_, ?_⟩ <;> omega

/-- Magnitude bits grow with the magnitude. -/
theorem unitsOfBits_strictMono : StrictMono unitsOfBits := by
  refine strictMono_nat_of_lt_succ fun bits => ?_
  obtain ⟨exponent, significand, rfl, short, normal⟩ := exists_place bits
  rw [unitsOfBits_place (Nat.le_of_lt short) normal, Nat.add_assoc,
    unitsOfBits_place short (normal.imp_right Nat.le_succ_of_le)]
  exact Nat.mul_lt_mul_of_pos_right (Nat.lt_succ_self _) (Nat.two_pow_pos _)

/-- Only the lowest magnitude is zero. -/
theorem unitsOfBits_pos {bits : Nat} (nonzero : bits ≠ 0) : 0 < unitsOfBits bits := by
  have more : unitsOfBits 0 < unitsOfBits bits :=
    unitsOfBits_strictMono (Nat.pos_of_ne_zero nonzero)
  exact Nat.lt_of_le_of_lt (Nat.zero_le _) more

/-- A multiple of a power of two by at most `2 ^ 53` is a magnitude. -/
theorem exists_unitsOfBits {factor : Nat} (fits : factor ≤ 2 * leadingBit) (exponent : Nat) :
    ∃ bits, unitsOfBits bits = factor * 2 ^ exponent := by
  induction exponent generalizing factor with
  | zero => exact ⟨factor, by simpa using @unitsOfBits_place 0 factor fits (.inl rfl)⟩
  | succ exponent recurse =>
      by_cases leading : leadingBit ≤ factor
      · exact ⟨_, unitsOfBits_place fits (.inr leading)⟩
      · obtain ⟨bits, same⟩ := @recurse (2 * factor) (by omega)
        refine ⟨bits, ?_⟩
        rw [same, Nat.pow_succ]
        ring

/-- An odd factor of a magnitude has at most 53 bits. -/
theorem lt_of_dvd_units {factor bits : Nat} (odd : factor % 2 = 1)
    (positive : 0 < unitsOfBits bits) (divides : factor ∣ unitsOfBits bits) :
    factor < 2 * leadingBit := by
  obtain ⟨exponent, significand, rfl, short, normal⟩ := exists_place bits
  rw [unitsOfBits_place (Nat.le_of_lt short) normal] at positive divides
  have coprime : Nat.Coprime factor (2 ^ exponent) :=
    (Nat.coprime_two_right.mpr (Nat.odd_iff.mpr odd)).pow_right exponent
  have inside : factor ∣ significand := coprime.dvd_of_dvd_mul_right divides
  exact Nat.lt_of_le_of_lt (Nat.le_of_dvd (Nat.pos_of_mul_pos_right positive) inside) short

/-- A quotient is a whole number and a fraction below one. -/
theorem quotient_eq (num : Nat) {den : Nat} (positive : 0 < den) :
    (num : ℚ) / den = (num / den : Nat) + ((num % den : Nat) : ℚ) / den ∧
      0 ≤ ((num % den : Nat) : ℚ) / den ∧ ((num % den : Nat) : ℚ) / den < 1 := by
  have denominator : (0 : ℚ) < den := by exact_mod_cast positive
  refine ⟨?_, by positivity, ?_⟩
  · have whole : (num : ℚ) = (num / den : Nat) * den + (num % den : Nat) := by
      exact_mod_cast (Nat.div_add_mod' num den).symm
    field_simp
    linarith
  · rw [div_lt_one denominator]
    exact_mod_cast Nat.mod_lt num positive

/-- Which whole number a quotient is rounded to: the next lower one, or the next higher one. In the
middle between them it is the even one. -/
theorem halfEven_cases (num : Nat) {den : Nat} (positive : 0 < den) :
    (halfEven num den = num / den ∧
      (((num % den : Nat) : ℚ) / den < 1 / 2 ∨
        ((num % den : Nat) : ℚ) / den = 1 / 2 ∧ halfEven num den % 2 = 0)) ∨
    (halfEven num den = num / den + 1 ∧
      (1 / 2 < ((num % den : Nat) : ℚ) / den ∨
        ((num % den : Nat) : ℚ) / den = 1 / 2 ∧ halfEven num den % 2 = 0)) := by
  have denominator : (0 : ℚ) < den := by exact_mod_cast positive
  have less : ((num % den : Nat) : ℚ) / den < 1 / 2 ↔ 2 * (num % den) < den := by
    rw [div_lt_div_iff₀ denominator (by norm_num)]
    norm_cast
    omega
  have same : ((num % den : Nat) : ℚ) / den = 1 / 2 ↔ 2 * (num % den) = den := by
    rw [div_eq_div_iff denominator.ne' (by norm_num)]
    norm_cast
    omega
  have more : 1 / 2 < ((num % den : Nat) : ℚ) / den ↔ den < 2 * (num % den) := by
    rw [div_lt_div_iff₀ (by norm_num) denominator]
    norm_cast
    omega
  rw [less, same, more]
  unfold halfEven
  simp only [Bool.or_eq_true, Bool.and_eq_true, decide_eq_true_eq, beq_iff_eq]
  split <;> omega

/-- A quotient is at most half a unit away from the whole number to which it is rounded, and less
than that if this number is odd. -/
theorem abs_halfEven_sub (num : Nat) {den : Nat} (positive : 0 < den) :
    |(halfEven num den : ℚ) - num / den| < 1 / 2 ∨
      |(halfEven num den : ℚ) - num / den| = 1 / 2 ∧ halfEven num den % 2 = 0 := by
  obtain ⟨parts, nonnegative, below⟩ := quotient_eq num positive
  rcases halfEven_cases num positive with ⟨down, fraction⟩ | ⟨up, fraction⟩
  · have distance : |(halfEven num den : ℚ) - num / den| = ((num % den : Nat) : ℚ) / den := by
      rw [parts, down, sub_add_cancel_left, abs_neg, abs_of_nonneg nonnegative]
    rwa [distance]
  · have distance : |(halfEven num den : ℚ) - num / den| = 1 - ((num % den : Nat) : ℚ) / den := by
      rw [parts, up, abs_of_pos (by push_cast; linarith)]
      push_cast
      ring
    rw [distance]
    rcases fraction with more | ⟨half, even⟩
    · exact .inl (by linarith)
    · exact .inr ⟨by linarith, even⟩

theorem abs_halfEven_sub_le (num : Nat) {den : Nat} (positive : 0 < den) :
    |(halfEven num den : ℚ) - num / den| ≤ 1 / 2 := by
  rcases abs_halfEven_sub num positive with less | ⟨half, _⟩
  · exact less.le
  · exact half.le

/-- Two whole numbers are not both less than one half away from a quotient. -/
theorem one_le_abs_sub_add {whole other : Nat} (differ : whole ≠ other) (quotient : ℚ) :
    1 ≤ |(whole : ℚ) - quotient| + |(other : ℚ) - quotient| := by
  have apart : (1 : ℚ) ≤ |(whole : ℚ) - other| := by
    exact_mod_cast Int.one_le_abs (show (whole : Int) - other ≠ 0 by omega)
  have triangle := abs_sub_le (whole : ℚ) quotient other
  rw [abs_sub_comm quotient] at triangle
  exact apart.trans triangle

/-- No whole number is nearer than one at a distance of at most one half. -/
theorem abs_sub_le_of_half {whole : Nat} {quotient : ℚ}
    (half : |(whole : ℚ) - quotient| ≤ 1 / 2) (other : Nat) :
    |(whole : ℚ) - quotient| ≤ |(other : ℚ) - quotient| := by
  rcases eq_or_ne whole other with rfl | differ
  · exact le_rfl
  · linarith [one_le_abs_sub_add differ quotient]

/-- No other whole number is as near as one at a distance below one half. -/
theorem eq_of_abs_sub_eq {whole other : Nat} {quotient : ℚ}
    (near : |(whole : ℚ) - quotient| < 1 / 2)
    (tie : |(whole : ℚ) - quotient| = |(other : ℚ) - quotient|) : whole = other := by
  by_contra differ
  linarith [one_le_abs_sub_add differ quotient]

/-- Rounding goes down or up to the next whole number. -/
theorem halfEven_bounds (num den : Nat) :
    num / den ≤ halfEven num den ∧ halfEven num den ≤ num / den + 1 := by
  unfold halfEven
  simp only
  split <;> omega

/-- At the exponent for a whole number, that number has a significand of at most 53 bits, and of
no fewer unless the exponent is the smallest one. -/
theorem exponentFor_spec (whole : Nat) :
    whole / 2 ^ exponentFor whole < 2 * leadingBit ∧
      (exponentFor whole = 0 ∨ leadingBit ≤ whole / 2 ^ exponentFor whole) := by
  have above : whole < 2 ^ (whole.log2 + 1) := Nat.lt_log2_self
  rw [Nat.div_lt_iff_lt_mul (Nat.two_pow_pos _), Nat.le_div_iff_mul_le (Nat.two_pow_pos _)]
  have places : whole.log2 + 1 ≤ exponentFor whole + 53 := by
    simp only [exponentFor]
    omega
  refine ⟨?_, ?_⟩
  · calc whole < 2 ^ (whole.log2 + 1) := above
      _ ≤ 2 ^ (exponentFor whole + 53) := Nat.pow_le_pow_right (by decide) places
      _ = 2 * leadingBit * 2 ^ exponentFor whole := by rw [Nat.pow_add, Nat.mul_comm]; rfl
  · by_cases lowest : exponentFor whole = 0
    · exact .inl lowest
    · have places : exponentFor whole + 52 = whole.log2 := by
        simp only [exponentFor] at lowest ⊢
        omega
      have nonzero : whole ≠ 0 := by
        rintro rfl
        exact lowest rfl
      refine .inr ?_
      calc leadingBit * 2 ^ exponentFor whole
          = 2 ^ (exponentFor whole + 52) := by rw [Nat.pow_add, Nat.mul_comm]; rfl
        _ ≤ whole := places ▸ Nat.log2_self_le nonzero

/-- The distance of a multiple of a power of two from a quotient, in multiples of that power. -/
theorem abs_multiple_sub (num : Nat) {den : Nat} (positive : 0 < den) (exponent factor : Nat) :
    |((factor * 2 ^ exponent : Nat) : ℚ) - num / den| =
      |(factor : ℚ) - num / (den * 2 ^ exponent : Nat)| * 2 ^ exponent := by
  have nonzero : (den : ℚ) ≠ 0 := Nat.cast_ne_zero.mpr positive.ne'
  rw [← abs_of_pos (show (0 : ℚ) < 2 ^ exponent by positivity), ← abs_mul]
  congr 1
  push_cast
  field_simp

/-- Among the multiples of a power of two, the rounded one is nearest to a quotient, and if another
one is as near, it is an even multiple. -/
theorem halfEven_nearest (num : Nat) {den : Nat} (positive : 0 < den) (exponent factor : Nat) :
    |((halfEven num (den * 2 ^ exponent) * 2 ^ exponent : Nat) : ℚ) - num / den| ≤
        |((factor * 2 ^ exponent : Nat) : ℚ) - num / den| ∧
      (|((halfEven num (den * 2 ^ exponent) * 2 ^ exponent : Nat) : ℚ) - num / den| =
          |((factor * 2 ^ exponent : Nat) : ℚ) - num / den| →
        halfEven num (den * 2 ^ exponent) = factor ∨
          halfEven num (den * 2 ^ exponent) % 2 = 0) := by
  have scaled := Nat.mul_pos positive (Nat.two_pow_pos exponent)
  have power : (0 : ℚ) < 2 ^ exponent := by positivity
  rw [abs_multiple_sub num positive, abs_multiple_sub num positive]
  refine ⟨?_, fun tie => ?_⟩
  · have half := abs_halfEven_sub_le num scaled
    exact mul_le_mul_of_nonneg_right (abs_sub_le_of_half half factor) power.le
  · rcases abs_halfEven_sub num scaled with near | ⟨_, even⟩
    · exact .inl (eq_of_abs_sub_eq near (mul_right_cancel₀ power.ne' tie))
    · exact .inr even

/-- A quotient whose significand has a leading bit reaches that bit. -/
theorem leading_le_quotient {num den exponent : Nat} (positive : 0 < den)
    (leading : leadingBit ≤ num / den / 2 ^ exponent) :
    ((leadingBit * 2 ^ exponent : Nat) : ℚ) ≤ num / den := by
  have reached := (Nat.le_div_iff_mul_le (Nat.two_pow_pos _)).mp leading
  rw [le_div_iff₀ (Nat.cast_pos.mpr positive)]
  exact_mod_cast (Nat.le_div_iff_mul_le positive).mp reached

/-- A magnitude of a smaller exponent lies below the leading bit at a larger one. -/
theorem place_le_leading {lower exponent significand : Nat} (short : significand < 2 * leadingBit)
    (below : lower < exponent) : significand * 2 ^ lower ≤ leadingBit * 2 ^ exponent :=
  calc significand * 2 ^ lower
      ≤ 2 * leadingBit * 2 ^ lower := Nat.mul_le_mul_right _ (Nat.le_of_lt short)
    _ = leadingBit * 2 ^ (lower + 1) := by rw [Nat.pow_succ]; ring
    _ ≤ leadingBit * 2 ^ exponent :=
      Nat.mul_le_mul_left _ (Nat.pow_le_pow_right (Nat.succ_pos 1) below)

/-- Every magnitude is as far from a quotient as some multiple of the power of two at which the
quotient is rounded, or farther if it is no such multiple. -/
theorem exists_multiple_nearer {num den exponent : Nat} (positive : 0 < den)
    (normal : exponent = 0 ∨ leadingBit ≤ num / den / 2 ^ exponent) (other : Nat) :
    ∃ factor : Nat,
      |((factor * 2 ^ exponent : Nat) : ℚ) - num / den| < |(unitsOfBits other : ℚ) - num / den| ∨
        factor * 2 ^ exponent = unitsOfBits other := by
  obtain ⟨otherExponent, significand, rfl, short, otherNormal⟩ := exists_place other
  rw [unitsOfBits_place (Nat.le_of_lt short) otherNormal]
  rcases Nat.lt_or_ge otherExponent exponent with below | above
  · -- A smaller exponent lies below the leading bit, which the quotient reaches.
    have reached := leading_le_quotient positive (normal.resolve_left (by omega))
    refine ⟨leadingBit, ?_⟩
    rcases (place_le_leading short below).eq_or_lt with same | lower
    · exact .inr same.symm
    · left
      have lower : ((significand * 2 ^ otherExponent : Nat) : ℚ) <
          (leadingBit * 2 ^ exponent : Nat) := Nat.cast_lt.mpr lower
      rw [abs_of_nonpos (by linarith), abs_of_nonpos (by linarith)]
      linarith
  · refine ⟨significand * 2 ^ (otherExponent - exponent), .inr ?_⟩
    rw [Nat.mul_assoc, ← Nat.pow_add, Nat.sub_add_cancel above]

/-- What `nearestBits` finds before it is limited to infinity: no magnitude is nearer, and if another
one is as near, the one found is even. -/
theorem exists_nearest (num : Nat) {den : Nat} (positive : 0 < den) :
    ∃ bits, nearestBits num den = min bits infinityBits ∧ ∀ other,
      |(unitsOfBits bits : ℚ) - num / den| ≤ |(unitsOfBits other : ℚ) - num / den| ∧
      (|(unitsOfBits bits : ℚ) - num / den| = |(unitsOfBits other : ℚ) - num / den| →
        unitsOfBits bits = unitsOfBits other ∨ bits % 2 = 0) := by
  obtain ⟨short, normal⟩ := exponentFor_spec (num / den)
  refine ⟨_, rfl, fun other => ?_⟩
  generalize exponentFor (num / den) = exponent at short normal ⊢
  have scaled := halfEven_nearest num positive exponent
  have bounds := halfEven_bounds num (den * 2 ^ exponent)
  rw [Nat.shiftLeft_eq]
  rw [← Nat.div_div_eq_div_mul] at bounds
  generalize halfEven num (den * 2 ^ exponent) = significand at bounds scaled ⊢
  rw [unitsOfBits_place (by omega) (by omega)]
  obtain ⟨factor, nearer | same⟩ := exists_multiple_nearer positive normal other
  · have strict := (scaled factor).1.trans_lt nearer
    exact ⟨strict.le, fun tie => absurd tie strict.ne⟩
  · rw [← same]
    refine ⟨(scaled factor).1, fun tie => ?_⟩
    rcases (scaled factor).2 tie with rfl | even
    · exact .inl rfl
    · right
      simp only [leadingBit]
      omega

/-- To every quotient of at least `leadingBit` units there is a magnitude that differs from it by
at most one part in `2 ^ 53`. -/
theorem exists_close {num den : Nat} (positive : 0 < den) (normal : leadingBit ≤ num / den) :
    ∃ bits, |(unitsOfBits bits : ℚ) - num / den| ≤ num / den / (2 * leadingBit) := by
  obtain ⟨short, leading⟩ := exponentFor_spec (num / den)
  generalize exponentFor (num / den) = exponent at short leading
  have reached : leadingBit ≤ num / den / 2 ^ exponent := by
    rcases leading with rfl | leading
    · simpa using normal
    · exact leading
  have quotient := leading_le_quotient positive reached
  have half := abs_halfEven_sub_le num (Nat.mul_pos positive (Nat.two_pow_pos exponent))
  have bounds := halfEven_bounds num (den * 2 ^ exponent)
  rw [← Nat.div_div_eq_div_mul] at bounds
  refine ⟨exponent * leadingBit + halfEven num (den * 2 ^ exponent), ?_⟩
  rw [unitsOfBits_place (by omega) (.inr (by omega)), abs_multiple_sub num positive]
  have power : (0 : ℚ) < 2 ^ exponent := by positivity
  have leadingPos : (0 : ℚ) < 2 * leadingBit := by rw [leadingBit_eq]; norm_num
  push_cast at quotient half ⊢
  rw [le_div_iff₀ leadingPos]
  calc |(halfEven num (den * 2 ^ exponent) : ℚ) - num / (den * 2 ^ exponent)| * 2 ^ exponent *
        (2 * leadingBit)
      ≤ 1 / 2 * 2 ^ exponent * (2 * leadingBit) := by gcongr
    _ = leadingBit * 2 ^ exponent := by ring
    _ ≤ num / den := quotient

/-- No magnitude is nearer to a quotient than the one found, if that one is finite, and if another
one is as near, the one found is even. -/
theorem nearestBits_nearest {num den : Nat} (positive : 0 < den)
    (bounded : nearestBits num den < infinityBits) (other : Nat) :
    |(unitsOfBits (nearestBits num den) : ℚ) - num / den| ≤
        |(unitsOfBits other : ℚ) - num / den| ∧
      (|(unitsOfBits (nearestBits num den) : ℚ) - num / den| =
          |(unitsOfBits other : ℚ) - num / den| →
        unitsOfBits (nearestBits num den) = unitsOfBits other ∨ nearestBits num den % 2 = 0) := by
  obtain ⟨bits, found, nearest⟩ := exists_nearest num positive
  have same : nearestBits num den = bits := by omega
  rw [same]
  exact nearest other

/-- The magnitude bits of the largest finite number. -/
def largestBits : Nat := infinityBits - 1

/-- The magnitude found for a quotient is finite just when the quotient lies below the middle between
the largest finite magnitude and the next one, which would be even. -/
theorem nearestBits_lt_infinityBits_iff {num den : Nat} (positive : 0 < den) :
    nearestBits num den < infinityBits ↔
      2 * ((num : ℚ) / den) < unitsOfBits largestBits + unitsOfBits infinityBits := by
  obtain ⟨bits, found, nearest⟩ := exists_nearest num positive
  have limited : nearestBits num den < infinityBits ↔ bits < infinityBits := by omega
  have step : (unitsOfBits largestBits : ℚ) < unitsOfBits infinityBits := by
    exact_mod_cast unitsOfBits_strictMono (by decide)
  rw [limited]
  constructor
  · intro bounded
    by_contra beyond
    have atMost : bits ≤ largestBits := Nat.le_sub_one_of_lt bounded
    have below : (unitsOfBits bits : ℚ) ≤ unitsOfBits largestBits := by
      exact_mod_cast unitsOfBits_strictMono.monotone atMost
    obtain ⟨near, tie⟩ := nearest infinityBits
    rw [abs_of_nonpos (by linarith)] at near tie
    rcases le_abs'.mp near with far | far
    · linarith
    · have same : (unitsOfBits bits : ℚ) = unitsOfBits largestBits := by linarith
      have isLargest : bits = largestBits :=
        unitsOfBits_strictMono.injective (by exact_mod_cast same)
      have odd : largestBits % 2 = 1 := by decide
      rcases tie (by rw [abs_of_nonneg] <;> linarith) with isInfinity | even
      · rw [← isInfinity] at step
        linarith
      · omega
  · intro inRange
    by_contra infinite
    have above : (unitsOfBits infinityBits : ℚ) ≤ unitsOfBits bits := by
      exact_mod_cast unitsOfBits_strictMono.monotone (Nat.le_of_not_lt infinite)
    have near := (nearest largestBits).1
    rw [abs_of_nonneg (by linarith)] at near
    rcases le_abs'.mp near with far | far <;> linarith

/-- The number that magnitude bits stand for. -/
def amountOfBits (bits : Nat) : ℚ := unitsOfBits bits / unitsPerOne

/-- How many binary places behind the point the smallest positive number lies. -/
def binaryPlaces : Nat := 1074

theorem unitsPerOne_eq : unitsPerOne = 2 ^ binaryPlaces := Nat.one_shiftLeft binaryPlaces

theorem unitsPerOne_pos : (0 : ℚ) < unitsPerOne :=
  Nat.cast_pos.mpr (unitsPerOne_eq ▸ Nat.two_pow_pos _)

/-- Magnitude bits grow with the amount too. -/
theorem amountOfBits_strictMono : StrictMono amountOfBits := by
  intro lower upper below
  refine div_lt_div_of_pos_right ?_ unitsPerOne_pos
  exact_mod_cast unitsOfBits_strictMono below

theorem amountOfBits_nonneg (bits : Nat) : 0 ≤ amountOfBits bits := by
  unfold amountOfBits
  positivity

theorem amountOfBits_eq_zero_iff {bits : Nat} : amountOfBits bits = 0 ↔ bits = 0 := by
  have zero : amountOfBits 0 = 0 := by simp [amountOfBits, unitsOfBits, leadingBit]
  rw [← zero]
  exact amountOfBits_strictMono.injective.eq_iff

/-- A positive number consists of units. -/
theorem unitsOfBits_pos_of_amount {bits : Nat} (positive : 0 < amountOfBits bits) :
    0 < unitsOfBits bits := by
  rw [amountOfBits, div_pos_iff_of_pos_right unitsPerOne_pos] at positive
  exact_mod_cast positive

/-- A whole multiple of a power of two by at most `2 ^ 53` is a magnitude. -/
theorem exists_amountOfBits {factor : Nat} (fits : factor ≤ 2 * leadingBit) (exponent : Nat) :
    ∃ bits, amountOfBits bits = factor * 2 ^ exponent := by
  obtain ⟨bits, same⟩ := exists_unitsOfBits fits (exponent + binaryPlaces)
  refine ⟨bits, ?_⟩
  have moved : factor * 2 ^ (exponent + binaryPlaces) = factor * 2 ^ exponent * unitsPerOne := by
    rw [Nat.pow_add, unitsPerOne_eq, Nat.mul_assoc]
  rw [amountOfBits, div_eq_iff unitsPerOne_pos.ne', same, moved]
  push_cast
  rfl

/-- The distance between a magnitude and a quotient, in ones. -/
theorem abs_amountOfBits_sub (num bits : Nat) {den : Nat} (positive : 0 < den) :
    |amountOfBits bits - num / den| =
      |(unitsOfBits bits : ℚ) - (num * unitsPerOne : Nat) / den| / unitsPerOne := by
  have unit := unitsPerOne_pos
  have nonzero : (den : ℚ) ≠ 0 := Nat.cast_ne_zero.mpr positive.ne'
  rw [amountOfBits, ← abs_of_pos unit, ← abs_div, abs_of_pos unit]
  congr 1
  push_cast
  field_simp

/-- To every number that is not too small there is a magnitude that differs from it by at most one
part in `2 ^ 53`. -/
theorem exists_amount_close {num den : Nat} (positive : 0 < den)
    (normal : leadingBit ≤ num * unitsPerOne / den) :
    ∃ bits, |amountOfBits bits - num / den| ≤ num / den / (2 * leadingBit) := by
  obtain ⟨bits, close⟩ := exists_close positive normal
  have unit := unitsPerOne_pos
  refine ⟨bits, ?_⟩
  rw [abs_amountOfBits_sub num bits positive, div_le_iff₀ unit]
  refine close.trans_eq ?_
  push_cast
  ring

/-- Where the numbers begin that are too large to be read as finite: in the middle between the largest
finite number and the next power of two. -/
def rangeEnd : ℚ := 2 ^ 1024 - 2 ^ 970

/-- A power of two below `2 ^ 1024` is not too large. -/
theorem two_pow_lt_rangeEnd {exponent : Nat} (small : exponent ≤ 1023) :
    (2 : ℚ) ^ exponent < rangeEnd := by
  have power : (2 : ℚ) ^ exponent ≤ 2 ^ 1023 := pow_le_pow_right₀ (by norm_num) small
  have less : (2 : ℚ) ^ 970 < 2 ^ 1023 := pow_lt_pow_right₀ (by norm_num) (by norm_num)
  rw [rangeEnd, pow_succ' 2 1023, two_mul, lt_sub_iff_add_lt]
  exact add_lt_add_of_le_of_lt power less

/-- The range ends in the middle between the largest finite magnitude and the next one. -/
theorem largest_add_infinity :
    (unitsOfBits largestBits : ℚ) + unitsOfBits infinityBits = 2 * rangeEnd * unitsPerOne := by
  have middle : unitsOfBits largestBits + unitsOfBits infinityBits + 2 * 2 ^ 970 * unitsPerOne =
      2 * 2 ^ 1024 * unitsPerOne := by decide +kernel
  have subtracted : ∀ largest next low high unit : Nat,
      largest + next + 2 * low * unit = 2 * high * unit →
        (largest : ℚ) + next = 2 * ((high : ℚ) - low) * unit := by
    intro largest next low high unit sum
    have cast := congrArg (Nat.cast : Nat → ℚ) sum
    push_cast at cast
    linarith
  simpa only [rangeEnd, Nat.cast_pow, Nat.cast_ofNat] using subtracted _ _ _ _ _ middle

/-- The magnitude found for a number is finite just when the number is not too large. -/
theorem nearestBits_units_lt_iff {num den : Nat} (positive : 0 < den) :
    nearestBits (num * unitsPerOne) den < infinityBits ↔ (num : ℚ) / den < rangeEnd := by
  have scaled : 2 * (((num * unitsPerOne : Nat) : ℚ) / den) = 2 * (num / den) * unitsPerOne := by
    push_cast
    ring
  rw [nearestBits_lt_infinityBits_iff positive, largest_add_infinity, scaled,
    mul_lt_mul_iff_left₀ unitsPerOne_pos, mul_lt_mul_iff_right₀ (by norm_num)]

/-- The magnitude found for a number that is not too large is finite. None is nearer to the number,
and if another one is as near, the one found is even. -/
theorem nearestBits_amount {num den : Nat} (positive : 0 < den)
    (inRange : (num : ℚ) / den < rangeEnd) :
    nearestBits (num * unitsPerOne) den < infinityBits ∧ ∀ other,
      |amountOfBits (nearestBits (num * unitsPerOne) den) - num / den| ≤
          |amountOfBits other - num / den| ∧
        (|amountOfBits (nearestBits (num * unitsPerOne) den) - num / den| =
            |amountOfBits other - num / den| →
          nearestBits (num * unitsPerOne) den = other ∨
            nearestBits (num * unitsPerOne) den % 2 = 0) := by
  have unit := unitsPerOne_pos
  have bounded := (nearestBits_units_lt_iff positive).mpr inRange
  refine ⟨bounded, fun other => ?_⟩
  obtain ⟨near, tie⟩ := nearestBits_nearest positive bounded other
  rw [abs_amountOfBits_sub num _ positive, abs_amountOfBits_sub num _ positive]
  refine ⟨div_le_div_of_nonneg_right near unit.le, fun same => ?_⟩
  rcases tie ((div_left_inj' unit.ne').mp same) with isOther | even
  · exact .inl (unitsOfBits_strictMono.injective isOther)
  · exact .inr even

end PanelCalc.Binary64
