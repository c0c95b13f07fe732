import PanelCalc.Proofs.Decimal.Notation
import PanelCalc.Proofs.Decimal.Reads

/-!
# Reading displayed numbers again

When the number that a displayed text is read as is displayed by the same text:
`display_again_iff`. It is not if the text lies past the finite range. Nor is it if the text is a
power of ten with an exponent and is read as a number that falls short of the power: below it the
steps are smaller, so that another decimal number is closer.
-/

namespace PanelCalc.Decimal

open Binary64 (amountOfBits amountOfBits_strictMono isFinite isNegative isZero magnitudeBits
  ofMagnitude rangeEnd unitsOfBits unitsPerOne)

/-- Whether a power of ten that is written with an exponent is read as a number below it by more
than half of the step there, which is a tenth of the step of the power's sixteenth digit. -/
def FallsShort (size reading : ℚ) : Prop :=
  ∃ exponent : Int, (exponent < leastFixedExponent ∨ extremeDigits ≤ exponent) ∧
    size = 10 ^ exponent ∧ reading < size - 10 ^ (exponent - 15) / 20

namespace Rounded

variable {count bits found : Nat} {number : Rounded}

/-- The nearest magnitude to a displayed number is not zero. -/
theorem pos_of_nearest (someDigit : 0 < count) (full : number.Full count)
    (covers : number.Covers count (amountOfBits bits))
    (nearest : Nearest found (number.amount count)) : 0 < unitsOfBits found := by
  have distance := (abs_le.mp ((nearest bits).trans (covers.distance someDigit))).1
  have least := (amount_bounds someDigit full).1
  have unit := step_le someDigit number
  have power : (0 : ℚ) < 10 ^ number.exponent := by positivity
  exact Binary64.unitsOfBits_pos_of_amount (by linarith)

/-- The nearest magnitude to a very small number is very small. -/
theorem small_of_nearest (covers : number.Covers extremeDigits (amountOfBits bits))
    (small : bits < smallBits) (nearest : Nearest found (number.amount extremeDigits)) :
    found < smallBits := by
  by_contra large
  have least := le_amountOfBits_smallBits.trans
    (amountOfBits_strictMono.monotone (Nat.le_of_not_lt large))
  have before := amountOfBits_lt_of_lt_smallBits small
  have close := covers.distance extremeDigits_pos
  have distance := (abs_le.mp ((nearest bits).trans close)).2
  have unit : number.step extremeDigits ≤ 10 ^ (-22 : Int) := by
    have exponent := exponent_lt_of_small covers small
    simp only [leastFixedExponent] at exponent
    refine zpow_le_zpow_right₀ (by norm_num) ?_
    simp only [extremeDigits]
    omega
  linarith [(abs_le.mp close).1]

/-- No magnitude lies half a step above a number whose digits end before the point: it would have
too long an odd factor. -/
theorem amount_ne_tie_of_long (full : number.Full extremeDigits)
    (long : (extremeDigits : Int) ≤ number.exponent) :
    amountOfBits bits ≠ number.amount extremeDigits + number.step extremeDigits / 2 := by
  intro tie
  obtain ⟨places, exponent⟩ : ∃ places : Nat,
      number.exponent - extremeDigits + 1 = (places + 1 : Nat) :=
    ⟨(number.exponent - extremeDigits).toNat, by omega⟩
  have unit : number.step extremeDigits = 2 * 2 ^ places * 5 ^ (places + 1) := by
    rw [step, exponent, zpow_natCast, ← pow_succ', ← mul_pow]
    norm_num
  have units : unitsOfBits bits =
      (2 * number.significand + 1) * 5 ^ (places + 1) * (2 ^ places * unitsPerOne) := by
    rw [amountOfBits, div_eq_iff Binary64.unitsPerOne_pos.ne', amount, unit] at tie
    have scaled : (unitsOfBits bits : ℚ) =
        (2 * number.significand + 1) * 5 ^ (places + 1) * (2 ^ places * unitsPerOne) := by
      rw [tie]
      ring
    exact_mod_cast scaled
  have odd : Odd ((2 * number.significand + 1) * 5 ^ (places + 1)) :=
    (odd_two_mul_add_one _).mul (Odd.pow (by decide))
  have positive : 0 < unitsOfBits bits := by
    rw [units, Binary64.unitsPerOne_eq]
    positivity
  have short := Binary64.lt_of_dvd_units (Nat.odd_iff.mp odd) positive ⟨_, units⟩
  have five : 5 ^ 1 ≤ 5 ^ (places + 1) := Nat.pow_le_pow_right (by decide) (Nat.succ_pos places)
  have many : 10 ^ 15 ≤ number.significand := full.1
  have long := Nat.mul_le_mul (show 2 * 10 ^ 15 + 1 ≤ 2 * number.significand + 1 by omega) five
  simp only [Binary64.leadingBit] at short
  omega

/-- A number that is displayed with an exponent is displayed again for the magnitude nearest to it,
unless that one falls short of it. -/
theorem rounded_of_exponential_iff (full : number.Full extremeDigits)
    (covers : number.Covers extremeDigits (amountOfBits bits))
    (exponential : number.exponent < leastFixedExponent ∨ extremeDigits ≤ number.exponent)
    (nearest : Nearest found (number.amount extremeDigits))
    (same : displayDigits (unitsOfBits found) = extremeDigits) :
    rounded (unitsOfBits found) = number ↔
      ¬FallsShort (number.amount extremeDigits) (amountOfBits found) := by
  have unit : number.step extremeDigits = 10 ^ (number.exponent - 15) := by
    simp only [step, extremeDigits]
    congr 1
    omega
  rw [rounded_eq_iff (pos_of_nearest extremeDigits_pos full covers nearest), same]
  constructor
  · rintro ⟨_, again⟩ ⟨exponent, _, power, short⟩
    have lower := again.lower extremeDigits_pos
    have place : number.exponent = exponent := by
      rw [(amount_eq_zpow_iff extremeDigits_pos full exponent).mp power]
    rw [unit, place] at lower
    rw [power] at short
    exact absurd short (not_lt.mpr lower)
  · intro holds
    refine ⟨full, covers.of_nearer extremeDigits_pos full (nearest bits) ?_ fun lowest _ => ?_⟩
    · rcases Int.lt_or_le number.exponent extremeDigits with short | long
      · exact amount_ne_tie extremeDigits_pos full covers short nearest
      · exact amount_ne_tie_of_long full long
    · rw [unit]
      by_contra short
      exact holds ⟨number.exponent, exponential, amount_of_lowest extremeDigits_pos lowest,
        not_le.mp short⟩

end Rounded

/-- The figures of a magnitude other than zero denote the number that is displayed for it. -/
theorem denoted_figuresOfBits {bits : Nat} (positive : 0 < unitsOfBits bits) (negative : Bool) :
    denoted? (figuresOfBits negative bits).text = some (signed negative (shownAmount bits)) := by
  obtain ⟨full, _⟩ := (Rounded.rounded_eq_iff positive _).mp rfl
  have someDigit := displayDigits_pos (unitsOfBits bits)
  have digital := Rounded.digital_figures negative someDigit (rounded (unitsOfBits bits))
  rw [figuresOfBits, digital.denoted_text, Rounded.negative_figures,
    Rounded.size_figures someDigit full]
  rfl

/-- What is displayed for a number other than zero denotes the number that is shown for its
magnitude, with its sign. -/
theorem denoted_display {value : Float} (bounded : isFinite value = true)
    (nonzero : magnitudeBits value ≠ 0) :
    denoted? (display value).toList =
      some (signed (isNegative value) (shownAmount (magnitudeBits value))) := by
  rw [display_eq_text bounded nonzero, String.toList_ofList,
    denoted_figuresOfBits (Binary64.unitsOfBits_pos nonzero)]

/-- Which of the magnitudes nearest to a displayed number are displayed as the same text. -/
theorem text_figuresOfBits_iff {bits found : Nat} (positive : 0 < unitsOfBits bits)
    (nearest : Nearest found (shownAmount bits)) :
    0 < unitsOfBits found ∧ ∀ negative,
      ((figuresOfBits negative found).text = (figuresOfBits negative bits).text ↔
        ¬FallsShort (shownAmount bits) (amountOfBits found)) := by
  obtain ⟨full, covers⟩ := (Rounded.rounded_eq_iff positive _).mp rfl
  have someDigit := displayDigits_pos (unitsOfBits bits)
  have exponents := exponential_rounded_iff positive
  by_cases exponential : bits < smallBits ∨ 10 ^ 16 ≤ amountOfBits bits
  · -- The nearest magnitude is very small or very large too, so both have 16 digits.
    have digits : displayDigits (unitsOfBits bits) = extremeDigits := by
      rcases exponential with small | long
      · exact displayDigits_of_small small
      · exact displayDigits_of_large (le_trans (by norm_num) long)
    have written := exponents.mpr exponential
    have some := Rounded.pos_of_nearest someDigit full covers nearest
    rw [shownAmount] at nearest ⊢
    rw [digits] at full covers written nearest ⊢
    have same : displayDigits (unitsOfBits found) = extremeDigits := by
      rcases exponential with small | long
      · exact displayDigits_of_small (Rounded.small_of_nearest covers small nearest)
      · have large : 10 ^ 10 ≤ amountOfBits bits := le_trans (by norm_num) long
        exact displayDigits_of_large (Rounded.large_of_nearest full covers large nearest)
    refine ⟨some, fun negative => ?_⟩
    rw [← Rounded.rounded_of_exponential_iff full covers written nearest same]
    constructor
    · intro texts
      have denoted := denoted_figuresOfBits some negative
      rw [texts, denoted_figuresOfBits positive negative, Option.some_inj, signed_inj] at denoted
      obtain ⟨fullAgain, _⟩ := (Rounded.rounded_eq_iff some _).mp rfl
      rw [shownAmount, shownAmount, digits, same] at denoted
      rw [same] at fullAgain
      exact Rounded.eq_of_amount_eq extremeDigits_pos fullAgain full denoted.symm
    · intro again
      rw [figuresOfBits, figuresOfBits, again, same, digits]
  · obtain ⟨fixed, short⟩ := not_or.mp (fun written => exponential (exponents.mp written))
    obtain ⟨some, again⟩ :=
      figuresOfBits_of_nearest positive (Int.not_lt.mp fixed) (Int.not_le.mp short) nearest
    refine ⟨some, fun negative => iff_of_true (by rw [again]) ?_⟩
    rintro ⟨exponent, written, power, _⟩
    have place : (rounded (unitsOfBits bits)).exponent = exponent := by
      rw [(Rounded.amount_eq_zpow_iff someDigit full exponent).mp power]
    have few := displayDigits_le (unitsOfBits bits)
    omega

theorem shownAmount_pos {bits : Nat} (positive : 0 < unitsOfBits bits) : 0 < shownAmount bits := by
  obtain ⟨full, _⟩ := (Rounded.rounded_eq_iff positive _).mp rfl
  exact lt_of_lt_of_le (by positivity) (Rounded.amount_bounds (displayDigits_pos _) full).1

theorem FallsShort.pos {size reading : ℚ} (short : FallsShort size reading) : 0 < size := by
  obtain ⟨exponent, _, power, _⟩ := short
  rw [power]
  positivity

/-- When a reading of the number that is displayed for another one is displayed by its text. -/
theorem display_eq_iff_of_reads {value again : Float} (bounded : isFinite value = true)
    (nonzero : magnitudeBits value ≠ 0)
    (reads : Reads (signed (isNegative value) (shownAmount (magnitudeBits value))) again) :
    display again = display value ↔
      shownAmount (magnitudeBits value) < rangeEnd ∧
        ¬FallsShort (shownAmount (magnitudeBits value)) |exact again| := by
  have positive := Binary64.unitsOfBits_pos nonzero
  have amountPos := shownAmount_pos positive
  have size := abs_signed (isNegative value) amountPos.le
  by_cases inRange : shownAmount (magnitudeBits value) < rangeEnd
  · obtain ⟨boundedAgain, sign, nearest⟩ := reads.nearest (size.symm ▸ inRange)
    rw [size] at nearest
    obtain ⟨positiveAgain, texts⟩ := text_figuresOfBits_iff positive nearest
    have signs : isNegative again = isNegative value := by
      rw [sign, Bool.eq_iff_iff, decide_eq_true_iff, signed_neg_iff amountPos]
    have nonzeroAgain : magnitudeBits again ≠ 0 := by
      intro zeroAgain
      rw [zeroAgain] at positiveAgain
      exact Nat.lt_irrefl 0 positiveAgain
    rw [display_eq_text bounded nonzero, display_eq_text boundedAgain nonzeroAgain, signs,
      String.ofList_inj, texts, abs_exact, and_iff_right inRange]
  · -- Past the finite range the reading is infinite, and displayed as an error.
    refine iff_of_false ?_ fun both => inRange both.1
    have unbounded := reads.isFinite_eq_false_iff.mpr (size.symm ▸ not_lt.mp inRange)
    have isError : display again = errorText := by simp [display, unbounded]
    rw [isError]
    exact (display_ne_errorText bounded).symm

/-- Every text that is displayed for a finite number denotes a number, and every reading of that
number is displayed by the same text just when the number lies within the finite range and the
reading does not fall short of a power of ten. -/
theorem display_again_iff {value : Float} (bounded : isFinite value = true) :
    ∃ number, denoted? (display value).toList = some number ∧ (∃ again, Reads number again) ∧
      ∀ again, Reads number again →
        (display again = display value ↔
          |number| < rangeEnd ∧ ¬FallsShort |number| |exact again|) := by
  by_cases zero : magnitudeBits value = 0
  · have inRange : |(0 : ℚ)| < rangeEnd := by
      rw [abs_zero]
      exact lt_trans (by positivity) (Binary64.two_pow_lt_rangeEnd (Nat.zero_le 1023))
    rw [display_of_zero zero]
    refine ⟨0, by decide +kernel, exists_reads 0, fun again reads => ?_⟩
    obtain ⟨_, _, nearest⟩ := reads.nearest inRange
    rw [abs_zero] at nearest
    have exactly := nearest.eq_of_exact ⟨0, Binary64.amountOfBits_eq_zero_iff.mpr rfl⟩
    have zeroAgain := Binary64.amountOfBits_eq_zero_iff.mp exactly
    refine iff_of_true (display_of_zero zeroAgain) ⟨inRange, fun short => ?_⟩
    exact absurd short.pos (by simp)
  · have positive := Binary64.unitsOfBits_pos zero
    refine ⟨signed (isNegative value) (shownAmount (magnitudeBits value)),
      denoted_display bounded zero, exists_reads _, fun again reads => ?_⟩
    rw [abs_signed _ (shownAmount_pos positive).le]
    exact display_eq_iff_of_reads bounded zero reads

/-- What is displayed for a positive number denotes the number to which it is rounded. -/
theorem denoted_display_of_rounded {value : Float} {number : Rounded} {count : Nat}
    (bounded : isFinite value = true) (nonzero : magnitudeBits value ≠ 0)
    (positive : isNegative value = false)
    (digits : displayDigits (unitsOfBits (magnitudeBits value)) = count)
    (shown : rounded (unitsOfBits (magnitudeBits value)) = number) :
    denoted? (display value).toList = some (number.amount count) := by
  rw [denoted_display bounded nonzero, positive, shownAmount, digits, shown]
  rfl

/-- The second number from `2 ^ 60` on is displayed by the text of `2 ^ 60`, as which it is read. -/
theorem display_again_of_neighbor :
    let value := ofMagnitude false 0x43B0000000000001
    let again := ofMagnitude false 0x43B0000000000000
    isFinite value = true ∧ display value = "1.152921504606847e+18" ∧
      Reads 1152921504606847000 again ∧ display again = "1.152921504606847e+18" := by
  intro value again
  have bounded : isFinite value = true := by decide +kernel
  have text : display value = "1.152921504606847e+18" := by decide +kernel
  have amountIs : Rounded.amount extremeDigits ⟨1152921504606847, 18⟩ = 1152921504606847000 := by
    norm_num [Rounded.amount, Rounded.step, extremeDigits]
  have denotedIs := denoted_display_of_rounded bounded (by decide +kernel) (by decide +kernel)
    (show _ = extremeDigits by decide +kernel) (show _ = ⟨1152921504606847, 18⟩ by decide +kernel)
  have found : Binary64.nearestBits (1152921504606847000 * unitsPerOne) 1 = 0x43B0000000000000 := by
    decide +kernel
  have reads := @reads_quotient 1152921504606847000 1 Nat.one_pos
  rw [found, Nat.cast_one, div_one] at reads
  obtain ⟨number, denoted, _, law⟩ := display_again_iff bounded
  obtain rfl := Option.some_inj.mp (denotedIs.symm.trans denoted)
  rw [amountIs, text] at law
  refine ⟨bounded, text, reads, (law again reads).mpr ⟨?_, ?_⟩⟩
  · have inRange := @Binary64.two_pow_lt_rangeEnd 64 (by decide)
    norm_num at inRange ⊢
    linarith
  · rintro ⟨exponent, _, power, _⟩
    rw [abs_of_pos (by norm_num), ← amountIs,
      Rounded.amount_eq_zpow_iff extremeDigits_pos ⟨by decide, by decide⟩] at power
    cases power

/-- The number nearest to `10 ^ 23` but one is displayed as that power, which lies in the middle
between it and the number as which the power is read. -/
theorem display_again_differs :
    let value := ofMagnitude false 0x44B52D02C7E14AF7
    let again := ofMagnitude false 0x44B52D02C7E14AF6
    isFinite value = true ∧ display value = "1e+23" ∧
      denoted? "1e+23".toList = some (10 ^ 23) ∧ Reads (10 ^ 23) again ∧
      display again = "9.999999999999999e+22" := by
  intro value again
  have bounded : isFinite value = true := by decide +kernel
  have text : display value = "1e+23" := by decide +kernel
  have amountIs : Rounded.amount extremeDigits ⟨10 ^ 15, 23⟩ = 10 ^ 23 := by
    norm_num [Rounded.amount, Rounded.step, extremeDigits]
  have denotedIs := denoted_display_of_rounded bounded (by decide +kernel) (by decide +kernel)
    (show _ = extremeDigits by decide +kernel) (show _ = ⟨10 ^ 15, 23⟩ by decide +kernel)
  rw [text, amountIs] at denotedIs
  have found : Binary64.nearestBits (10 ^ 23 * unitsPerOne) 1 = 0x44B52D02C7E14AF6 := by
    decide +kernel
  have reads := @reads_quotient (10 ^ 23) 1 Nat.one_pos
  rw [found, Nat.cast_one, div_one] at reads
  refine ⟨bounded, text, denotedIs, ?_, by decide +kernel⟩
  exact_mod_cast reads

end PanelCalc.Decimal
