import PanelCalc.Proofs.Decimal.Displayed

/-!
# Which numbers are written with an exponent

Very small numbers are displayed with an exponent, and those from `10 ^ 16` on:
`letter_mem_display_iff`. Rounding to the digits that are shown carries no number across these two
ends.
-/

namespace PanelCalc.Decimal

open Binary64 (amountOfBits amountOfBits_strictMono isFinite isNegative magnitudeBits
  unitsOfBits unitsPerOne)

/-- The magnitude from which on numbers are not very small is nearly a millionth. -/
theorem le_amountOfBits_smallBits : 10 ^ (-6 : Int) - 10 ^ (-22 : Int) ≤ amountOfBits smallBits := by
  have enclosed : (10 ^ 16 - 1) * unitsPerOne ≤ unitsOfBits smallBits * 10 ^ 22 := by
    decide +kernel
  have bound : (10 : ℚ) ^ (-6 : Int) - 10 ^ (-22 : Int) = (10 ^ 16 - 1 : Nat) / 10 ^ 22 := by
    norm_num
  rw [bound, amountOfBits, div_le_div_iff₀ (by norm_num) Binary64.unitsPerOne_pos]
  exact_mod_cast enclosed

/-- The magnitude bits of `10 ^ 16`. -/
def longBits : Nat := 0x4341C37937E08000

theorem amountOfBits_longBits : amountOfBits longBits = 10 ^ 16 := by
  have units : unitsOfBits longBits = 10 ^ 16 * unitsPerOne := by decide +kernel
  rw [amountOfBits, div_eq_iff Binary64.unitsPerOne_pos.ne', units]
  push_cast
  rfl

/-- Magnitudes below `10 ^ 16` are not rounded to it. -/
theorem amountOfBits_le_of_lt_long {bits : Nat} (short : amountOfBits bits < 10 ^ 16) :
    amountOfBits bits ≤ 10 ^ 16 - 1 := by
  rw [← amountOfBits_longBits, amountOfBits_strictMono.lt_iff_lt] at short
  have previous : unitsOfBits bits ≤ unitsOfBits (longBits - 1) :=
    Binary64.unitsOfBits_strictMono.monotone (by omega)
  have enclosed : unitsOfBits (longBits - 1) ≤ (10 ^ 16 - 1) * unitsPerOne := by decide +kernel
  have bound : (10 : ℚ) ^ 16 - 1 = (10 ^ 16 - 1 : Nat) := by norm_num
  rw [bound, amountOfBits, div_le_iff₀ Binary64.unitsPerOne_pos]
  exact_mod_cast previous.trans enclosed

/-- From one on magnitudes are not very small. -/
theorem smallBits_le_of_one_le {bits : Nat} (one : 1 ≤ amountOfBits bits) : smallBits ≤ bits := by
  have small := amountOfBits_smallBits_le
  rw [← amountOfBits_strictMono.le_iff_le]
  norm_num at small
  linarith

namespace Rounded

variable {bits : Nat} {number : Rounded}

/-- A very large magnitude is displayed with an exponent of 16 just from `10 ^ 16` on. -/
theorem extremeDigits_le_exponent_iff (full : number.Full extremeDigits)
    (covers : number.Covers extremeDigits (amountOfBits bits)) :
    (extremeDigits : Int) ≤ number.exponent ↔ 10 ^ 16 ≤ amountOfBits bits := by
  constructor
  · intro long
    by_contra short
    have below := amountOfBits_le_of_lt_long (not_le.mp short)
    have lower := covers.lower extremeDigits_pos
    have unit : number.step extremeDigits = 10 ^ number.exponent / 10 ^ 15 :=
      step_eq extremeDigits_pos number
    have power : (10 : ℚ) ^ (16 : Int) ≤ 10 ^ number.exponent :=
      zpow_le_zpow_right₀ (by norm_num) long
    rw [unit] at lower
    norm_num at power below
    linarith
  · intro long
    have between := lt_of_le_of_lt long (covers.upper extremeDigits_pos full)
    rw [← zpow_natCast, zpow_lt_zpow_iff_right₀ (by norm_num)] at between
    simp only [extremeDigits]
    omega

/-- An ordinary magnitude is displayed with an exponent of -6 at least. -/
theorem leastFixedExponent_le_of_usual (full : number.Full usualDigits)
    (covers : number.Covers usualDigits (amountOfBits bits)) (notSmall : smallBits ≤ bits) :
    leastFixedExponent ≤ number.exponent := by
  by_contra below
  have least := le_amountOfBits_smallBits.trans (amountOfBits_strictMono.monotone notSmall)
  obtain ⟨_, last⟩ := amount_bounds usualDigits_pos full
  have close := (abs_le.mp (covers.distance usualDigits_pos)).2
  have unit : number.step usualDigits = 10 ^ number.exponent / 10 ^ 13 :=
    step_eq usualDigits_pos number
  have power : (10 : ℚ) ^ (number.exponent + 1) ≤ 10 ^ (-6 : Int) :=
    zpow_le_zpow_right₀ (by norm_num) (Int.add_one_le_iff.mpr (Int.not_le.mp below))
  rw [unit] at last close
  rw [zpow_ten_succ] at last power
  norm_num at least power
  linarith

end Rounded

/-- The exponents with which magnitudes other than zero are displayed. -/
theorem exponential_rounded_iff {bits : Nat} (positive : 0 < unitsOfBits bits) :
    ((rounded (unitsOfBits bits)).exponent < leastFixedExponent ∨
        (displayDigits (unitsOfBits bits) : Int) ≤ (rounded (unitsOfBits bits)).exponent) ↔
      bits < smallBits ∨ 10 ^ 16 ≤ amountOfBits bits := by
  obtain ⟨full, covers⟩ := (Rounded.rounded_eq_iff positive _).mp rfl
  generalize rounded (unitsOfBits bits) = number at *
  by_cases large : 10 ^ 10 ≤ amountOfBits bits
  · rw [displayDigits_of_large large] at full covers ⊢
    have exponent := Rounded.le_exponent_of_large extremeDigits_pos full covers large
    have notSmall := smallBits_le_of_one_le (le_trans (by norm_num) large)
    rw [Rounded.extremeDigits_le_exponent_iff full covers, leastFixedExponent]
    constructor
    · rintro (low | long)
      · omega
      · exact .inr long
    · rintro (small | long)
      · omega
      · exact .inr long
  · by_cases small : bits < smallBits
    · rw [displayDigits_of_small small] at covers
      exact iff_of_true (.inl (Rounded.exponent_lt_of_small covers small)) (.inl small)
    · rw [displayDigits_of_usual (not_le.mp large) (not_lt.mp small)] at full covers ⊢
      have least := Rounded.leastFixedExponent_le_of_usual full covers (Nat.le_of_not_lt small)
      have most : number.exponent ≤ 10 := by
        rcases Rounded.exponent_of_usual full covers (not_le.mp large) with below | rfl
        · omega
        · exact le_rfl
      refine iff_of_false ?_ ?_
      · simp only [usualDigits]
        omega
      · rintro (isSmall | long)
        · exact small isSmall
        · exact large (le_trans (by norm_num) long)

theorem display_of_zero {value : Float} (zero : magnitudeBits value = 0) : display value = "0" := by
  have bounded : isFinite value = true := by
    rw [isFinite, zero]
    decide
  rw [display, if_pos bounded, figures_of_zero zero]
  rfl

/-- The text of a number other than zero. -/
theorem display_eq_text {value : Float} (bounded : isFinite value = true)
    (nonzero : magnitudeBits value ≠ 0) :
    display value =
      String.ofList (figuresOfBits (isNegative value) (magnitudeBits value)).text := by
  rw [display, if_pos bounded, figures_eq nonzero]

/-- The numbers that are displayed with an exponent. -/
theorem letter_mem_display_iff {value : Float} (bounded : isFinite value = true) :
    'e' ∈ (display value).toList ↔
      exact value ≠ 0 ∧ (|exact value| < amountOfBits smallBits ∨ 10 ^ 16 ≤ |exact value|) := by
  by_cases zero : magnitudeBits value = 0
  · rw [display_of_zero zero]
    exact iff_of_false (by decide) fun both => both.1 (exact_eq_zero_iff.mpr zero)
  · have positive := Binary64.unitsOfBits_pos zero
    have digital := Rounded.digital_figures (isNegative value)
      (displayDigits_pos (unitsOfBits (magnitudeBits value)))
      (rounded (unitsOfBits (magnitudeBits value)))
    rw [display_eq_text bounded zero, String.toList_ofList, figuresOfBits,
      digital.letter_mem_text_iff, Rounded.exponent_figures_ne_none_iff,
      exponential_rounded_iff positive, abs_exact, amountOfBits_strictMono.lt_iff_lt,
      Ne, exact_eq_zero_iff, and_iff_right zero]

end PanelCalc.Decimal
