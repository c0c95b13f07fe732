import PanelCalc.Proofs.Decimal.Nearest
import PanelCalc.Proofs.Decimal.Numerals

/-!
# Displaying what has been displayed

The decimal number that is displayed for a magnitude, unless it needs an exponent, is read back as
a magnitude for which the same number is displayed: `figuresOfBits_magnitude`. The two magnitudes
need not be the same; the second one is only the nearest to the displayed number.
-/

namespace PanelCalc.Decimal

open Binary64 (amountOfBits unitsOfBits unitsPerOne)

/-- The magnitude bits from which on a magnitude is not very small. -/
def smallBits : Nat := magnitude "0.000001".toList

/-- Where a magnitude is shown with more digits than usual. -/
theorem displayDigits_eq (bits : Nat) :
    displayDigits (unitsOfBits bits) =
      if 10 ^ 10 ≤ amountOfBits bits ∨ bits < smallBits then extremeDigits else usualDigits := by
  have large : largeUnits ≤ unitsOfBits bits ↔ 10 ^ 10 ≤ amountOfBits bits := by
    rw [amountOfBits, le_div_iff₀ Binary64.unitsPerOne_pos, largeUnits, tenTo_eq]
    norm_cast
  have small : unitsOfBits bits < smallUnits ↔ bits < smallBits :=
    Binary64.unitsOfBits_strictMono.lt_iff_lt
  simp only [displayDigits, Bool.or_eq_true, decide_eq_true_eq, large, small]

section

variable {bits : Nat}

theorem displayDigits_of_large (large : 10 ^ 10 ≤ amountOfBits bits) :
    displayDigits (unitsOfBits bits) = extremeDigits := by
  rw [displayDigits_eq, if_pos (.inl large)]

theorem displayDigits_of_small (small : bits < smallBits) :
    displayDigits (unitsOfBits bits) = extremeDigits := by
  rw [displayDigits_eq, if_pos (.inr small)]

theorem displayDigits_of_usual (notLarge : amountOfBits bits < 10 ^ 10)
    (notSmall : smallBits ≤ bits) : displayDigits (unitsOfBits bits) = usualDigits := by
  rw [displayDigits_eq, if_neg]
  rintro (large | small)
  · exact absurd large (not_le.mpr notLarge)
  · exact absurd small (not_lt.mpr notSmall)

end

theorem usualDigits_pos : 0 < usualDigits := Nat.succ_pos 13

theorem extremeDigits_pos : 0 < extremeDigits := Nat.succ_pos 15

/-- A millionth is no less than the magnitude from which on numbers are not very small. -/
theorem amountOfBits_smallBits_le : amountOfBits smallBits ≤ 10 ^ (-6 : Int) := by
  have enclosed : unitsOfBits smallBits * 10 ^ 6 ≤ unitsPerOne := by decide +kernel
  rw [amountOfBits, div_le_iff₀ Binary64.unitsPerOne_pos, zpow_neg, ← div_eq_inv_mul,
    le_div_iff₀ (by norm_num)]
  exact_mod_cast enclosed

/-- Very small magnitudes are not rounded to a millionth. -/
theorem amountOfBits_lt_of_lt_smallBits {bits : Nat} (small : bits < smallBits) :
    amountOfBits bits < 10 ^ (-6 : Int) - 2 * 10 ^ (-22 : Int) := by
  have enclosed : unitsOfBits (smallBits - 1) * 10 ^ 22 < (10 ^ 16 - 2) * unitsPerOne := by
    decide +kernel
  have onePos := Binary64.unitsPerOne_pos
  have previous : unitsOfBits bits ≤ unitsOfBits (smallBits - 1) :=
    Binary64.unitsOfBits_strictMono.monotone (by omega)
  have scaled := Nat.lt_of_le_of_lt (Nat.mul_le_mul_right (10 ^ 22) previous) enclosed
  have bound : (10 : ℚ) ^ (-6 : Int) - 2 * 10 ^ (-22 : Int) = (10 ^ 16 - 2 : Nat) / (10 ^ 22) := by
    norm_num
  rw [bound, amountOfBits, div_lt_div_iff₀ onePos (by norm_num)]
  generalize unitsPerOne = ones at scaled ⊢
  exact_mod_cast scaled

namespace Rounded

/-- A number displayed for a magnitude is the one around which the magnitude lies. -/
theorem rounded_eq_iff {bits : Nat} (positive : 0 < unitsOfBits bits) (number : Rounded) :
    rounded (unitsOfBits bits) = number ↔
      number.Full (displayDigits (unitsOfBits bits)) ∧
        number.Covers (displayDigits (unitsOfBits bits)) (amountOfBits bits) :=
  nearest_eq_iff (by exact_mod_cast Binary64.unitsPerOne_pos) (displayDigits_pos _)
    (grid_of_pos (displayDigits_le _) positive) number

section

variable {bits found : Nat} {number : Rounded}

/-- A very large magnitude is displayed with an exponent of ten at least. -/
theorem le_exponent_of_large {count : Nat} (someDigit : 0 < count) (full : number.Full count)
    (covers : number.Covers count (amountOfBits bits)) (large : 10 ^ 10 ≤ amountOfBits bits) :
    10 ≤ number.exponent := by
  have between := lt_of_le_of_lt large (covers.upper someDigit full)
  rw [← zpow_natCast, zpow_lt_zpow_iff_right₀ (by norm_num)] at between
  omega

/-- A very small magnitude is displayed with an exponent. -/
theorem exponent_lt_of_small (covers : number.Covers extremeDigits (amountOfBits bits))
    (small : bits < smallBits) : number.exponent < leastFixedExponent := by
  by_contra fixed
  have lower := covers.lower extremeDigits_pos
  have upper := amountOfBits_lt_of_lt_smallBits small
  have unit : number.step extremeDigits = 10 ^ number.exponent / 10 ^ 15 :=
    step_eq extremeDigits_pos number
  have least : (10 : ℚ) ^ (-6 : Int) ≤ 10 ^ number.exponent :=
    zpow_le_zpow_right₀ (by norm_num) (Int.not_lt.mp fixed)
  rw [unit] at lower
  norm_num at upper least
  linarith

/-- An ordinary magnitude is displayed with an exponent of nine at most, unless it is rounded up
to ten thousand million. -/
theorem exponent_of_usual (full : number.Full usualDigits)
    (covers : number.Covers usualDigits (amountOfBits bits))
    (usual : amountOfBits bits < 10 ^ 10) :
    number.exponent ≤ 9 ∨ number = ⟨10 ^ 13, 10⟩ := by
  have lower := covers.lower usualDigits_pos
  have unit := step_le usualDigits_pos number
  by_cases small : number.exponent ≤ 9
  · exact .inl small
  · have atMost : number.exponent ≤ 10 := by
      by_contra larger
      have power : (10 : ℚ) ^ (11 : Int) ≤ 10 ^ number.exponent :=
        zpow_le_zpow_right₀ (by norm_num) (by omega)
      norm_num at power
      linarith
    have ten : number.exponent = 10 := by omega
    rcases covers with ⟨least, _, _⟩ | ⟨lowest, _, _⟩
    · rw [ten] at least
      exact absurd usual (not_lt.mpr (by exact_mod_cast least))
    · obtain ⟨significand, exponent⟩ := number
      simp only at ten lowest
      rw [ten, lowest]
      exact .inr rfl

/-- A nearest magnitude that is displayed with as many digits is displayed as the number itself. -/
theorem rounded_of_nearest {count : Nat} (full : number.Full count)
    (covers : number.Covers count (amountOfBits bits)) (short : number.exponent < count)
    (whole : 0 ≤ number.exponent ∨ count = usualDigits ∧ leastFixedExponent ≤ number.exponent)
    (nearest : Nearest found (number.amount count)) (positive : 0 < unitsOfBits found)
    (same : displayDigits (unitsOfBits found) = count) :
    rounded (unitsOfBits found) = number := by
  subst same
  have someDigit := displayDigits_pos (unitsOfBits found)
  have few := displayDigits_le (unitsOfBits found)
  rw [rounded_eq_iff positive]
  refine ⟨full, covers.of_nearer someDigit full (nearest bits) ?_ fun lowest _ => ?_⟩
  · exact amount_ne_tie someDigit full covers short nearest
  · refine small_step someDigit lowest nearest ?_ whole
    simp only [extremeDigits] at few
    omega

/-- The nearest magnitude to a very large number is very large. -/
theorem large_of_nearest (full : number.Full extremeDigits)
    (covers : number.Covers extremeDigits (amountOfBits bits))
    (large : 10 ^ 10 ≤ amountOfBits bits)
    (nearest : Nearest found (number.amount extremeDigits)) : 10 ^ 10 ≤ amountOfBits found := by
  have exponent := le_exponent_of_large extremeDigits_pos full covers large
  obtain ⟨ten, isTen⟩ := @exists_amount_pow 10 (by decide)
  have reached : amountOfBits ten ≤ number.amount extremeDigits := by
    have power : (10 : ℚ) ^ (10 : Int) ≤ 10 ^ number.exponent :=
      zpow_le_zpow_right₀ (by norm_num) exponent
    refine isTen.trans_le (le_trans ?_ (amount_bounds extremeDigits_pos full).1)
    exact_mod_cast power
  exact isTen ▸ nearest.le_of_le reached

/-- The nearest magnitude to a very large number that is displayed without an exponent. -/
theorem rounded_of_large (full : number.Full extremeDigits)
    (covers : number.Covers extremeDigits (amountOfBits bits))
    (large : 10 ^ 10 ≤ amountOfBits bits) (short : number.exponent < extremeDigits)
    (nearest : Nearest found (number.amount extremeDigits)) :
    0 < unitsOfBits found ∧ displayDigits (unitsOfBits found) = extremeDigits ∧
      rounded (unitsOfBits found) = number := by
  have exponent := le_exponent_of_large extremeDigits_pos full covers large
  have stillLarge := large_of_nearest full covers large nearest
  have positive : 0 < unitsOfBits found :=
    Binary64.unitsOfBits_pos_of_amount (lt_of_lt_of_le (by norm_num) stillLarge)
  have same := displayDigits_of_large stillLarge
  refine ⟨positive, same, ?_⟩
  exact rounded_of_nearest full covers short (.inl (by omega)) nearest positive same

/-- The nearest magnitude to an ordinary number of an exponent of nine at most. -/
theorem rounded_of_usual (full : number.Full usualDigits)
    (covers : number.Covers usualDigits (amountOfBits bits))
    (fixed : leastFixedExponent ≤ number.exponent) (small : number.exponent ≤ 9)
    (nearest : Nearest found (number.amount usualDigits)) :
    0 < unitsOfBits found ∧ displayDigits (unitsOfBits found) = usualDigits ∧
      rounded (unitsOfBits found) = number := by
  obtain ⟨least, last⟩ := amount_bounds usualDigits_pos full
  have unitPos := number.step_pos usualDigits
  have notLarge : amountOfBits found < 10 ^ 10 := by
    have distance := (abs_le.mp ((nearest bits).trans (covers.distance usualDigits_pos))).2
    have power : (10 : ℚ) ^ (number.exponent + 1) ≤ 10 ^ (10 : Int) :=
      zpow_le_zpow_right₀ (by norm_num) (by omega)
    norm_num at power ⊢
    linarith
  have notSmall : smallBits ≤ found := by
    have reached : amountOfBits smallBits ≤ number.amount usualDigits :=
      amountOfBits_smallBits_le.trans
        ((zpow_le_zpow_right₀ (by norm_num) fixed).trans least)
    have order := nearest.le_of_le reached
    rw [amountOfBits, amountOfBits, div_le_div_iff_of_pos_right Binary64.unitsPerOne_pos,
      Nat.cast_le] at order
    exact Binary64.unitsOfBits_strictMono.le_iff_le.mp order
  have positive : 0 < unitsOfBits found := by
    have some : 0 < smallBits := by decide +kernel
    exact Binary64.unitsOfBits_pos (Nat.lt_of_lt_of_le some notSmall).ne'
  have same := displayDigits_of_usual notLarge notSmall
  have short : number.exponent < usualDigits := by
    simp only [usualDigits]
    omega
  refine ⟨positive, same, ?_⟩
  exact rounded_of_nearest full covers short (.inr ⟨rfl, fixed⟩) nearest positive same

/-- Ten thousand million is displayed as it is. -/
theorem rounded_ten (isTen : amountOfBits found = 10 ^ 10) :
    0 < unitsOfBits found ∧ displayDigits (unitsOfBits found) = extremeDigits ∧
      rounded (unitsOfBits found) = ⟨10 ^ 15, 10⟩ := by
  have positive : 0 < unitsOfBits found :=
    Binary64.unitsOfBits_pos_of_amount (isTen ▸ by norm_num)
  have same := displayDigits_of_large isTen.ge
  refine ⟨positive, same, ?_⟩
  rw [rounded_eq_iff positive, same, isTen]
  have power : (10 : ℚ) ^ (10 : Int) = 10 ^ 10 := by norm_num
  have amountIs : amount extremeDigits ⟨10 ^ 15, 10⟩ = 10 ^ 10 :=
    (amount_of_lowest extremeDigits_pos rfl).trans power
  have halfPos := half_pos (step_pos extremeDigits ⟨10 ^ 15, 10⟩)
  refine ⟨⟨le_rfl, by simp only [extremeDigits]; norm_num⟩, .inl ⟨power.le, ?_, ?_⟩⟩
  · rw [amountIs]
    exact sub_le_self _ halfPos.le
  · rw [amountIs]
    exact lt_add_of_pos_right _ halfPos

end

end Rounded

/-- The number displayed for a magnitude. -/
def shownAmount (bits : Nat) : ℚ :=
  (rounded (unitsOfBits bits)).amount (displayDigits (unitsOfBits bits))

/-- A displayed number without an exponent is displayed again for the magnitude nearest to it. -/
theorem figuresOfBits_of_nearest {bits found : Nat} (positive : 0 < unitsOfBits bits)
    (fixed : leastFixedExponent ≤ (rounded (unitsOfBits bits)).exponent)
    (short : (rounded (unitsOfBits bits)).exponent < displayDigits (unitsOfBits bits))
    (nearest : Nearest found (shownAmount bits)) :
    0 < unitsOfBits found ∧
      ∀ negative, figuresOfBits negative found = figuresOfBits negative bits := by
  obtain ⟨full, covers⟩ := (Rounded.rounded_eq_iff positive _).mp rfl
  unfold shownAmount at nearest
  simp only [figuresOfBits]
  generalize rounded (unitsOfBits bits) = number at *
  by_cases large : 10 ^ 10 ≤ amountOfBits bits
  · rw [displayDigits_of_large large] at full covers short nearest ⊢
    obtain ⟨some, same, again⟩ := Rounded.rounded_of_large full covers large short nearest
    exact ⟨some, fun negative => by rw [same, again]⟩
  · by_cases small : bits < smallBits
    · rw [displayDigits_of_small small] at covers
      exact absurd fixed (not_le.mpr (Rounded.exponent_lt_of_small covers small))
    · rw [displayDigits_of_usual (not_le.mp large) (not_lt.mp small)] at full covers short nearest ⊢
      rcases Rounded.exponent_of_usual full covers (not_le.mp large) with below | rfl
      · obtain ⟨some, same, again⟩ := Rounded.rounded_of_usual full covers fixed below nearest
        exact ⟨some, fun negative => by rw [same, again]⟩
      · -- Rounding up reaches the magnitudes that are shown with more digits.
        have amountIs := @Rounded.amount_of_lowest usualDigits ⟨10 ^ 13, 10⟩ usualDigits_pos rfl
        have power : (10 : ℚ) ^ (10 : Int) = 10 ^ 10 := by norm_num
        rw [amountIs, power] at nearest
        have isTen := nearest.eq_of_exact (Rounded.exists_amount_pow (by decide))
        obtain ⟨some, same, again⟩ := Rounded.rounded_ten isTen
        refine ⟨some, fun negative => ?_⟩
        rw [same, again]
        cases negative <;> decide

/-- The numeral of a displayed number without an exponent is read as the magnitude nearest to the
number. -/
theorem nearest_magnitude {bits : Nat} (positive : 0 < unitsOfBits bits) {negative : Bool}
    (plain : (figuresOfBits negative bits).exponent = none) :
    magnitude (figuresOfBits negative bits).numeral < Binary64.infinityBits ∧
      Nearest (magnitude (figuresOfBits negative bits).numeral) (shownAmount bits) := by
  obtain ⟨full, _⟩ := (Rounded.rounded_eq_iff positive _).mp rfl
  have someDigit := displayDigits_pos (unitsOfBits bits)
  have few := displayDigits_le (unitsOfBits bits)
  unfold figuresOfBits shownAmount at *
  generalize displayDigits (unitsOfBits bits) = count at *
  generalize rounded (unitsOfBits bits) = number at *
  obtain ⟨fixed, short⟩ := Rounded.fixed_of_plain plain
  have digital := number.digital_figures negative someDigit
  have amountIs := @Rounded.numeral_amount negative count number full fixed short
  have inRange : number.amount count < Binary64.rangeEnd := by
    obtain ⟨_, last⟩ := Rounded.amount_bounds someDigit full
    have unitPos := number.step_pos count
    have power : (10 : ℚ) ^ (number.exponent + 1) ≤ 10 ^ (16 : Int) :=
      zpow_le_zpow_right₀ (by norm_num) (by simp only [extremeDigits] at few; omega)
    have least := @Binary64.two_pow_lt_rangeEnd 64 (by decide)
    norm_num at power least
    linarith
  rw [← amountIs] at inRange ⊢
  unfold magnitude
  rw [digital.numerator_numeral, digital.places_numeral, tenTo_eq]
  have denominator : 0 < 10 ^ (number.figures negative count).fraction.length :=
    ten_pow_pos _
  have found := Binary64.nearestBits_amount denominator (by exact_mod_cast inRange)
  push_cast at found
  exact ⟨found.1, fun other => (found.2 other).1⟩

/-- A displayed number without an exponent is displayed again for the magnitude that its numeral
is read as. -/
theorem figuresOfBits_magnitude {bits : Nat} (positive : 0 < unitsOfBits bits) {negative : Bool}
    (plain : (figuresOfBits negative bits).exponent = none) :
    0 < unitsOfBits (magnitude (figuresOfBits negative bits).numeral) ∧
      figuresOfBits negative (magnitude (figuresOfBits negative bits).numeral) =
        figuresOfBits negative bits := by
  obtain ⟨fixed, short⟩ := Rounded.fixed_of_plain plain
  obtain ⟨some, same⟩ :=
    figuresOfBits_of_nearest positive fixed short (nearest_magnitude positive plain).2
  exact ⟨some, same negative⟩

end PanelCalc.Decimal
