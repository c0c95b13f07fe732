import PanelCalc.Proofs.Binary64.Order
import PanelCalc.Proofs.Decimal.Reread

/-!
# The order of displayed numbers

Rounding to as many digits keeps the order of quotients: `Rounded.Closest.le_of_le`. Where the count
of digits changes, both sides are rounded to the number that stands there, to a millionth or to ten
thousand million, at most or at least. So no larger number is displayed as a smaller one, and a
number and its negative are displayed alike but for the sign: `display_ordered`.
-/

namespace PanelCalc.Decimal

open Binary64 (amountOfBits amountOfBits_strictMono isFinite isNegative isZero magnitudeBits
  ofMagnitude signedBits unitsOfBits unitsPerOne)

namespace Rounded

variable {count : Nat} {number other : Rounded} {lower upper : ℚ}

/-- A quotient to which the larger of two numbers is no farther lies in their middle or above. -/
theorem middle_le_of_closer {near far quotient : ℚ} (closer : |near - quotient| ≤ |far - quotient|)
    (below : far < near) : far + near ≤ 2 * quotient := by
  by_contra short
  have product := mul_pos (sub_pos.mpr below) (sub_pos.mpr (not_le.mp short))
  have squares := sq_le_sq.mpr closer
  linarith

/-- A quotient to which the smaller of two numbers is no farther lies in their middle or below. -/
theorem le_middle_of_closer {near far quotient : ℚ} (closer : |near - quotient| ≤ |far - quotient|)
    (above : near < far) : 2 * quotient ≤ far + near := by
  by_contra long
  have product := mul_pos (sub_pos.mpr above) (sub_pos.mpr (not_le.mp long))
  have squares := sq_le_sq.mpr closer
  linarith

/-- The closest number to a smaller quotient is not the larger one. -/
theorem Closest.le_of_le (first : number.Closest count lower) (second : other.Closest count upper)
    (ordered : lower ≤ upper) : number.amount count ≤ other.amount count := by
  by_contra reversed
  have reversed := not_le.mp reversed
  have least := middle_le_of_closer (first.nearest other second.full) reversed
  have most := le_middle_of_closer (second.nearest number first.full) reversed
  -- Both quotients are the middle of the two numbers, and a tie goes to the larger one.
  have middle : 2 * upper = number.amount count + other.amount count := by linarith
  have tie : |number.amount count - upper| = |other.amount count - upper| := by
    rw [← abs_neg]
    congr 1
    linarith
  exact absurd (second.larger number first.full tie) (not_le.mpr reversed)

end Rounded

/-! ## Magnitudes -/

theorem shownAmount_zero : shownAmount 0 = 0 := by
  have none : (rounded (unitsOfBits 0)).significand = 0 := by decide +kernel
  rw [shownAmount, Rounded.amount, none, Nat.cast_zero, zero_mul]

section

variable {bits other : Nat}

/-- The number shown for a magnitude is the closest one with the digits it is shown with. -/
theorem closest_rounded (positive : 0 < unitsOfBits bits) {count : Nat}
    (digits : displayDigits (unitsOfBits bits) = count) :
    (rounded (unitsOfBits bits)).Closest count (amountOfBits bits) := by
  obtain ⟨full, covers⟩ := (Rounded.rounded_eq_iff positive _).mp rfl
  exact digits ▸ Rounded.closest_of_covers (displayDigits_pos _) full covers

/-- Of two magnitudes shown with as many digits, the smaller one is not shown as the larger one. -/
theorem shownAmount_le_of_same_digits (positive : 0 < unitsOfBits bits) (ordered : bits ≤ other)
    (same : displayDigits (unitsOfBits bits) = displayDigits (unitsOfBits other)) :
    shownAmount bits ≤ shownAmount other := by
  have positiveOther : 0 < unitsOfBits other :=
    lt_of_lt_of_le positive (Binary64.unitsOfBits_strictMono.monotone ordered)
  have first := closest_rounded positive same
  have second := closest_rounded positiveOther rfl
  rw [shownAmount, same]
  exact first.le_of_le second (amountOfBits_strictMono.monotone ordered)

/-- Very small magnitudes are shown as a millionth at most. -/
theorem shownAmount_le_of_small (positive : 0 < unitsOfBits bits) (small : bits < smallBits) :
    shownAmount bits ≤ 10 ^ (-6 : Int) := by
  obtain ⟨full, covers⟩ := (Rounded.rounded_eq_iff positive _).mp rfl
  unfold shownAmount
  rw [displayDigits_of_small small] at full covers ⊢
  have exponent := Rounded.exponent_lt_of_small covers small
  obtain ⟨_, last⟩ := Rounded.amount_bounds extremeDigits_pos full
  have unitPos := Rounded.step_pos extremeDigits (rounded (unitsOfBits bits))
  have power : (10 : ℚ) ^ ((rounded (unitsOfBits bits)).exponent + 1) ≤ 10 ^ (-6 : Int) :=
    zpow_le_zpow_right₀ (by norm_num) exponent
  linarith

/-- All other magnitudes are shown as a millionth at least. -/
theorem le_shownAmount_of_not_small (positive : 0 < unitsOfBits bits)
    (notSmall : smallBits ≤ bits) : 10 ^ (-6 : Int) ≤ shownAmount bits := by
  obtain ⟨full, covers⟩ := (Rounded.rounded_eq_iff positive _).mp rfl
  obtain ⟨least, _⟩ := Rounded.amount_bounds (displayDigits_pos _) full
  refine le_trans (zpow_le_zpow_right₀ (by norm_num) ?_) least
  by_cases large : 10 ^ 10 ≤ amountOfBits bits
  · have exponent := Rounded.le_exponent_of_large (displayDigits_pos _) full covers large
    omega
  · rw [displayDigits_of_usual (not_le.mp large) notSmall] at full covers
    exact Rounded.leastFixedExponent_le_of_usual full covers notSmall

/-- Very large magnitudes are shown as ten thousand million at least. -/
theorem le_shownAmount_of_large (large : 10 ^ 10 ≤ amountOfBits bits) :
    10 ^ 10 ≤ shownAmount bits := by
  have positive : 0 < unitsOfBits bits :=
    Binary64.unitsOfBits_pos_of_amount (lt_of_lt_of_le (by norm_num) large)
  obtain ⟨full, covers⟩ := (Rounded.rounded_eq_iff positive _).mp rfl
  obtain ⟨least, _⟩ := Rounded.amount_bounds (displayDigits_pos _) full
  have exponent := Rounded.le_exponent_of_large (displayDigits_pos _) full covers large
  have power : (10 : ℚ) ^ (10 : Int) ≤ 10 ^ (rounded (unitsOfBits bits)).exponent :=
    zpow_le_zpow_right₀ (by norm_num) exponent
  exact_mod_cast power.trans least

/-- All other magnitudes are shown as ten thousand million at most. -/
theorem shownAmount_le_of_not_large (positive : 0 < unitsOfBits bits)
    (notLarge : amountOfBits bits < 10 ^ 10) : shownAmount bits ≤ 10 ^ 10 := by
  by_cases small : bits < smallBits
  · exact (shownAmount_le_of_small positive small).trans (by norm_num)
  · obtain ⟨full, covers⟩ := (Rounded.rounded_eq_iff positive _).mp rfl
    unfold shownAmount
    rw [displayDigits_of_usual notLarge (not_lt.mp small)] at full covers ⊢
    rcases Rounded.exponent_of_usual full covers notLarge with below | isTen
    · obtain ⟨_, last⟩ := Rounded.amount_bounds usualDigits_pos full
      have unitPos := Rounded.step_pos usualDigits (rounded (unitsOfBits bits))
      have power : (10 : ℚ) ^ ((rounded (unitsOfBits bits)).exponent + 1) ≤ 10 ^ (10 : Int) :=
        zpow_le_zpow_right₀ (by norm_num) (by omega)
      have bound := (le_add_of_nonneg_right unitPos.le).trans (last.trans power)
      exact_mod_cast bound
    · rw [isTen, Rounded.amount_of_lowest usualDigits_pos rfl]
      norm_num

end

theorem shownAmount_nonneg (bits : Nat) : 0 ≤ shownAmount bits := by
  unfold shownAmount Rounded.amount
  have unitPos := Rounded.step_pos (displayDigits (unitsOfBits bits)) (rounded (unitsOfBits bits))
  positivity

/-- No magnitude is shown as a larger number than a larger one. -/
theorem shownAmount_mono : Monotone shownAmount := by
  intro bits other ordered
  rcases Nat.eq_zero_or_pos bits with rfl | nonzero
  · rw [shownAmount_zero]
    exact shownAmount_nonneg other
  have positive : 0 < unitsOfBits bits := Binary64.unitsOfBits_pos nonzero.ne'
  have positiveOther : 0 < unitsOfBits other := Binary64.unitsOfBits_pos (by omega)
  have amounts := amountOfBits_strictMono.monotone ordered
  have alike := shownAmount_le_of_same_digits positive ordered
  by_cases large : 10 ^ 10 ≤ amountOfBits bits
  · exact alike ((displayDigits_of_large large).trans
      (displayDigits_of_large (large.trans amounts)).symm)
  by_cases largeOther : 10 ^ 10 ≤ amountOfBits other
  · exact (shownAmount_le_of_not_large positive (not_le.mp large)).trans
      (le_shownAmount_of_large largeOther)
  by_cases smallOther : other < smallBits
  · exact alike ((displayDigits_of_small (ordered.trans_lt smallOther)).trans
      (displayDigits_of_small smallOther).symm)
  by_cases small : bits < smallBits
  · exact (shownAmount_le_of_small positive small).trans
      (le_shownAmount_of_not_small positiveOther (not_lt.mp smallOther))
  · exact alike ((displayDigits_of_usual (not_le.mp large) (not_lt.mp small)).trans
      (displayDigits_of_usual (not_le.mp largeOther) (not_lt.mp smallOther)).symm)

/-! ## Numbers -/

/-- What is displayed for a finite number denotes the number that is shown for its magnitude, with
its sign. -/
theorem denoted_display_of_isFinite {value : Float} (bounded : isFinite value = true) :
    denoted? (display value).toList =
      some (signed (isNegative value) (shownAmount (magnitudeBits value))) := by
  by_cases zero : magnitudeBits value = 0
  · have neither : signed (isNegative value) 0 = 0 := by
      cases isNegative value <;> simp [signed]
    rw [display_of_zero zero, zero, shownAmount_zero, neither]
    decide +kernel
  · exact denoted_display bounded zero

/-- The numbers that are shown are ordered as the bits are for which they are shown. -/
theorem signed_shownAmount_le {x y : Float} (ordered : signedBits x ≤ signedBits y) :
    signed (isNegative x) (shownAmount (magnitudeBits x)) ≤
      signed (isNegative y) (shownAmount (magnitudeBits y)) := by
  have shown := shownAmount_nonneg (magnitudeBits x)
  have shownOther := shownAmount_nonneg (magnitudeBits y)
  unfold signedBits at ordered
  unfold signed
  cases negative : isNegative x <;> cases negativeOther : isNegative y <;>
    rw [negative, negativeOther] at ordered
  · have smaller : magnitudeBits x ≤ magnitudeBits y := by simpa using ordered
    exact shownAmount_mono smaller
  · -- A number that is not negative is at most a negative one only where both are zero.
    have zero : magnitudeBits x = 0 := by simp at ordered; omega
    have zeroOther : magnitudeBits y = 0 := by simp at ordered; omega
    simp [zero, zeroOther, shownAmount_zero]
  · have between : -shownAmount (magnitudeBits x) ≤ shownAmount (magnitudeBits y) := by linarith
    simpa using between
  · have larger : magnitudeBits y ≤ magnitudeBits x := by simpa using ordered
    exact neg_le_neg (shownAmount_mono larger)

/-- A text with the minus sign in front of it taken away, or put there where there is none. -/
def toggled : List Char → List Char
  | '-' :: text => text
  | text => '-' :: text

@[simp] theorem toggled_cons (text : List Char) : toggled ('-' :: text) = text := rfl

theorem toggled_of_head_ne {text : List Char} (noSign : text.head? ≠ some '-') :
    toggled text = '-' :: text := by
  unfold toggled
  split
  · exact absurd rfl noSign
  · rfl

/-- A number is written alike with a sign and without one, the sign apart. -/
theorem Rounded.text_figures_negative (count : Nat) (number : Rounded) :
    (number.figures true count).text = '-' :: (number.figures false count).text := by
  unfold figures expansion Expansion.figures
  split
  · simp [Figures.text]
  · split <;> simp [Figures.text]

theorem text_figuresOfBits_negative (bits : Nat) :
    (figuresOfBits true bits).text = '-' :: (figuresOfBits false bits).text := by
  rw [figuresOfBits, figuresOfBits, Rounded.text_figures_negative]

/-- Taking the sign away and putting it there are the two ways of toggling it. -/
theorem toggled_text_figuresOfBits (negative : Bool) (bits : Nat) :
    toggled (figuresOfBits negative bits).text = (figuresOfBits (!negative) bits).text := by
  have withSign := text_figuresOfBits_negative bits
  cases negative with
  | true => rw [withSign, toggled_cons, Bool.not_true]
  | false =>
      have digital := Rounded.digital_figures false (displayDigits_pos (unitsOfBits bits))
        (rounded (unitsOfBits bits))
      have noSign : (figuresOfBits false bits).text.head? ≠ some '-' := by
        rw [figuresOfBits, ne_eq, digital.head_text_iff, Rounded.negative_figures]
        exact Bool.false_ne_true
      rw [toggled_of_head_ne noSign, Bool.not_false, withSign]

/-- The negative of a number other than zero is displayed as the number, with the sign toggled. -/
theorem display_neg {value : Float} (bounded : isFinite value = true)
    (nonzero : magnitudeBits value ≠ 0) :
    (display (-value)).toList = toggled (display value).toList := by
  have magnitudeIs := Binary64.magnitudeBits_neg bounded
  have negated : isFinite (-value) = true := by simpa only [isFinite, magnitudeIs] using bounded
  rw [display_eq_text bounded nonzero, display_eq_text negated (magnitudeIs ▸ nonzero),
    magnitudeIs, Binary64.isNegative_neg bounded, String.toList_ofList, String.toList_ofList,
    toggled_text_figuresOfBits]

/-- What is displayed for finite numbers keeps their order: no smaller number is displayed as a
larger one than a larger number. And the negative of a number other than zero is displayed as the
number is, with the minus sign in front toggled. -/
theorem display_ordered {x : Float} (bounded : isFinite x = true) :
    (∀ y, isFinite y = true → x ≤ y →
      ∃ lower upper, denoted? (display x).toList = some lower ∧
        denoted? (display y).toList = some upper ∧ lower ≤ upper) ∧
    (isZero x = false → (display (-x)).toList = toggled (display x).toList) := by
  refine ⟨fun y boundedOther ordered => ?_, fun notZero => ?_⟩
  · refine ⟨_, _, denoted_display_of_isFinite bounded, denoted_display_of_isFinite boundedOther, ?_⟩
    exact signed_shownAmount_le ((Binary64.le_iff_signedBits bounded boundedOther).mp ordered)
  · exact display_neg bounded (by simpa [isZero] using notZero)

/-- Where the count of digits changes, at the number nearest to a millionth, the number next to it
is not displayed as a larger one, and it is displayed alike with a sign. -/
theorem display_ordered_of_millionth :
    let x := ofMagnitude false 0x3EB0C6F7A0B5ED8C
    let y := ofMagnitude false 0x3EB0C6F7A0B5ED8D
    display x = "9.999999999999997e-7" ∧ display y = "0.000001" ∧ isFinite x = true ∧
      isFinite y = true ∧ x ≤ y ∧
      (∃ lower upper, denoted? (display x).toList = some lower ∧
        denoted? (display y).toList = some upper ∧ lower ≤ upper) ∧
      isZero x = false ∧ (display (-x)).toList = toggled "9.999999999999997e-7".toList := by
  intro x y
  have text : display x = "9.999999999999997e-7" := by decide +kernel
  have bounded : isFinite x = true := by decide +kernel
  have boundedOther : isFinite y = true := by decide +kernel
  have ordered : x ≤ y := by decide +kernel
  have notZero : isZero x = false := by decide +kernel
  obtain ⟨keeps, signs⟩ := display_ordered bounded
  exact ⟨text, by decide +kernel, bounded, boundedOther, ordered, keeps y boundedOther ordered,
    notZero, text ▸ signs notZero⟩

end PanelCalc.Decimal
