import PanelCalc.Binary64.Bits
import PanelCalc.Proofs.Decimal.Displayed

/-!
# Reading decimal numbers

Which binary64 number a decimal number is read as: `Reads`. Every decimal number is read as some
binary64 number: `exists_reads`. If that one is finite, no magnitude at all is nearer to the number:
`Reads.nearest`.
-/

namespace PanelCalc.Decimal

open Binary64 (amountOfBits amountOfBits_strictMono infinityBits isFinite isNegative isUndefined
  largestBits magnitudeBits nearestBits ofMagnitude rangeEnd unitsOfBits unitsPerOne)

/-- `Reads number value` says that a decimal number is read as a binary64 number. A number that is
not too large is read as the nearest finite one, and in the middle between two as the one whose last
bit is zero. All others are read as infinite. Zero is read without a sign. -/
inductive Reads (number : ℚ) (value : Float) : Prop where
  | finite (inRange : |number| < rangeEnd) (bounded : isFinite value = true)
      (sign : isNegative value = decide (number < 0))
      (nearest : ∀ other : Float, isFinite other = true →
        |exact value - number| ≤ |exact other - number| ∧
          (|exact value - number| = |exact other - number| →
            magnitudeBits value = magnitudeBits other ∨ magnitudeBits value % 2 = 0))
  | infinite (beyond : rangeEnd ≤ |number|) (unbounded : isFinite value = false)
      (defined : isUndefined value = false) (sign : isNegative value = decide (number < 0))

/-- The distance between two numbers of the same sign is that between their magnitudes. -/
theorem abs_signed_sub (number size : ℚ) :
    |signed (decide (number < 0)) size - number| = |(size - |number|)| := by
  by_cases below : number < 0
  · rw [signed, decide_eq_true below, if_pos rfl, abs_of_neg below, ← abs_neg]
    congr 1
    ring
  · rw [signed, decide_eq_false below, if_neg Bool.false_ne_true,
      abs_of_nonneg (not_lt.mp below)]

/-- A finite magnitude with the sign of a number lies as far from it as their magnitudes do. -/
theorem abs_exact_ofMagnitude_sub (number : ℚ) {bits : Nat} (bounded : bits < infinityBits) :
    |exact (ofMagnitude (decide (number < 0)) bits) - number| =
      |(amountOfBits bits - |number|)| := by
  rw [exact, Binary64.isNegative_ofMagnitude _ bounded, Binary64.magnitudeBits_ofMagnitude _ bounded,
    abs_signed_sub]

theorem isFinite_ofMagnitude (negative : Bool) {bits : Nat} (bounded : bits < infinityBits) :
    isFinite (ofMagnitude negative bits) = true := by
  rw [isFinite, Binary64.magnitudeBits_ofMagnitude negative bounded, decide_eq_true bounded]

/-- A magnitude lies no farther from that of a number than the numbers do. -/
theorem abs_amount_sub_le (number : ℚ) (other : Float) :
    |(amountOfBits (magnitudeBits other) - |number|)| ≤ |exact other - number| := by
  rw [← abs_exact]
  exact abs_abs_sub_abs_le (exact other) number

/-- The magnitude found for a quotient, with the sign of the number, is what the number is read
as. -/
theorem reads_nearestBits {number : ℚ} {num den : Nat} (positive : 0 < den)
    (quotient : |number| = num / den) :
    Reads number (ofMagnitude (decide (number < 0)) (nearestBits (num * unitsPerOne) den)) := by
  by_cases inRange : |number| < rangeEnd
  · obtain ⟨bounded, nearest⟩ := Binary64.nearestBits_amount positive (quotient ▸ inRange)
    rw [← quotient] at nearest
    have distance := abs_exact_ofMagnitude_sub number bounded
    refine .finite inRange (isFinite_ofMagnitude _ bounded)
      (Binary64.isNegative_ofMagnitude _ bounded) fun other _ => ?_
    obtain ⟨near, tie⟩ := nearest (magnitudeBits other)
    have farther := abs_amount_sub_le number other
    rw [distance, Binary64.magnitudeBits_ofMagnitude _ bounded]
    refine ⟨near.trans farther, fun same => tie (near.antisymm ?_)⟩
    rw [same]
    exact farther
  · have limited : nearestBits (num * unitsPerOne) den ≤ infinityBits := Nat.min_le_right _ _
    have isInfinity : nearestBits (num * unitsPerOne) den = infinityBits := by
      refine limited.antisymm (Nat.le_of_not_lt fun bounded => inRange ?_)
      rw [quotient]
      exact (Binary64.nearestBits_units_lt_iff positive).mp bounded
    rw [isInfinity]
    refine .infinite (not_lt.mp inRange) ?_ ?_ ?_
    all_goals cases decide (number < 0) <;> decide +kernel

/-- What a quotient is read as. -/
theorem reads_quotient (num : Nat) {den : Nat} (positive : 0 < den) :
    Reads ((num : ℚ) / den) (ofMagnitude false (nearestBits (num * unitsPerOne) den)) := by
  have nonnegative : (0 : ℚ) ≤ num / den := by positivity
  have reads := reads_nearestBits positive (abs_of_nonneg nonnegative)
  rwa [decide_eq_false (not_lt.mpr nonnegative)] at reads

/-- Every decimal number is read as some binary64 number. -/
theorem exists_reads (number : ℚ) : ∃ value, Reads number value := by
  have quotient : |number| = (|number|.num.natAbs : ℚ) / |number|.den := by
    have numerator : ((|number|.num.natAbs : Int) : ℚ) = |number|.num := by
      rw [Int.natAbs_of_nonneg (Rat.num_nonneg.mpr (abs_nonneg number))]
    rw [← Int.cast_natCast, numerator, Rat.num_div_den]
  exact ⟨_, reads_nearestBits |number|.den_pos quotient⟩

/-- What a number is read as is not finite just when the number lies past the finite range. -/
theorem Reads.isFinite_eq_false_iff {number : ℚ} {value : Float} (reads : Reads number value) :
    isFinite value = false ↔ rangeEnd ≤ |number| := by
  cases reads with
  | finite inRange bounded => simp [bounded, inRange]
  | infinite beyond unbounded => simp [unbounded, beyond]

/-- What a number is read as if it is not too large. -/
theorem Reads.nearest {number : ℚ} {value : Float} (reads : Reads number value)
    (inRange : |number| < rangeEnd) :
    isFinite value = true ∧ isNegative value = decide (number < 0) ∧
      Nearest (magnitudeBits value) |number| := by
  cases reads with
  | infinite beyond => exact absurd inRange (not_lt.mpr beyond)
  | finite _ bounded sign nearest =>
      have amongFinite : ∀ other < infinityBits,
          |(amountOfBits (magnitudeBits value) - |number|)| ≤
            |(amountOfBits other - |number|)| := by
        intro other finite
        rw [← abs_exact_ofMagnitude_sub number finite]
        exact (abs_amount_sub_le number value).trans
          (nearest _ (isFinite_ofMagnitude _ finite)).1
      refine ⟨bounded, sign, fun other => ?_⟩
      rcases Nat.lt_or_ge other infinityBits with finite | larger
      · exact amongFinite other finite
      · -- The range ends in the middle between the largest finite magnitude and the next one.
        refine (amongFinite largestBits (by decide)).trans ?_
        have middle : amountOfBits largestBits + amountOfBits infinityBits = 2 * rangeEnd := by
          rw [amountOfBits, amountOfBits, ← add_div, Binary64.largest_add_infinity,
            mul_div_cancel_right₀ _ Binary64.unitsPerOne_pos.ne']
        have least := amountOfBits_strictMono.monotone larger
        have step := amountOfBits_strictMono (show largestBits < infinityBits by decide)
        rw [abs_of_nonneg (by linarith : 0 ≤ amountOfBits other - |number|)]
        refine abs_le.mpr ⟨?_, ?_⟩
        · linarith
        · linarith

end PanelCalc.Decimal
