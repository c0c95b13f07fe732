import Mathlib
import PanelCalc.Binary64.Bits
import PanelCalc.Proofs.Binary64.Nearest

/-!
# The order of binary64 numbers

A finite number is compared by its sign, the place of its significand and the significand itself.
These make up its bits, so finite numbers are ordered as their bits are, which for negative numbers
are counted downwards: `le_iff_signedBits`.
-/

namespace PanelCalc.Binary64

open Float.Model (Format)
open Float.Model.UnpackedFloat

/-- The bits of a finite number, its sign apart, are zero or a place and a significand at it. -/
theorem unpack_placed (bits : BitVec 64)
    (bounded : @unpackExponent Format.binary64 bits ≠ -1#11) :
    (leadingBit * (@unpackExponent Format.binary64 bits).toNat +
          (@unpackMantissa Format.binary64 bits).toNat = 0 ∧
        unpack Format.binary64 bits = .zero (Sign.ofBitVec (@unpackSign Format.binary64 bits))) ∨
      ∃ (place significand : Nat) (positive : 0 < significand),
        leadingBit * (@unpackExponent Format.binary64 bits).toNat +
          (@unpackMantissa Format.binary64 bits).toNat = place * leadingBit + significand ∧
        significand < 2 * leadingBit ∧ (place = 0 ∨ leadingBit ≤ significand) ∧
        unpack Format.binary64 bits =
          .finite (Sign.ofBitVec (@unpackSign Format.binary64 bits)) significand
            ((place : Int) - binaryPlaces) positive := by
  generalize exponentIs : @unpackExponent Format.binary64 bits = exponent at bounded
  generalize significandIs : @unpackMantissa Format.binary64 bits = significand
  unfold unpack
  simp only [exponentIs, significandIs, leadingBit_eq]
  rw [if_neg bounded]
  have significandSmall : significand.toNat < 2 ^ 52 := significand.isLt
  by_cases lowest : exponent = 0#11
  · subst lowest
    rw [if_pos rfl]
    by_cases zero : significand = 0#52
    · subst zero
      exact .inl ⟨rfl, dif_pos rfl⟩
    · have positive : significand.toNat ≠ 0 := fun same => zero (BitVec.eq_of_toNat_eq same)
      refine .inr ⟨0, significand.toNat, Nat.pos_of_ne_zero positive, ?_, by omega, .inl rfl, ?_⟩
      · simp
      · rw [dif_neg zero]
        rfl
  · have positive : exponent.toNat ≠ 0 := fun same => lowest (BitVec.eq_of_toNat_eq same)
    have appended : (1#1 ++ significand).toNat = 2 ^ 52 + significand.toNat := by
      rw [BitVec.toNat_append]
      have joined := Nat.two_pow_add_eq_or_of_lt significandSmall 1
      simpa using joined.symm
    refine .inr ⟨exponent.toNat - 1, 2 ^ 52 + significand.toNat, by omega, ?_, by omega,
      .inr (by omega), ?_⟩
    · obtain ⟨lower, next⟩ := Nat.exists_eq_succ_of_ne_zero positive
      rw [next]
      omega
    · rw [if_neg lowest]
      have placed : (exponent.toNat : Int) - (Format.binary64.exponentBias +
          Format.binary64.mantissaBitsWithoutImplicit) =
            ((exponent.toNat - 1 : Nat) : Int) - binaryPlaces := by
        change (exponent.toNat : Int) - 1075 = ((exponent.toNat - 1 : Nat) : Int) - 1074
        omega
      congr 1

/-- The sign of a number. -/
def signOf (x : Float) : Sign := if isNegative x then .negative else .positive

/-- `Placed x` says what a number is compared by: it is a zero, or its magnitude bits are made up
of a place and a significand at it. -/
inductive Placed (x : Float) : Prop where
  | zero (sign : Sign) (isZero : magnitudeBits x = 0) (unpacked : x.toModel.unpack = .zero sign)
  | finite (place significand : Nat) (positive : 0 < significand)
      (bits : magnitudeBits x = place * leadingBit + significand)
      (fits : significand < 2 * leadingBit) (normal : place = 0 ∨ leadingBit ≤ significand)
      (unpacked :
        x.toModel.unpack = .finite (signOf x) significand ((place : Int) - binaryPlaces) positive)

theorem placed_of_isFinite {x : Float} (bounded : isFinite x = true) : Placed x := by
  have exponentNe := unpackExponent_ne x.toBits (of_decide_eq_true bounded)
  have whole := congrArg BitVec.toNat (packComponents_unpack x.toBits.toBitVec)
  rw [toNat_packComponents, UInt64.toNat_toBitVec] at whole
  have small : leadingBit * (@unpackExponent Format.binary64 x.toBits.toBitVec).toNat +
      (@unpackMantissa Format.binary64 x.toBits.toBitVec).toNat < signBit := by
    have exponentSmall : (@unpackExponent Format.binary64 x.toBits.toBitVec).toNat < 2 ^ 11 :=
      BitVec.isLt _
    have significandSmall : (@unpackMantissa Format.binary64 x.toBits.toBitVec).toNat < 2 ^ 52 :=
      BitVec.isLt _
    simp only [leadingBit, signBit]
    omega
  have parts := unpack_placed x.toBits.toBitVec exponentNe
  generalize leadingBit * (@unpackExponent Format.binary64 x.toBits.toBitVec).toNat +
      (@unpackMantissa Format.binary64 x.toBits.toBitVec).toNat = bits at *
  have magnitudeIs : magnitudeBits x = bits := by
    rw [magnitudeBits, ← whole, Nat.mul_add_mod, Nat.mod_eq_of_lt small]
  have signIs : Sign.ofBitVec (@unpackSign Format.binary64 x.toBits.toBitVec) = signOf x := by
    simp only [signOf, isNegative, ← whole, decide_eq_true_eq]
    cases Sign.ofBitVec (@unpackSign Format.binary64 x.toBits.toBitVec)
    · exact (if_pos (Nat.le_add_right _ _)).symm
    · have zero : signBit * Sign.positive.toBitVec.toNat = 0 := rfl
      rw [zero, Nat.zero_add, if_neg (Nat.not_le_of_lt small)]
  rw [signIs, ← magnitudeIs] at parts
  rcases parts with
    ⟨isZero, unpacked⟩ | ⟨place, significand, positive, bits, fits, normal, unpacked⟩
  · exact .zero _ isZero unpacked
  · exact .finite place significand positive bits fits normal unpacked

/-- Of two magnitudes the one at the larger place is larger, and at the same place the one with the
larger significand. -/
theorem isLE_places_iff {place significand otherPlace other : Nat}
    (fits : significand < 2 * leadingBit) (otherFits : other < 2 * leadingBit)
    (normal : place = 0 ∨ leadingBit ≤ significand)
    (otherNormal : otherPlace = 0 ∨ leadingBit ≤ other) :
    ((compare ((place : Int) - binaryPlaces) ((otherPlace : Int) - binaryPlaces)).then
        (compare significand other)).isLE = true ↔
      place * leadingBit + significand ≤ otherPlace * leadingBit + other := by
  rw [Ordering.isLE_then_iff_or, Int.compare_eq_lt, Int.compare_eq_eq, Nat.isLE_compare]
  simp only [leadingBit] at *
  omega

/-- The magnitude bits of a number, counted downwards for a negative one. -/
def signedBits (x : Float) : Int :=
  if isNegative x then -(magnitudeBits x : Int) else magnitudeBits x

/-- Numbers are compared as what their bits are unpacked to. -/
theorem le_iff_compare {x y : Float} :
    x ≤ y ↔ (x.toModel.unpack.compare y.toModel.unpack).any (·.isLE) = true :=
  decide_eq_true_iff

/-- Finite numbers are ordered as their bits are. The two zeros are equal. -/
theorem le_iff_signedBits {x y : Float} (bounded : isFinite x = true)
    (boundedOther : isFinite y = true) : x ≤ y ↔ signedBits x ≤ signedBits y := by
  rw [le_iff_compare, signedBits, signedBits]
  rcases placed_of_isFinite bounded with
    ⟨sign, isZero, unpacked⟩ | ⟨place, significand, positive, bits, fits, normal, unpacked⟩
  · rw [unpacked, isZero]
    rcases placed_of_isFinite boundedOther with
      ⟨otherSign, otherZero, otherIs⟩ | ⟨otherPlace, other, otherPos, otherBits, _, _, otherIs⟩
    · rw [otherIs, otherZero]
      simp [Float.Model.UnpackedFloat.compare]
    · have nonzero : magnitudeBits y ≠ 0 := by omega
      rw [otherIs, signOf]
      cases isNegative y <;> simp [Float.Model.UnpackedFloat.compare, nonzero]
  · have nonzero : magnitudeBits x ≠ 0 := by omega
    rw [unpacked, signOf]
    rcases placed_of_isFinite boundedOther with
      ⟨otherSign, otherZero, otherIs⟩ |
        ⟨otherPlace, other, otherPos, otherBits, otherFits, otherNormal, otherIs⟩
    · rw [otherIs, otherZero]
      cases isNegative x <;> simp [Float.Model.UnpackedFloat.compare, nonzero]
    · rw [otherIs, signOf]
      have upwards := isLE_places_iff fits otherFits normal otherNormal
      have downwards := isLE_places_iff otherFits fits otherNormal normal
      rw [← bits, ← otherBits] at upwards downwards
      rw [← Int.compare_swap, ← Nat.compare_swap, ← Ordering.swap_then] at downwards
      cases isNegative x <;> cases isNegative y
      · simpa [Float.Model.UnpackedFloat.compare] using upwards
      · simp [Float.Model.UnpackedFloat.compare]
        omega
      · simp [Float.Model.UnpackedFloat.compare]
      · simpa [Float.Model.UnpackedFloat.compare] using downwards

end PanelCalc.Binary64
