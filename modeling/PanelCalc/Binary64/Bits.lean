import Mathlib
import PanelCalc.Binary64.Units

/-!
# Bit patterns of binary64 numbers

The bits of a number can be read back from it. `toBits_ofBits` says so for every bit pattern of a
finite number; `magnitudeBits_ofMagnitude` and `isNegative_ofMagnitude` say it for a sign and
magnitude bits.
-/

namespace PanelCalc.Binary64

open Float.Model (Format)
open Float.Model.UnpackedFloat

/-- Sign, exponent and significand make up the whole bit pattern. -/
theorem packComponents_unpack (bits : BitVec 64) :
    packComponents Format.binary64 (Sign.ofBitVec (@unpackSign Format.binary64 bits))
      (@unpackExponent Format.binary64 bits) (@unpackMantissa Format.binary64 bits) = bits := by
  have signs : ∀ sign : BitVec 1, (Sign.ofBitVec sign).toBitVec = sign := by decide
  unfold packComponents
  rw [signs]
  apply BitVec.eq_of_getLsbD_eq
  intro place inside
  have inside : place < 64 := inside
  simp only [BitVec.getLsbD_append, unpackSign, unpackExponent, unpackMantissa,
    BitVec.getLsbD_cast, BitVec.getLsbD_extractLsb, Format.binary64]
  by_cases low : place < 52
  · simp [low]
  · by_cases middle : place < 63
    · have offset : place - 52 < 11 := by omega
      have restored : 52 + (place - 52) = place := by omega
      simp [low, offset, restored]
    · have top : place = 63 := by omega
      subst top
      simp
      exact BitVec.getLsbD_eq_getElem inside

/-- Unless the exponent is that of infinity, a bit pattern unpacks to a value of its sign, and
packing that value with either sign gives the pattern with that sign. -/
theorem unpack_signed (bits : BitVec 64)
    (bounded : @unpackExponent Format.binary64 bits ≠ -1#11) :
    ∃ signed : Sign → Float.Model.UnpackedFloat,
      unpack Format.binary64 bits = signed (Sign.ofBitVec (@unpackSign Format.binary64 bits)) ∧
      (∀ sign, (signed sign).neg = signed (-sign)) ∧
      ∀ sign, pack Format.binary64 (signed sign) =
        packComponents Format.binary64 sign (@unpackExponent Format.binary64 bits)
          (@unpackMantissa Format.binary64 bits) := by
  generalize exponentIs : @unpackExponent Format.binary64 bits = exponent at bounded
  generalize significandIs : @unpackMantissa Format.binary64 bits = significand
  unfold unpack
  simp only [exponentIs, significandIs]
  rw [if_neg bounded]
  have significandSmall : significand.toNat < 2 ^ 52 := significand.isLt
  have exponentSmall : exponent.toNat < 2 ^ 11 := exponent.isLt
  have exponentNe : exponent.toNat ≠ 2047 := by
    intro same
    apply bounded
    apply BitVec.eq_of_toNat_eq
    rw [same]
    rfl
  by_cases lowest : exponent = 0#11
  · subst lowest
    rw [if_pos rfl]
    by_cases zero : significand = 0#52
    · subst zero
      rw [dif_pos rfl]
      exact ⟨.zero, rfl, fun _ => rfl, fun _ => rfl⟩
    · rw [dif_neg zero]
      refine ⟨fun sign => .finite sign _ _ _, rfl, fun _ => rfl, fun sign => ?_⟩
      have positive : significand.toNat ≠ 0 := fun same => zero (BitVec.eq_of_toNat_eq same)
      have short : significand.toNat.log2 < 52 := (Nat.log2_lt positive).2 significandSmall
      have biased :
          ((((0#11).toNat : Nat) : Int)
              - (↑(Format.exponentBias Format.binary64)
                + ↑(Format.binary64.mantissaBitsWithoutImplicit))
              + 1 + ↑(Format.exponentBias Format.binary64)
              + ↑(Format.binary64.mantissaBitsWithoutImplicit)).toNat = 1 := by decide
      unfold pack
      simp only [biased]
      rw [if_neg (by decide), if_neg]
      · have back : BitVec.ofNat 52 significand.toNat = significand := by
          apply BitVec.eq_of_toNat_eq
          rw [BitVec.toNat_ofNat]
          exact Nat.mod_eq_of_lt significandSmall
        change packComponents Format.binary64 sign (0#11) (BitVec.ofNat 52 significand.toNat) = _
        rw [back]
      · change ¬ _ = 53
        omega
  · rw [if_neg lowest]
    refine ⟨fun sign => .finite sign _ _ _, rfl, fun _ => rfl, fun sign => ?_⟩
    have positive : exponent.toNat ≠ 0 := fun same => lowest (BitVec.eq_of_toNat_eq same)
    have appended : (1#1 ++ significand).toNat = 2 ^ 52 + significand.toNat := by
      rw [BitVec.toNat_append]
      have joined := Nat.two_pow_add_eq_or_of_lt significandSmall 1
      simpa using joined.symm
    have full : (2 ^ 52 + significand.toNat).log2 = 52 := by
      rw [Nat.log2_eq_iff (by omega)]
      omega
    have biased :
        ((exponent.toNat : Int)
            - (↑(Format.exponentBias Format.binary64)
              + ↑(Format.binary64.mantissaBitsWithoutImplicit))
            + ↑(Format.exponentBias Format.binary64)
            + ↑(Format.binary64.mantissaBitsWithoutImplicit)).toNat = exponent.toNat := by omega
    unfold pack
    simp only [biased, appended, full]
    rw [if_neg, if_pos]
    · have back : BitVec.ofNat 52 (2 ^ 52 + significand.toNat) = significand := by
        apply BitVec.eq_of_toNat_eq
        rw [BitVec.toNat_ofNat]
        omega
      have exponentBack : BitVec.ofNat 11 exponent.toNat = exponent := by
        apply BitVec.eq_of_toNat_eq
        rw [BitVec.toNat_ofNat]
        exact Nat.mod_eq_of_lt exponentSmall
      change packComponents Format.binary64 sign (BitVec.ofNat 11 exponent.toNat)
          (BitVec.ofNat 52 (2 ^ 52 + significand.toNat)) = _
      rw [back, exponentBack]
    · decide
    · omega

/-- Packing undoes unpacking unless the exponent is that of infinity. -/
theorem pack_unpack (bits : BitVec 64)
    (bounded : @unpackExponent Format.binary64 bits ≠ -1#11) :
    pack Format.binary64 (unpack Format.binary64 bits) = bits := by
  obtain ⟨signed, unpacked, _, packed⟩ := unpack_signed bits bounded
  rw [unpacked, packed, packComponents_unpack]

/-- The exponent of a bit pattern below infinity is not the one of infinity. -/
theorem unpackExponent_ne (bits : UInt64) (bounded : bits.toNat % signBit < infinityBits) :
    @unpackExponent Format.binary64 bits.toBitVec ≠ -1#11 := by
  intro same
  have numbers := congrArg BitVec.toNat same
  simp only [unpackExponent, BitVec.toNat_cast, BitVec.extractLsb_toNat, Format.binary64,
    Nat.shiftRight_eq_div_pow, UInt64.toNat_toBitVec] at numbers
  simp only [infinityBits, signBit, leadingBit] at bounded
  simp at numbers
  omega

/-- The bits of a finite number can be read back from it. -/
theorem toBits_ofBits (bits : UInt64) (bounded : bits.toNat % signBit < infinityBits) :
    (Float.ofBits bits).toBits = bits := by
  change UInt64.ofBitVec (pack Format.binary64 (unpack Format.binary64 bits.toBitVec)) = bits
  rw [pack_unpack bits.toBitVec (unpackExponent_ne bits bounded)]

/-- The bits given to `ofMagnitude` as a whole. -/
theorem toBits_ofMagnitude (negative : Bool) {bits : Nat} (bounded : bits < infinityBits) :
    (ofMagnitude negative bits).toBits.toNat = if negative then signBit + bits else bits := by
  simp only [infinityBits, leadingBit] at bounded
  have small : (if negative then signBit + bits else bits) < 2 ^ 64 := by
    simp only [signBit]
    split <;> omega
  have kept : (UInt64.ofNat (if negative then signBit + bits else bits)).toNat =
      if negative then signBit + bits else bits := UInt64.toNat_ofNat_of_lt' small
  rw [ofMagnitude, toBits_ofBits, kept]
  rw [kept]
  simp only [infinityBits, signBit, leadingBit]
  split <;> omega

theorem magnitudeBits_ofMagnitude (negative : Bool) {bits : Nat} (bounded : bits < infinityBits) :
    magnitudeBits (ofMagnitude negative bits) = bits := by
  rw [magnitudeBits, toBits_ofMagnitude negative bounded]
  simp only [infinityBits, signBit, leadingBit] at bounded ⊢
  split <;> omega

theorem isNegative_ofMagnitude (negative : Bool) {bits : Nat} (bounded : bits < infinityBits) :
    isNegative (ofMagnitude negative bits) = negative := by
  rw [isNegative, toBits_ofMagnitude negative bounded]
  simp only [infinityBits, leadingBit] at bounded
  cases negative
  · apply decide_eq_false
    simp only [signBit, Bool.false_eq_true, if_false]
    omega
  · exact decide_eq_true (Nat.le_add_right _ _)

/-- The number that a sign, an exponent and a significand make up as a bit pattern. -/
theorem toNat_packComponents (sign : Sign) (exponent : BitVec 11) (significand : BitVec 52) :
    (packComponents Format.binary64 sign exponent significand).toNat =
      signBit * sign.toBitVec.toNat + (leadingBit * exponent.toNat + significand.toNat) := by
  have exponentSmall : exponent.toNat < 2 ^ 11 := exponent.isLt
  have significandSmall : significand.toNat < 2 ^ 52 := significand.isLt
  change (sign.toBitVec ++ exponent ++ significand).toNat = _
  rw [BitVec.toNat_append, BitVec.toNat_append, Nat.shiftLeft_eq, Nat.shiftLeft_eq,
    Nat.mul_comm _ (2 ^ 11), ← Nat.two_pow_add_eq_or_of_lt exponentSmall,
    Nat.mul_comm _ (2 ^ 52), ← Nat.two_pow_add_eq_or_of_lt significandSmall]
  simp only [signBit, leadingBit]
  omega

/-- Negation changes the sign bit of a finite number and nothing else. -/
theorem toBits_neg {x : Float} (bounded : isFinite x = true) :
    (-x).toBits.toNat = if isNegative x then magnitudeBits x else signBit + magnitudeBits x := by
  have exponentNe := unpackExponent_ne x.toBits (of_decide_eq_true bounded)
  obtain ⟨signed, unpacked, negated, packed⟩ := unpack_signed x.toBits.toBitVec exponentNe
  have whole := congrArg BitVec.toNat (packComponents_unpack x.toBits.toBitVec)
  change (pack Format.binary64 (unpack Format.binary64 x.toBits.toBitVec).neg).toNat = _
  rw [unpacked, negated, packed, toNat_packComponents]
  rw [toNat_packComponents, UInt64.toNat_toBitVec] at whole
  have exponentSmall : (@unpackExponent Format.binary64 x.toBits.toBitVec).toNat < 2 ^ 11 :=
    BitVec.isLt _
  have significandSmall : (@unpackMantissa Format.binary64 x.toBits.toBitVec).toNat < 2 ^ 52 :=
    BitVec.isLt _
  simp only [isNegative, magnitudeBits, ← whole, signBit, leadingBit, decide_eq_true_eq]
  cases Sign.ofBitVec (@unpackSign Format.binary64 x.toBits.toBitVec)
  · have one : Sign.negative.toBitVec.toNat = 1 := rfl
    have zero : (-Sign.negative).toBitVec.toNat = 0 := rfl
    rw [one, zero, if_pos (by omega)]
    omega
  · have zero : Sign.positive.toBitVec.toNat = 0 := rfl
    have one : (-Sign.positive).toBitVec.toNat = 1 := rfl
    rw [one, zero, if_neg (by omega)]
    omega

theorem magnitudeBits_neg {x : Float} (bounded : isFinite x = true) :
    magnitudeBits (-x) = magnitudeBits x := by
  have small : magnitudeBits x < signBit := Nat.mod_lt _ (by decide)
  rw [magnitudeBits, toBits_neg bounded]
  split
  · exact Nat.mod_eq_of_lt small
  · rw [Nat.add_mod_left, Nat.mod_eq_of_lt small]

theorem isNegative_neg {x : Float} (bounded : isFinite x = true) :
    isNegative (-x) = !isNegative x := by
  have small : magnitudeBits x < signBit := Nat.mod_lt _ (by decide)
  rw [isNegative, toBits_neg bounded]
  cases isNegative x
  · exact decide_eq_true (Nat.le_add_right _ _)
  · exact decide_eq_false (Nat.not_le_of_lt small)

end PanelCalc.Binary64
