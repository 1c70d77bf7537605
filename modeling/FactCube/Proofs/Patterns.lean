import FactCube.Decimal.Binary64
import Mathlib

/-!
# Patterns of numbers

A number is kept as a pattern of bits, and all patterns that stand for no number are kept as one.
Every other pattern is kept as it is: taking it apart into sign, exponent and fraction and putting
these together again gives it back. So a number made of a sign and a magnitude has that sign and
that magnitude.

Results:
* `Binary64.pack_unpack`: a pattern of a number is given back by its parts.
* `Binary64.magnitude_make`, `Binary64.negative_make`: the parts of a number made of parts.
-/

namespace FactCube.Binary64

open Float.Model (Format UnpackedFloat)
open Float.Model.UnpackedFloat

/-! ## Parts of a pattern -/

theorem toBitVec_ofBitVec (sign : BitVec 1) : (Sign.ofBitVec sign).toBitVec = sign := by
  revert sign
  decide

/-- A pattern is made of its sign, its exponent and its fraction. -/
theorem packComponents_unpack (b : BitVec Format.binary64.numBits) :
    packComponents Format.binary64 (Sign.ofBitVec (unpackSign b)) (unpackExponent b)
      (unpackMantissa b) = b := by
  rw [packComponents, toBitVec_ofBitVec]
  apply BitVec.eq_of_getLsbD_eq
  intro i hi
  have hlt : i < 64 := hi
  simp only [BitVec.getLsbD_append, unpackSign, unpackExponent, unpackMantissa, BitVec.getLsbD_cast,
    BitVec.getLsbD_extractLsb]
  simp only [Nat.reduceAdd, Nat.reduceSub, Nat.sub_zero]
  split
  · rw [decide_eq_true (by omega), Bool.true_and, Nat.zero_add]
  · split
    · rw [decide_eq_true (by omega), Bool.true_and, show 52 + (i - 52) = i by omega]
    · rw [decide_eq_true (by omega), Bool.true_and, show 52 + 11 + (i - 52 - 11) = i by omega]

theorem toNat_unpackExponent (b : BitVec Format.binary64.numBits) :
    (unpackExponent b).toNat = b.toNat / 2 ^ 52 % 2 ^ 11 := by
  rw [unpackExponent, BitVec.toNat_cast, BitVec.extractLsb_toNat, Nat.shiftRight_eq_div_pow]
  rfl

theorem toNat_unpackMantissa (b : BitVec Format.binary64.numBits) :
    (unpackMantissa b).toNat = b.toNat % 2 ^ 52 := by
  rw [unpackMantissa, BitVec.toNat_cast, BitVec.extractLsb_toNat, Nat.shiftRight_zero]
  rfl

/-! ## Putting parts together -/

theorem log2_of_lt {m : Nat} (h : m < 2 ^ 52) : m.log2 < 52 := by
  by_cases hzero : m = 0
  · rw [hzero]
    decide
  · exact (Nat.log2_lt hzero).2 h

theorem toNat_one_append (fraction : BitVec 52) :
    (1#1 ++ fraction).toNat = 2 ^ 52 + fraction.toNat := by
  rw [BitVec.toNat_append, ← Nat.shiftLeft_add_eq_or_of_lt fraction.isLt]
  rfl

theorem log2_one_append (fraction : BitVec 52) : (1#1 ++ fraction).toNat.log2 = 52 := by
  have hlt := fraction.isLt
  have hne : 2 ^ 52 + fraction.toNat ≠ 0 := by omega
  have hle := (Nat.le_log2 hne).2 (show 2 ^ 52 ≤ 2 ^ 52 + fraction.toNat by omega)
  have hgt := (Nat.log2_lt hne).2 (show 2 ^ 52 + fraction.toNat < 2 ^ 53 by omega)
  rw [toNat_one_append]
  omega

/-- In the lowest binade the fraction is the whole significand. -/
theorem pack_subnormal (sign : Sign) (fraction : BitVec 52) (hpos : 0 < fraction.toNat) :
    UnpackedFloat.pack Format.binary64 (.finite sign fraction.toNat (-1074) hpos) =
      packComponents Format.binary64 sign 0#11 fraction := by
  have hlog : ¬fraction.toNat.log2 + 1 = Format.binary64.mantissaBits := by
    have hlt := log2_of_lt fraction.isLt
    show ¬fraction.toNat.log2 + 1 = 53
    omega
  rw [UnpackedFloat.pack, if_neg (by decide), if_neg hlog, BitVec.ofNat_toNat, BitVec.setWidth_eq]

/-- Above it the significand has one more bit, which is not kept. -/
theorem pack_normal (sign : Sign) {exponent : BitVec 11} (fraction : BitVec 52)
    (hexponent : exponent ≠ -1#11) (hpos : 0 < (1#1 ++ fraction).toNat) :
    UnpackedFloat.pack Format.binary64
        (.finite sign (1#1 ++ fraction).toNat (exponent.toNat - 1075) hpos) =
      packComponents Format.binary64 sign exponent fraction := by
  have hbiased : ((exponent.toNat : Int) - 1075 + Format.binary64.exponentBias +
      Format.binary64.mantissaBitsWithoutImplicit).toNat = exponent.toNat := by
    show ((exponent.toNat : Int) - 1075 + 1023 + 52).toNat = exponent.toNat
    omega
  have hsmall : ¬2 ^ 11 ≤ exponent.toNat + 1 := by
    have hlt := exponent.isLt
    have hne : exponent.toNat ≠ 2 ^ 11 - 1 := fun h => hexponent (BitVec.toNat_inj.1 h)
    omega
  have hfraction : BitVec.ofNat 52 (1#1 ++ fraction).toNat = fraction := by
    apply BitVec.eq_of_toNat_eq
    have hlt := fraction.isLt
    rw [BitVec.toNat_ofNat, toNat_one_append]
    omega
  rw [UnpackedFloat.pack]
  simp only [hbiased]
  rw [if_neg hsmall, if_pos (by rw [log2_one_append]; rfl), BitVec.ofNat_toNat, BitVec.setWidth_eq]
  exact congrArg _ hfraction

/-- A pattern that stands for a number is given back by its parts. -/
theorem pack_unpack {b : BitVec Format.binary64.numBits}
    (h : unpackExponent b = -1#_ → unpackMantissa b = 0#_) :
    UnpackedFloat.pack Format.binary64 (UnpackedFloat.unpack Format.binary64 b) = b := by
  have hself := packComponents_unpack b
  rw [UnpackedFloat.unpack]
  simp only
  by_cases hones : unpackExponent b = -1#_
  · rw [if_pos hones, if_pos (h hones)]
    rw [h hones, hones] at hself
    exact hself
  rw [if_neg hones]
  by_cases hzero : unpackExponent b = 0#_
  · rw [if_pos hzero]
    by_cases hfraction : unpackMantissa b = 0#_
    · rw [dif_pos hfraction]
      rw [hfraction, hzero] at hself
      exact hself
    · rw [dif_neg hfraction]
      rw [hzero] at hself ⊢
      exact (pack_subnormal _ _ _).trans hself
  · rw [if_neg hzero]
    exact (pack_normal _ _ hones _).trans hself

/-! ## Numbers made of parts -/

theorem toBits_ofBits {bits : UInt64} (h : bits.toNat % signBit ≤ infinite) :
    (Float.ofBits bits).toBits = bits := by
  have hnumber : @unpackExponent Format.binary64 bits.toBitVec = -1#11 →
      @unpackMantissa Format.binary64 bits.toBitVec = 0#52 := by
    intro hones
    have hexponent : bits.toNat / 2 ^ 52 % 2 ^ 11 = 2047 := by
      have heq := congrArg BitVec.toNat hones
      rw [toNat_unpackExponent] at heq
      exact heq
    apply BitVec.eq_of_toNat_eq
    rw [toNat_unpackMantissa]
    show bits.toNat % 2 ^ 52 = 0
    simp only [signBit, infinite, binade] at h
    omega
  show UInt64.ofBitVec (UnpackedFloat.pack Format.binary64
    (UnpackedFloat.unpack Format.binary64 bits.toBitVec)) = bits
  rw [pack_unpack hnumber]

theorem toNat_toBits_make {sign : Bool} {m : Nat} (h : m ≤ infinite) :
    (make sign m).toBits.toNat = (if sign then signBit else 0) + m := by
  simp only [infinite, binade] at h
  have hnat : (UInt64.ofNat (if sign then signBit + m else m)).toNat =
      (if sign then signBit else 0) + m := by
    rw [UInt64.toNat_ofNat_of_lt']
    · cases sign <;> simp
    · show _ < 2 ^ 64
      simp only [signBit]
      split <;> omega
  rw [make, toBits_ofBits, hnat]
  rw [hnat]
  simp only [signBit, infinite, binade]
  split <;> omega

theorem magnitude_make {sign : Bool} {m : Nat} (h : m ≤ infinite) :
    magnitude (make sign m) = m := by
  rw [magnitude, toNat_toBits_make h]
  simp only [signBit, infinite, binade] at *
  split <;> omega

theorem negative_make {sign : Bool} {m : Nat} (h : m ≤ infinite) :
    negative (make sign m) = sign := by
  rw [negative, toNat_toBits_make h]
  simp only [signBit, infinite, binade] at *
  cases sign with
  | false =>
    simp only [Bool.false_eq_true, if_false, decide_eq_false_iff_not]
    omega
  | true =>
    simp only [if_true, decide_eq_true_eq]
    omega

end FactCube.Binary64
