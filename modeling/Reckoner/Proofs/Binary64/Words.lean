import Mathlib
import Reckoner.Binary64.Basic
import Reckoner.Proofs.Values.Digits

namespace Reckoner.Binary64

open Float.Model (Format)
open Float.Model.UnpackedFloat

abbrev Word := BitVec Format.binary64.numBits

theorem packComponents_unpacked (w : Word) :
    packComponents .binary64 (Sign.ofBitVec (unpackSign w)) (unpackExponent w) (unpackMantissa w) =
      w := by
  have sign (s : BitVec 1) : (Sign.ofBitVec s).toBitVec = s := by
    revert s
    decide
  simp only [packComponents, sign, unpackSign, unpackExponent, unpackMantissa, BitVec.extractLsb]
  ext i within
  grind

theorem packComponents_of_parts {w : Word} {e : BitVec 11} {m : BitVec 52}
    (exponent : unpackExponent w = e) (mantissa : unpackMantissa w = m) :
    packComponents .binary64 (Sign.ofBitVec (unpackSign w)) e m = w := by
  rw [← exponent, ← mantissa]
  exact packComponents_unpacked w

theorem log2_of_hidden (m : BitVec 52) :
    (1#1 ++ m).toNat = 2 ^ 52 + m.toNat ∧ (1#1 ++ m).toNat.log2 = 52 := by
  have small := m.isLt
  have whole : (1#1 ++ m).toNat = 2 ^ 52 + m.toNat := by
    rw [BitVec.toNat_append, ← Nat.shiftLeft_add_eq_or_of_lt small]
    rfl
  refine ⟨whole, (Nat.log2_eq_iff (by omega)).mpr ?_⟩
  omega

theorem pack_unpack {w : Word} (finite : unpackExponent w ≠ -1#_) :
    pack .binary64 (unpack .binary64 w) = w := by
  have mantissa := (unpackMantissa w).isLt
  have exponent := (unpackExponent w).isLt
  have notOnes : (unpackExponent w).toNat ≠ 2047 := fun ones => finite (BitVec.eq_of_toNat_eq ones)
  have bits : 2 ^ Format.binary64.exponentBits = 2048 := rfl
  have bias : (Format.binary64.exponentBias : Int) = 1023 := rfl
  have width : (Format.binary64.mantissaBitsWithoutImplicit : Int) = 52 := rfl
  have precision : Format.binary64.mantissaBits = 53 := rfl
  rw [unpack, if_neg finite]
  split
  · rename_i low
    split
    · rename_i zero
      exact packComponents_of_parts low zero
    · rename_i some
      have least : (unpackExponent w).toNat = 0 := congrArg BitVec.toNat low
      have log : (unpackMantissa w).toNat.log2 < 52 := by
        refine (Nat.log2_lt ?_).mpr mantissa
        exact fun none => some (BitVec.eq_of_toNat_eq none)
      have biased : ((unpackExponent w).toNat - (Format.binary64.exponentBias +
          Format.binary64.mantissaBitsWithoutImplicit) + 1 + Format.binary64.exponentBias +
          Format.binary64.mantissaBitsWithoutImplicit : Int).toNat = 1 := by
        omega
      simp only [pack, biased]
      rw [if_neg (by decide), if_neg (by omega)]
      refine packComponents_of_parts low ?_
      rw [BitVec.ofNat_toNat, BitVec.setWidth_eq]
  · rename_i high
    have positive : (unpackExponent w).toNat ≠ 0 := fun none => high (BitVec.eq_of_toNat_eq none)
    obtain ⟨whole, log⟩ := log2_of_hidden (unpackMantissa w)
    have biased : ((unpackExponent w).toNat - (Format.binary64.exponentBias +
        Format.binary64.mantissaBitsWithoutImplicit) + Format.binary64.exponentBias +
        Format.binary64.mantissaBitsWithoutImplicit : Int).toNat = (unpackExponent w).toNat := by
      omega
    simp only [pack, biased, log]
    rw [if_neg (by omega), if_pos precision.symm]
    refine packComponents_of_parts ?_ ?_
    · rw [BitVec.ofNat_toNat, BitVec.setWidth_eq]
    · apply BitVec.eq_of_toNat_eq
      rw [whole, BitVec.toNat_ofNat]
      change _ = (2 ^ 52 + _) % 2 ^ 52
      omega

theorem toBits_ofBits {word : Nat} (small : word < 2 ^ 64) (finite : word / hiddenBit % 2048 ≠ 2047) :
    (Float.ofBits (UInt64.ofNat word)).toBits = UInt64.ofNat word := by
  refine congrArg UInt64.ofBitVec (pack_unpack ?_)
  intro ones
  have same : (word % 2 ^ 64) >>> 52 % 2 ^ 11 = 2047 := congrArg BitVec.toNat ones
  rw [Nat.mod_eq_of_lt small, Nat.shiftRight_eq_div_pow] at same
  exact finite same

theorem parts_ofBits {word : Nat} (small : word < 2 ^ 64) (finite : word / hiddenBit % 2048 ≠ 2047) :
    parts (Float.ofBits (UInt64.ofNat word)) = .ofWord word := by
  rw [parts, toBits_ofBits small finite, UInt64.toNat_ofNat', Nat.mod_eq_of_lt small]

theorem parts_of_finite {word : Nat} (s : Bool) (finite : word < 2047 * hiddenBit) :
    ∃ m q, parts (Float.ofBits (UInt64.ofNat (word + if s then signBit else 0))) = .finite s m q := by
  unfold hiddenBit at finite
  have sign : decide (signBit ≤ word + if s then signBit else 0) = s := by
    cases s with
    | false =>
      have below : ¬ signBit ≤ word := by
        unfold signBit
        omega
      exact decide_eq_false below
    | true => exact decide_eq_true (Nat.le_add_left ..)
  have exponent : (word + if s then signBit else 0) / hiddenBit % 2048 ≠ 2047 := by
    unfold hiddenBit signBit
    split <;> omega
  have small : (word + if s then signBit else 0) < 2 ^ 64 := by
    unfold signBit
    split <;> omega
  rw [parts_ofBits small exponent]
  unfold Parts.ofWord
  dsimp only
  rw [sign, if_neg exponent]
  by_cases least : (word + if s then signBit else 0) / hiddenBit % 2048 = 0
  · exact ⟨_, _, if_pos least⟩
  · exact ⟨_, _, if_neg least⟩

theorem logTwo_one {n : Nat} (positive : n ≠ 0) : logTwo n 1 = n.log2 := by
  have least : 2 ^ n.log2 ≤ n := Nat.log2_self_le positive
  have one : Nat.log2 1 = 0 := by decide
  have below : 1 * twoTo (n.log2 : Int).toNat ≤ n * twoTo (-(n.log2 : Int)).toNat := by
    have none : (-(n.log2 : Int)).toNat = 0 := by omega
    rw [none, Int.toNat_natCast]
    simpa [twoTo] using least
  simp only [logTwo, one, Int.natCast_zero, Int.sub_zero, if_pos below]

theorem nearestWord_lt {n : Nat} (small : n.log2 < 1023) : nearestWord n 1 < 2047 * hiddenBit := by
  unfold nearestWord
  split
  · decide
  rename_i positive
  have above : n < 2 ^ (n.log2 + 1) := Nat.lt_log2_self
  have place : max (logTwo n 1 - 52) (-1074) = (n.log2 : Int) - 52 := by
    rw [logTwo_one positive]
    omega
  have mantissa (x y : Nat) (next : n.log2 + 1 + x = y + 53) :
      roundHalfEven (n * twoTo x) (1 * twoTo y) ≤ 2 ^ 53 := by
    apply roundHalfEven_le
    calc n * twoTo x < 2 ^ (n.log2 + 1) * 2 ^ x := Nat.mul_lt_mul_of_pos_right above (Nat.two_pow_pos x)
      _ = 1 * twoTo y * 2 ^ 53 := by rw [← Nat.pow_add, next, Nat.pow_add, Nat.one_mul]; rfl
  have bound := mantissa (-((n.log2 : Int) - 52)).toNat ((n.log2 : Int) - 52).toNat (by omega)
  dsimp only
  rw [place]
  unfold hiddenBit
  omega

theorem parts_ofRatio {n k : Nat} (s : Bool) (inside : k ≤ 1023) (small : n < 2 ^ k) :
    ∃ m q, parts (ofRatio s n 1) = .finite s m q := by
  have log : n.log2 < 1023 := by
    rcases Nat.eq_zero_or_pos n with none | positive
    · rw [none]
      decide
    · exact Nat.lt_of_lt_of_le ((Nat.log2_lt (Nat.ne_of_gt positive)).mpr small) inside
  exact parts_of_finite s (nearestWord_lt log)

theorem ofInt?_of_small {n : Int} {k : Nat} (inside : k ≤ 1023) (small : n.natAbs < 2 ^ k) :
    ofInt? n = some (ofRatio (n < 0) n.natAbs 1) := by
  obtain ⟨m, q, finite⟩ := parts_ofRatio (decide (n < 0)) inside small
  have ends : ¬ isInfinite (ofRatio (n < 0) n.natAbs 1) = true := by
    rw [isInfinite, finite]
    exact Bool.false_ne_true
  exact if_neg ends

end Reckoner.Binary64
