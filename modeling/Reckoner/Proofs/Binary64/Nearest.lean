import Mathlib
import Reckoner.Proofs.Binary64.Words
import Reckoner.Proofs.Display.Literals
import Reckoner.Proofs.Rounding.Grid

namespace Reckoner

theorem cast_scaled (n d : Nat) (q : Int) :
    ((n * twoTo (-q).toNat : Nat) : ℚ) / (d * twoTo q.toNat : Nat) = n / d / 2 ^ q := by
  rw [Nat.cast_mul, Nat.cast_mul, cast_twoTo, cast_twoTo, zpow_eq_div two_ne_zero]
  field_simp

namespace Binary64

open Float.Model (Format)
open Float.Model.UnpackedFloat

theorem logTwo_bounds {n d : Nat} (positive : 0 < n) (divisor : 0 < d) :
    (2 : ℚ) ^ logTwo n d ≤ n / d ∧ (n : ℚ) / d < 2 ^ (logTwo n d + 1) := by
  have lowN : (2 : ℚ) ^ (n.log2 : Int) ≤ n := by
    rw [zpow_natCast]
    exact_mod_cast Nat.log2_self_le (Nat.ne_of_gt positive)
  have highN : (n : ℚ) < 2 ^ ((n.log2 : Int) + 1) := by
    exact_mod_cast (Nat.lt_log2_self : n < 2 ^ (n.log2 + 1))
  have lowD : (2 : ℚ) ^ (d.log2 : Int) ≤ d := by
    rw [zpow_natCast]
    exact_mod_cast Nat.log2_self_le (Nat.ne_of_gt divisor)
  have highD : (d : ℚ) < 2 ^ ((d.log2 : Int) + 1) := by
    exact_mod_cast (Nat.lt_log2_self : d < 2 ^ (d.log2 + 1))
  have cast : (0 : ℚ) < d := Nat.cast_pos.mpr divisor
  unfold logTwo
  generalize place : (n.log2 : Int) - d.log2 = k
  have reached : d * twoTo k.toNat ≤ n * twoTo (-k).toNat ↔ (2 : ℚ) ^ k ≤ n / d := by
    have scaled : (0 : ℚ) < 2 ^ (-k).toNat := by positivity
    rw [zpow_eq_div two_ne_zero, div_le_div_iff₀ scaled cast, ← cast_twoTo, ← cast_twoTo,
      mul_comm (twoTo k.toNat : ℚ)]
    exact_mod_cast Iff.rfl
  dsimp only
  split
  · rename_i most
    refine ⟨reached.mp most, ?_⟩
    rw [div_lt_iff₀ cast]
    calc (n : ℚ) < 2 ^ ((n.log2 : Int) + 1) := highN
      _ = 2 ^ (k + 1) * 2 ^ (d.log2 : Int) := by
        rw [← zpow_add₀ two_ne_zero]
        congr 1
        omega
      _ ≤ 2 ^ (k + 1) * d := by gcongr
  · rename_i less
    refine ⟨?_, ?_⟩
    · rw [le_div_iff₀ cast]
      calc (2 : ℚ) ^ (k - 1) * d ≤ 2 ^ (k - 1) * 2 ^ ((d.log2 : Int) + 1) := by gcongr
        _ = 2 ^ (n.log2 : Int) := by
          rw [← zpow_add₀ two_ne_zero]
          congr 1
          omega
        _ ≤ n := lowN
    · rw [Int.sub_add_cancel]
      exact lt_of_not_ge (mt reached.mpr less)

theorem logTwo_eq {n d : Nat} (positive : 0 < n) (divisor : 0 < d) {k : Int}
    (low : (2 : ℚ) ^ k ≤ n / d) (high : (n : ℚ) / d < 2 ^ (k + 1)) : logTwo n d = k := by
  obtain ⟨least, most⟩ := logTwo_bounds positive divisor
  have above := (zpow_lt_zpow_iff_right₀ one_lt_two).mp (lt_of_le_of_lt least high)
  have below := (zpow_lt_zpow_iff_right₀ one_lt_two).mp (lt_of_le_of_lt low most)
  omega

theorem logTwo_lt {n d : Nat} (positive : 0 < n) (divisor : 0 < d) {k : Int}
    (high : (n : ℚ) / d < 2 ^ k) : logTwo n d < k :=
  (zpow_lt_zpow_iff_right₀ one_lt_two).mp (lt_of_le_of_lt (logTwo_bounds positive divisor).1 high)

theorem logTwo_scaled {n d : Nat} (positive : 0 < n) (divisor : 0 < d) {t : ℚ} {q k : Int}
    (value : (n : ℚ) / d = t * 2 ^ q) (low : (2 : ℚ) ^ k ≤ t) (high : t < 2 ^ (k + 1)) :
    logTwo n d = q + k := by
  have unit : (0 : ℚ) < 2 ^ q := by positivity
  refine logTwo_eq positive divisor ?_ ?_
  · rw [value, zpow_add₀ two_ne_zero, mul_comm]
    exact mul_le_mul_of_nonneg_right low unit.le
  · rw [value, add_assoc, zpow_add₀ two_ne_zero, mul_comm t]
    exact mul_lt_mul_of_pos_left high unit

/-- The mantissas and exponents of words: a normal mantissa has the leading bit, and a smaller one has the
    least exponent. -/
structure Normal (m : Nat) (q : Int) : Prop where
  least : -1074 ≤ q
  leading : hiddenBit ≤ m ∨ q = -1074
  below : m < 2 * hiddenBit

/-- A number, in units of the last place, whose nearest double has this mantissa and exponent. Just above
    a power of two the lower neighbour is half as far. -/
structure Near (m : Nat) (q : Int) (t : ℚ) : Prop where
  low : (m : ℚ) - 1 / 2 ≤ t
  high : t ≤ m + 1 / 2
  odd : m % 2 = 1 → (m : ℚ) - 1 / 2 < t ∧ t < m + 1 / 2
  power : m = hiddenBit → -1074 < q → (m : ℚ) - 1 / 4 ≤ t

/-- A quotient is rounded to the mantissa and the exponent of the double that it is near to, or from below
    a power of two to twice the mantissa at the exponent before. -/
theorem nearest_place {n d m : Nat} {q : Int} (positive : 0 < n) (divisor : 0 < d) (normal : Normal m q)
    (near : Near m q (n / d / 2 ^ q)) :
    (max (logTwo n d - 52) (-1074) = q ∧ roundHalfEven (n * twoTo (-q).toNat) (d * twoTo q.toNat) = m) ∨
      (m = hiddenBit ∧ -1074 < q ∧ max (logTwo n d - 52) (-1074) = q - 1 ∧
        roundHalfEven (n * twoTo (-(q - 1)).toNat) (d * twoTo (q - 1).toNat) = 2 * hiddenBit) := by
  obtain ⟨least, leading, below⟩ := normal
  obtain ⟨low, high, odd, power⟩ := near
  have unit : (0 : ℚ) < 2 ^ q := by positivity
  have bits : ((hiddenBit : Nat) : ℚ) = 2 ^ 52 := by norm_num [hiddenBit]
  generalize same : (n : ℚ) / d / 2 ^ q = t at low high odd power
  have value : (n : ℚ) / d = t * 2 ^ q := by rw [← same, div_mul_cancel₀ _ (ne_of_gt unit)]
  have top : t < 2 ^ 53 := by
    have cast : (m : ℚ) + 1 ≤ 2 * hiddenBit := by exact_mod_cast below
    rw [bits] at cast
    linarith
  by_cases reaches : (2 : ℚ) ^ 52 ≤ t ∨ q = -1074
  · refine .inl ⟨?_, ?_⟩
    · by_cases full : (2 : ℚ) ^ 52 ≤ t
      · have log : logTwo n d = q + 52 :=
          logTwo_scaled positive divisor value (by exact_mod_cast full) (by exact_mod_cast top)
        omega
      · have log : logTwo n d < q + 52 := by
          refine logTwo_lt positive divisor ?_
          rw [value, zpow_add₀ two_ne_zero, mul_comm t]
          exact mul_lt_mul_of_pos_left (by exact_mod_cast lt_of_not_ge full) unit
        have lowest := reaches.resolve_left full
        omega
    · have scaled := cast_scaled n d q
      rw [same] at scaled
      exact roundHalfEven_eq (Nat.mul_pos divisor (twoTo_pos _)) (scaled ▸ low) (scaled ▸ high)
        (scaled ▸ odd)
  -- below a power of two the last place is half as large
  · obtain ⟨short, other⟩ := not_or.mp reaches
    have short := lt_of_not_ge short
    have exact : m = hiddenBit := by
      have cast : (m : ℚ) < hiddenBit + 1 := by
        rw [bits]
        linarith
      have least : m < hiddenBit + 1 := by exact_mod_cast cast
      omega
    have close := power exact (by omega)
    rw [exact, bits] at close
    refine .inr ⟨exact, by omega, ?_, ?_⟩
    · have half : (2 : ℚ) ^ (51 : Int) ≤ t := by
        norm_num at close ⊢
        linarith
      have log : logTwo n d = q + 51 := logTwo_scaled positive divisor value half (by exact_mod_cast short)
      omega
    · have scaled := cast_scaled n d (q - 1)
      have double : (n : ℚ) / d / 2 ^ (q - 1) = 2 * t := by
        rw [value, zpow_sub_one₀ two_ne_zero]
        field_simp
      rw [double] at scaled
      have cast : ((2 * hiddenBit : Nat) : ℚ) = 2 * 2 ^ 52 := by rw [Nat.cast_mul, bits, Nat.cast_two]
      refine roundHalfEven_eq (Nat.mul_pos divisor (twoTo_pos _)) ?_ ?_ nofun
      · rw [scaled, cast]
        linarith
      · rw [scaled, cast]
        linarith

def magnitudeWord (m : Nat) (q : Int) : Nat := (q + 1074).toNat * hiddenBit + m

/-- A number is rounded to the word of the double that it is near to. -/
theorem nearestWord_of_near {n d m : Nat} {q : Int} (positive : 0 < n) (divisor : 0 < d)
    (normal : Normal m q) (finite : magnitudeWord m q ≤ 2047 * hiddenBit)
    (near : Near m q (n / d / 2 ^ q)) : nearestWord n d = magnitudeWord m q := by
  unfold nearestWord
  rw [if_neg (Nat.ne_of_gt positive)]
  dsimp only
  rcases nearest_place positive divisor normal near with ⟨place, rounded⟩ | ⟨rfl, above, place, rounded⟩
  · rw [place, rounded]
    exact Nat.min_eq_left finite
  · rw [place, rounded]
    have same : (q - 1 + 1074).toNat * hiddenBit + 2 * hiddenBit = magnitudeWord hiddenBit q := by
      unfold magnitudeWord hiddenBit
      omega
    rw [same]
    exact Nat.min_eq_left finite

theorem eq_of_toBits {x y : Float} (same : x.toBits = y.toBits) : x = y := by
  obtain ⟨⟨word, valid⟩⟩ := x
  obtain ⟨⟨word', valid'⟩⟩ := y
  cases (same : word = word')
  rfl

variable {x : Float} {s : Bool} {m : Nat} {q : Int}

theorem normal_of_parts (finite : parts x = .finite s m q) :
    Normal m q ∧ magnitudeWord m q < 2047 * hiddenBit ∧
      x.toBits.toNat = magnitudeWord m q + if s then signBit else 0 := by
  have small : x.toBits.toNat < 2 ^ 64 := x.toBits.toNat_lt
  unfold parts Parts.ofWord at finite
  generalize x.toBits.toNat = word at small finite ⊢
  dsimp only at finite
  have sign : word = word % signBit + if decide (signBit ≤ word) then signBit else 0 := by
    simp only [decide_eq_true_eq]
    unfold signBit
    split <;> omega
  unfold hiddenBit at finite
  split at finite
  · split at finite <;> cases finite
  split at finite <;> cases finite
  · have magnitude : magnitudeWord (word % 4503599627370496) (-1074) = word % signBit := by
      unfold magnitudeWord hiddenBit signBit
      omega
    rw [magnitude]
    refine ⟨⟨by omega, .inr rfl, ?_⟩, ?_, sign⟩ <;> unfold hiddenBit <;> unfold signBit at * <;> omega
  · have magnitude : magnitudeWord (4503599627370496 + word % 4503599627370496)
        ((word / 4503599627370496 % 2048 : Nat) - 1075) = word % signBit := by
      unfold magnitudeWord hiddenBit signBit
      omega
    rw [magnitude]
    refine ⟨⟨by omega, .inl ?_, ?_⟩, ?_, sign⟩ <;> unfold hiddenBit <;> unfold signBit at * <;> omega

theorem ofBits_of_parts (finite : parts x = .finite s m q) :
    Float.ofBits (UInt64.ofNat (magnitudeWord m q + if s then signBit else 0)) = x := by
  obtain ⟨-, below, word⟩ := normal_of_parts finite
  apply eq_of_toBits
  rw [← word, toBits_ofBits x.toBits.toNat_lt, UInt64.ofNat_toNat]
  rw [word]
  unfold hiddenBit signBit at *
  split <;> omega

theorem infinity_of_parts (infinite : parts x = .infinity s) : infinity s = x := by
  have small : x.toBits.toNat < 2 ^ 64 := x.toBits.toNat_lt
  have toBits : ∀ s, (infinity s).toBits = if s then 0xFFF0000000000000 else 0x7FF0000000000000 := by decide
  apply eq_of_toBits
  rw [toBits, ← UInt64.toNat_inj]
  unfold parts Parts.ofWord at infinite
  generalize x.toBits.toNat = word at small infinite ⊢
  unfold hiddenBit signBit at infinite
  dsimp only at infinite
  split at infinite
  · split at infinite <;> cases infinite
    simp only [decide_eq_true_eq]
    split
    · show 18442240474082181120 = word
      omega
    · show 9218868437227405312 = word
      omega
  · split at infinite <;> cases infinite

theorem nan_of_parts (none : parts x = .nan) : nan = x := by
  have digits : parts x = .nan →
      x.toBits.toNat / hiddenBit % 2048 = 2047 ∧ x.toBits.toNat % hiddenBit ≠ 0 := by
    unfold parts Parts.ofWord
    dsimp only
    split
    · rename_i ones
      split
      · nofun
      · rename_i some
        exact fun _ => ⟨ones, some⟩
    · split <;> nofun
  obtain ⟨ones, some⟩ := digits none
  obtain ⟨⟨word, valid⟩⟩ := x
  have exponent : @unpackExponent .binary64 word.toBitVec = -1#_ := by
    refine BitVec.eq_of_toNat_eq ?_
    change word.toNat >>> 52 % 2 ^ 11 = 2047
    rw [Nat.shiftRight_eq_div_pow]
    exact ones
  have mantissa : @unpackMantissa .binary64 word.toBitVec ≠ 0#_ := fun zero => some (congrArg BitVec.toNat zero)
  have canonical : word.toBitVec = nan.toBits.toBitVec :=
    (valid.eq_packedNaN exponent mantissa).trans (by decide)
  exact eq_of_toBits (UInt64.toBitVec_inj.mp canonical).symm

end Binary64

end Reckoner
