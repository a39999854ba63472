import Reckoner.Binary64.Text
import Reckoner.Proofs.Binary64.Nearest

namespace Reckoner

namespace Binary64

variable {m : Nat} {q : Int}

theorem near_of_contains {n d : Nat} (positive : 0 < m) (divisor : 0 < d)
    (inside : (interval m q).contains n d = true) : Near m q ((n : ℚ) / d / 4) := by
  have cast : (0 : ℚ) < d := Nat.cast_pos.mpr divisor
  have bounds : ((interval m q).low : ℚ) ≤ n / d ∧ (n : ℚ) / d ≤ (interval m q).high := by
    rw [le_div_iff₀ cast, div_le_iff₀ cast]
    unfold Interval.contains at inside
    split at inside <;> simp only [Bool.and_eq_true, decide_eq_true_eq] at inside
    · exact ⟨by exact_mod_cast inside.1, by exact_mod_cast inside.2⟩
    · exact ⟨by exact_mod_cast inside.1.le, by exact_mod_cast inside.2.le⟩
  have strict (odd : m % 2 = 1) :
      ((interval m q).low : ℚ) < n / d ∧ (n : ℚ) / d < (interval m q).high := by
    have ends : (interval m q).ends = false := decide_eq_false (by omega)
    rw [lt_div_iff₀ cast, div_lt_iff₀ cast]
    rw [Interval.contains, ends, if_neg Bool.false_ne_true] at inside
    simp only [Bool.and_eq_true, decide_eq_true_eq] at inside
    exact ⟨by exact_mod_cast inside.1, by exact_mod_cast inside.2⟩
  have high : ((interval m q).high : ℚ) = 4 * m + 2 := by simp [interval]
  have low : 4 * (m : ℚ) - 2 ≤ (interval m q).low := by
    unfold interval
    dsimp only
    split <;> push_cast [Nat.cast_sub (show 1 ≤ 4 * m by omega), Nat.cast_sub (show 2 ≤ 4 * m by omega)] <;>
      linarith
  refine ⟨?_, ?_, fun odd => ⟨?_, ?_⟩, fun power above => ?_⟩
  · linarith [bounds.1]
  · linarith [bounds.2]
  · linarith [(strict odd).1]
  · linarith [(strict odd).2]
  · have close : ((interval m q).low : ℚ) = 4 * m - 1 := by
      unfold interval
      dsimp only
      rw [if_pos ⟨power, above⟩]
      push_cast [Nat.cast_sub (show 1 ≤ 4 * m by omega)]
      rfl
    linarith [bounds.1]

theorem neighbour?_inside {v d c : Nat} {inside : Nat → Bool} (found : neighbour? v d inside = some c) :
    inside c = true := by
  unfold neighbour? at found
  dsimp only at found
  split at found
  · cases found
  · rename_i below _
    cases found
    exact below
  · rename_i above
    cases found
    exact above
  · rename_i below above
    cases found
    unfold roundHalfEven Rounding.quotient
    split
    · exact above
    · exact below

theorem cast_grid (c : Nat) (q e : Int) :
    ((c * (tenTo e.toNat * twoTo (2 - q).toNat) : Nat) : ℚ) /
      ((tenTo (-e).toNat * twoTo (q - 2).toNat : Nat) : ℚ) / 4 = c * 10 ^ e / 2 ^ q := by
  have ten : (10 : ℚ) ^ e = _ := zpow_eq_div (by norm_num) e
  have two : (2 : ℚ) ^ (2 - q) = _ := zpow_eq_div two_ne_zero (2 - q)
  have four : (2 : ℚ) ^ q = 4 / 2 ^ (2 - q) := by
    rw [zpow_sub₀ two_ne_zero]
    norm_num
  rw [four, ten, two, show -(2 - q) = q - 2 by omega]
  push_cast
  rw [cast_tenTo, cast_tenTo, cast_twoTo, cast_twoTo]
  field_simp

theorem near_of_onGrid {e e' : Int} {c : Nat} (positive : 0 < m) (found : onGrid? m q e = some (c, e')) :
    Near m q (c * 10 ^ e' / 2 ^ q) := by
  obtain ⟨c', neighbour, same⟩ := Option.map_eq_some_iff.mp found
  cases same
  rw [← cast_grid]
  have inside := neighbour?_inside neighbour
  exact near_of_contains positive (Nat.mul_pos (tenTo_pos _) (twoTo_pos _)) inside

theorem neighbour?_of_inside {v d : Nat} {inside : Nat → Bool}
    (either : inside (v / d) = true ∨ inside (v / d + 1) = true) : neighbour? v d inside ≠ none := by
  unfold neighbour?
  dsimp only
  split
  · rename_i below above
    simp [below, above] at either
  all_goals nofun

theorem contains_of_within {i : Interval} {n d : Nat} (low : i.low * d < n) (high : n < i.high * d) :
    i.contains n d = true := by
  unfold Interval.contains
  split <;> simp only [Bool.and_eq_true, decide_eq_true_eq] <;> omega

theorem onGrid?_of_fine {e : Int} (positive : 0 < m)
    (fine : tenTo e.toNat * twoTo (2 - q).toNat + (interval m q).low * (tenTo (-e).toNat * twoTo (q - 2).toNat) <
      (interval m q).high * (tenTo (-e).toNat * twoTo (q - 2).toNat)) : onGrid? m q e ≠ none := by
  unfold onGrid?
  dsimp only
  have unit : 0 < tenTo e.toNat * twoTo (2 - q).toNat := Nat.mul_pos (tenTo_pos _) (twoTo_pos _)
  have width : 0 < tenTo (-e).toNat * twoTo (q - 2).toNat := Nat.mul_pos (tenTo_pos _) (twoTo_pos _)
  generalize tenTo e.toNat * twoTo (2 - q).toNat = u at fine unit
  generalize tenTo (-e).toNat * twoTo (q - 2).toNat = w at fine width
  have low : (interval m q).low * w < (interval m q).value * w := by
    refine Nat.mul_lt_mul_of_pos_right ?_ width
    unfold interval
    dsimp only
    split <;> omega
  have high : (interval m q).value * w < (interval m q).high * w := by
    refine Nat.mul_lt_mul_of_pos_right ?_ width
    unfold interval
    dsimp only
    omega
  generalize value : (interval m q).value * w = v at low high
  have quotient := Nat.div_add_mod v u
  have rest := Nat.mod_lt v unit
  rw [Ne, Option.map_eq_none_iff]
  refine neighbour?_of_inside ?_
  by_cases below : (interval m q).low * w < v / u * u
  · refine .inl (contains_of_within below ?_)
    rw [Nat.mul_comm u] at quotient
    omega
  · refine .inr (contains_of_within ?_ ?_) <;> rw [Nat.succ_mul] <;> rw [Nat.mul_comm u] at quotient <;> omega

theorem cast_magnitude (m : Nat) (q : Int) :
    ((m * twoTo q.toNat : Nat) : ℚ) / (twoTo (-q).toNat : Nat) = m * 2 ^ q := by
  rw [Nat.cast_mul, cast_twoTo, cast_twoTo, zpow_eq_div two_ne_zero, mul_div_assoc]

theorem onGrid?_seventeen (positive : 0 < m) (below : m < 2 * hiddenBit) :
    onGrid? m q (logTen (m * twoTo q.toNat) (twoTo (-q).toNat) - 16) ≠ none := by
  have reached := logTen_le (Nat.mul_pos positive (twoTo_pos q.toNat)) (twoTo_pos (-q).toNat)
  rw [cast_magnitude] at reached
  generalize logTen (m * twoTo q.toNat) (twoTo (-q).toNat) = top at reached ⊢
  refine onGrid?_of_fine positive ?_
  have unit := cast_grid 1 q (top - 16)
  have width : 0 < tenTo (-(top - 16)).toNat * twoTo (q - 2).toNat := Nat.mul_pos (tenTo_pos _) (twoTo_pos _)
  rw [Nat.one_mul, Nat.cast_one, one_mul] at unit
  generalize tenTo (top - 16).toNat * twoTo (2 - q).toNat = u at unit ⊢
  generalize tenTo (-(top - 16)).toNat * twoTo (q - 2).toNat = w at unit width ⊢
  have cast : (0 : ℚ) < w := Nat.cast_pos.mpr width
  have fine : 10 ^ 16 * u ≤ 4 * m * w := by
    have place : (0 : ℚ) < 2 ^ q := by positivity
    have ratio : (u : ℚ) / w / 4 ≤ m / 10 ^ 16 := by
      rw [unit, div_le_iff₀ place, zpow_sub₀ (by norm_num), div_mul_eq_mul_div]
      exact div_le_div_of_nonneg_right reached (by positivity)
    rw [div_div, div_le_div_iff₀ (by positivity) (by positivity)] at ratio
    have scaled : (10 ^ 16 * u : ℚ) ≤ 4 * m * w := by linarith
    exact_mod_cast scaled
  unfold hiddenBit at below
  unfold interval hiddenBit
  dsimp only
  -- the interval is three or four units wide, and the former only at a power of two
  split
  · rename_i power
    rw [power.1] at fine ⊢
    omega
  · have scaled : m * w ≤ 9007199254740991 * w := Nat.mul_le_mul_right w (by omega)
    have split : (4 * m - 2) * w + 4 * w = (4 * m + 2) * w := by
      rw [← Nat.add_mul]
      congr 1
      omega
    rw [Nat.mul_assoc] at fine
    omega

theorem withoutZeros_value (c : Nat) (e : Int) :
    ((withoutZeros c e).1 : ℚ) * 10 ^ (withoutZeros c e).2 = c * 10 ^ e := by
  fun_induction withoutZeros c e with
  | case1 => rfl
  | case2 c e more ih =>
    have whole : c = c / 10 * 10 := by omega
    rw [ih, zpow_add_one₀ (by norm_num)]
    conv_rhs => rw [whole]
    push_cast
    ring

/-- The shortest decimal of a double is near to it. -/
theorem near_shortest (positive : 0 < m) (below : m < 2 * hiddenBit) :
    Near m q ((shortest m q).1 * 10 ^ (shortest m q).2 / 2 ^ q) := by
  unfold shortest
  rw [if_neg (Nat.ne_of_gt positive)]
  dsimp only
  split
  · rename_i c e found
    obtain ⟨k, -, grid⟩ := List.exists_of_findSome?_eq_some found
    rw [withoutZeros_value]
    exact near_of_onGrid positive grid
  · rename_i none
    have last := List.findSome?_eq_none_iff.mp none 16 (by simp)
    exact absurd last (onGrid?_seventeen positive below)

theorem powers_apart :
    (10 : ℚ) ^ (-400 : Int) < 2 ^ (-1075 : Int) ∧ (2 : ℚ) ^ (1024 : Int) < 10 ^ (401 : Int) := by
  have powers : 2 ^ 1075 < 10 ^ 400 ∧ 2 ^ 1024 < 10 ^ 401 := by decide +kernel
  constructor
  · have small : (2 : ℚ) ^ 1075 < 10 ^ 400 := by exact_mod_cast powers.1
    rw [zpow_neg, zpow_neg]
    exact inv_strictAnti₀ (by positivity) (by exact_mod_cast small)
  · exact_mod_cast powers.2

theorem le_of_near {v : ℚ} (positive : 0 < m) (normal : Normal m q) (near : Near m q (v / 2 ^ q)) :
    (2 : ℚ) ^ (-1075 : Int) ≤ v := by
  have least := normal.least
  have low := near.low
  rw [le_div_iff₀ (by positivity)] at low
  have one : (1 : ℚ) ≤ m := by exact_mod_cast positive
  calc (2 : ℚ) ^ (-1075 : Int) = 1 / 2 * 2 ^ (-1074 : Int) := by
        rw [show (-1075 : Int) = -1074 - 1 by rfl, zpow_sub_one₀ two_ne_zero]
        ring
    _ ≤ 1 / 2 * 2 ^ q := by
        gcongr
        norm_num
    _ ≤ (m - 1 / 2) * 2 ^ q := by
        gcongr
        linarith
    _ ≤ v := low

theorem near_le {v : ℚ} (normal : Normal m q) (finite : magnitudeWord m q < 2047 * hiddenBit)
    (near : Near m q (v / 2 ^ q)) : v ≤ 2 ^ (1024 : Int) := by
  obtain ⟨-, leading, below⟩ := normal
  have high := near.high
  rw [div_le_iff₀ (by positivity)] at high
  have place : q ≤ 971 := by
    unfold magnitudeWord hiddenBit at *
    omega
  have cast : (m : ℚ) + 1 ≤ 2 * hiddenBit := by exact_mod_cast below
  have bits : ((hiddenBit : Nat) : ℚ) = 2 ^ 52 := by norm_num [hiddenBit]
  rw [bits] at cast
  calc v ≤ (m + 1 / 2) * 2 ^ q := high
    _ ≤ 2 ^ (53 : Int) * 2 ^ (971 : Int) := by
        gcongr
        · norm_num at cast ⊢
          linarith
        · norm_num
    _ = 2 ^ (1024 : Int) := by
        rw [← zpow_add₀ two_ne_zero]
        rfl

theorem adjusted_of_near {c : Nat} {e : Int} (positive : 0 < m) (coefficient : 0 < c) (normal : Normal m q)
    (finite : magnitudeWord m q < 2047 * hiddenBit) (near : Near m q (c * 10 ^ e / 2 ^ q)) :
    -400 ≤ Decimal.adjusted c e ∧ Decimal.adjusted c e ≤ 400 := by
  obtain ⟨lowest, highest⟩ := Decimal.adjusted_bounds coefficient e
  constructor
  · refine Int.le_of_not_gt fun small => ?_
    have half := le_of_near positive normal near
    have tiny : (10 : ℚ) ^ (Decimal.adjusted c e + 1) ≤ 10 ^ (-400 : Int) :=
      zpow_le_zpow_right₀ (by norm_num) (by omega)
    exact absurd (half.trans (highest.le.trans tiny)) (not_le.mpr powers_apart.1)
  · refine Int.le_of_not_gt fun large => ?_
    have bound := near_le normal finite near
    have huge : (10 : ℚ) ^ (401 : Int) ≤ 10 ^ Decimal.adjusted c e :=
      zpow_le_zpow_right₀ (by norm_num) (by omega)
    exact absurd (huge.trans (lowest.trans bound)) (not_le.mpr powers_apart.2)

theorem coefficient_pos {c : Nat} {e : Int} (positive : 0 < m) (near : Near m q (c * 10 ^ e / 2 ^ q)) :
    0 < c := by
  refine Nat.pos_of_ne_zero fun zero => ?_
  have one : (1 : ℚ) ≤ m := by exact_mod_cast positive
  have low := near.low
  rw [zero, Nat.cast_zero, zero_mul, zero_div] at low
  linarith

theorem ofScaled_of_near {x : Float} {s : Bool} {c : Nat} {e : Int} (finite : parts x = .finite s m q)
    (positive : 0 < m) (near : Near m q (c * 10 ^ e / 2 ^ q)) : ofScaled s c e = x := by
  obtain ⟨normal, below, -⟩ := normal_of_parts finite
  have coefficient := coefficient_pos positive near
  obtain ⟨low, high⟩ := adjusted_of_near positive coefficient normal below near
  unfold ofScaled
  rw [if_neg (by simp; omega), if_neg (by omega), ofRatio]
  rw [← cast_decimal] at near
  rw [nearestWord_of_near (Nat.mul_pos coefficient (tenTo_pos _)) (tenTo_pos _) normal below.le near]
  exact ofBits_of_parts finite

theorem ofDecimal_toDecimal {x : Float} {s : Bool} (finite : parts x = .finite s m q) :
    ofDecimal (toDecimal x) = x := by
  obtain ⟨⟨-, leading, below⟩, -, -⟩ := normal_of_parts finite
  rw [toDecimal, finite]
  dsimp only
  rcases Nat.eq_zero_or_pos m with rfl | positive
  · have place : q = -1074 := leading.resolve_left (by decide)
    have word := ofBits_of_parts finite
    rw [place] at word
    have zero (e : Int) : ofScaled s 0 e = x := word
    rw [shortest, if_pos rfl, Nat.zero_mul]
    dsimp only
    split
    · exact zero _
    · exact zero _
  · have near := near_shortest (q := q) positive below
    split
    · rename_i whole
      have place := (Bool.and_eq_true_iff.mp whole).2
      simp only [decide_eq_true_eq] at place
      refine ofScaled_of_near finite positive ?_
      have same : (((shortest m q).1 * tenTo ((shortest m q).2.toNat + 1) : Nat) : ℚ) * 10 ^ (-1 : Int) =
          (shortest m q).1 * 10 ^ (shortest m q).2 := by
        obtain ⟨n, e⟩ := Int.eq_ofNat_of_zero_le place
        rw [e, Nat.cast_mul, cast_tenTo, Int.toNat_natCast, zpow_natCast, pow_succ, zpow_neg_one]
        field_simp
      rwa [same]
    · exact ofScaled_of_near finite positive near

end Binary64

end Reckoner
