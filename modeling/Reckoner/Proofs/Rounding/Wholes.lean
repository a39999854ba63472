import Reckoner.Proofs.Rounding.Doubles
import Reckoner.Proofs.Values.Registers

namespace Reckoner

theorem Decimal.isNan_of_number {d : Decimal} {x : ℚ} (value : d.number? = some x) : d.isNan = false := by
  obtain ⟨s, c, e, rfl, -⟩ := exists_finite value
  rfl

namespace Binary64

theorem exists_parts {y : Float} {x : ℚ} (value : number? y = some x) :
    ∃ s m q, parts y = .finite s m q ∧ x = negatedIf s (m * 2 ^ q) := by
  cases kind : parts y with
  | nan | infinity =>
    rw [number?, kind] at value
    cases value
  | finite s m q =>
    exact ⟨s, m, q, rfl, Option.some.inj (value.symm.trans (number?_of_parts kind))⟩

theorem proper_of_number {y : Float} {x : ℚ} (value : number? y = some x) :
    isNan y = false ∧ isInfinite y = false := by
  obtain ⟨s, m, q, kind, -⟩ := exists_parts value
  rw [isNan, isInfinite, kind]
  exact ⟨rfl, rfl⟩

end Binary64

theorem Decimal.isNegative_iff {d : Decimal} {x : ℚ} (value : d.number? = some x) :
    d.isNegative = true ↔ x < 0 := by
  obtain ⟨s, c, e, rfl, rfl⟩ := exists_finite value
  have unit : (0 : ℚ) < 10 ^ e := by positivity
  have least : ¬ (c : ℚ) * 10 ^ e < 0 := by
    have positive : (0 : ℚ) ≤ c * 10 ^ e := by positivity
    exact not_lt.mpr positive
  cases s with
  | false => simpa [isNegative, negatedIf] using least
  | true => simp [isNegative, negatedIf, unit, Nat.pos_iff_ne_zero]

theorem den_negatedIf (s : Bool) (x : ℚ) : (negatedIf s x).den = x.den := by
  cases s <;> simp [negatedIf]

theorem den_scaled {base : Nat} (positive : 0 < base) (c : Nat) (e : Int) :
    ((c : ℚ) * (base : ℚ) ^ e).den = 1 ↔ 0 ≤ e ∨ c % base ^ (-e).toNat = 0 := by
  by_cases whole : 0 ≤ e
  · obtain ⟨k, rfl⟩ := Int.eq_ofNat_of_zero_le whole
    rw [zpow_natCast, ← Nat.cast_pow, ← Nat.cast_mul, Rat.den_natCast]
    exact iff_of_true rfl (.inl whole)
  · obtain ⟨k, rfl⟩ : ∃ k : Nat, e = -k := ⟨(-e).toNat, by omega⟩
    rw [zpow_neg, zpow_natCast, ← div_eq_mul_inv, ← Nat.cast_pow,
      Rat.den_div_natCast_eq_one_iff _ _ (Nat.pow_pos positive).ne', neg_neg, Int.toNat_natCast,
      Nat.dvd_iff_mod_eq_zero]
    exact (or_iff_right whole).symm

theorem Decimal.isIntegral_iff {d : Decimal} {x : ℚ} (value : d.number? = some x) :
    d.isIntegral = true ↔ x.den = 1 := by
  obtain ⟨s, c, e, rfl, rfl⟩ := exists_finite value
  have scaled : ((c : ℚ) * 10 ^ e).den = 1 ↔ 0 ≤ e ∨ c % tenTo (-e).toNat = 0 :=
    den_scaled (by decide : 0 < 10) c e
  rw [den_negatedIf, scaled, isIntegral, Bool.or_eq_true, decide_eq_true_eq, beq_iff_eq]

theorem Binary64.isIntegral_iff {y : Float} {x : ℚ} (value : number? y = some x) :
    isIntegral y = true ↔ x.den = 1 := by
  obtain ⟨s, m, q, kind, rfl⟩ := exists_parts value
  have scaled : ((m : ℚ) * 2 ^ q).den = 1 ↔ 0 ≤ q ∨ m % twoTo (-q).toNat = 0 :=
    den_scaled (by decide : 0 < 2) m q
  rw [den_negatedIf, scaled, isIntegral, kind]
  dsimp only
  rw [Bool.or_eq_true, decide_eq_true_eq, beq_iff_eq]

theorem Grid.round_of_dvd (g : Grid) {n k : Nat} (least : g.least ≤ 0) (zeros : g.base ^ k ∣ n)
    (small : n < g.base ^ (g.digits + k)) : g.round n = n := by
  rcases Nat.eq_zero_or_pos n with rfl | positive
  · exact_mod_cast g.round_zero
  obtain ⟨m, rfl⟩ := zeros
  have cast : (0 : ℚ) < (g.base ^ k * m : Nat) := by exact_mod_cast positive
  have below : ((g.base ^ k * m : Nat) : ℚ) < (g.base : ℚ) ^ ((g.digits + k : Nat) : Int) := by
    rw [zpow_natCast]
    exact_mod_cast small
  have top := (Int.lt_zpow_iff_log_lt g.radix cast).mp below
  refine g.round_of_multiple (m := m) (k := k) ?_ ?_
  · push_cast
    rw [zpow_natCast, mul_comm]
  · rw [Grid.place, abs_of_pos cast]
    omega

namespace Binary64

theorem round_natCast_of_lt {n : Nat} (small : n < 2 ^ 53) : grid.round n = n :=
  grid.round_of_dvd (k := 0) (by decide) (one_dvd n) small

theorem exists_round_natCast {n : Nat} (large : 2 ^ 53 ≤ n) :
    ∃ k : Nat, grid.round n = k ∧ 2 ^ 53 ≤ k := by
  have least : ((grid.base : Nat) : ℚ) ^ (53 : Int) ≤ n := by
    show (2 : ℚ) ^ (53 : Int) ≤ n
    exact_mod_cast large
  have above : (2 : ℚ) ^ (53 : Int) ≤ grid.round n := grid.power_le_round (by decide) (by decide) least
  have positive : (0 : ℚ) < n := lt_of_lt_of_le (zpow_pos grid.base_pos _) least
  have top := (Int.zpow_le_iff_le_log grid.radix positive).mp least
  -- The last place kept is one of whole numbers.
  obtain ⟨place, same⟩ : ∃ k : Nat, grid.place n = k := by
    refine Int.eq_ofNat_of_zero_le ?_
    rw [Grid.place, abs_of_pos positive]
    exact le_max_of_le_left (by show 0 ≤ _ - (53 : Int) + 1; omega)
  have whole : grid.round n = ((nearestEven (n / grid.unit n) * 2 ^ place : Int) : ℚ) := by
    rw [Int.cast_mul, Int.cast_pow, Int.cast_ofNat, ← zpow_natCast, ← same]
    rfl
  rw [whole] at above ⊢
  have cast : (2 : Int) ^ 53 ≤ nearestEven (n / grid.unit n) * 2 ^ place := by exact_mod_cast above
  obtain ⟨k, value⟩ := Int.eq_ofNat_of_zero_le (le_trans (by decide) cast)
  rw [value] at cast ⊢
  exact ⟨k, Int.cast_natCast k, by exact_mod_cast cast⟩

theorem IsNearest.of_natCast {s : Bool} {n : Nat} {y : Float} (nearest : IsNearest s n y) :
    if n < 2 ^ 53 then number? y = some (negatedIf s n)
    else y = infinity s ∨ ∃ k : Nat, number? y = some (negatedIf s k) ∧ 2 ^ 53 ≤ k := by
  unfold IsNearest at nearest
  split
  · rename_i small
    have inside : ¬ (2 : ℚ) ^ 1024 ≤ n := by
      refine not_le.mpr (lt_of_lt_of_le (b := 2 ^ 53) (by exact_mod_cast small) ?_)
      exact pow_le_pow_right₀ one_le_two (by decide)
    rwa [round_natCast_of_lt small, if_neg inside] at nearest
  · rename_i large
    obtain ⟨k, rounded, least⟩ := exists_round_natCast (not_lt.mp large)
    rw [rounded] at nearest
    split at nearest
    · exact .inl nearest
    · exact .inr ⟨k, nearest, least⟩

theorem parts_infinity (s : Bool) : parts (infinity s) = .infinity s := by
  cases s <;> decide

theorem ofDecimal_nearest {d : Decimal} {n : Nat} (value : d.number? = some (n : ℚ)) :
    IsNearest false n (ofDecimal d) := by
  obtain ⟨s, c, e, rfl, same⟩ := Decimal.exists_finite value
  have nearest : IsNearest s (c * 10 ^ e) (ofDecimal (.finite s c e)) := ofScaled_nearest s c e
  cases s with
  | false => exact same ▸ nearest
  | true =>
    have zero : (c : ℚ) * 10 ^ e = 0 := by
      have positive : (0 : ℚ) ≤ c * 10 ^ e := by positivity
      have cast : (0 : ℚ) ≤ n := Nat.cast_nonneg n
      simp only [negatedIf, if_true] at same
      linarith
    simp only [negatedIf, if_true, zero, neg_zero] at same
    unfold IsNearest at nearest ⊢
    rw [zero, grid.round_zero, if_neg (by norm_num)] at nearest
    rw [same, grid.round_zero, if_neg (by norm_num), nearest]
    exact congrArg some neg_zero

end Binary64

end Reckoner
