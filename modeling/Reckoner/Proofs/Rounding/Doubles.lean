import Reckoner.Proofs.Binary64.Shortest

namespace Reckoner.Binary64

def grid : Grid := ⟨2, 53, -1074, by decide⟩

def IsNearest (s : Bool) (x : ℚ) (y : Float) : Prop :=
  if 2 ^ 1024 ≤ grid.round x then y = infinity s else number? y = some (negatedIf s (grid.round x))

variable {m : Nat} {q : Int}

theorem parts_of_magnitude (normal : Normal m q) (finite : magnitudeWord m q < 2047 * hiddenBit) (s : Bool) :
    parts (Float.ofBits (UInt64.ofNat (magnitudeWord m q + if s then signBit else 0))) = .finite s m q := by
  obtain ⟨least, leading, below⟩ := normal
  unfold magnitudeWord at *
  obtain ⟨k, rfl⟩ : ∃ k : Nat, q = (k : Int) - 1074 := ⟨(q + 1074).toNat, by omega⟩
  have place : ((k : Int) - 1074 + 1074).toNat = k := by omega
  rw [place] at finite ⊢
  generalize same : (k * hiddenBit + m + if s then signBit else 0) = word
  have sign : decide (signBit ≤ word) = s := by
    unfold hiddenBit at *
    unfold signBit at *
    cases s <;> simp at same ⊢ <;> omega
  have digits : word / hiddenBit % 2048 = (if m < hiddenBit then 0 else k + 1) ∧
      word % hiddenBit = if m < hiddenBit then m else m - hiddenBit := by
    unfold hiddenBit at *
    unfold signBit at *
    split at same <;> split <;> omega
  have small : word < 2 ^ 64 := by
    unfold hiddenBit at *
    unfold signBit at *
    split at same <;> omega
  rw [parts_ofBits small (by rw [digits.1]; unfold hiddenBit at *; split <;> omega)]
  unfold Parts.ofWord
  dsimp only
  rw [sign, digits.1, digits.2]
  by_cases subnormal : m < hiddenBit
  · have lowest : (k : Int) - 1074 = -1074 := by omega
    rw [if_pos subnormal, if_pos subnormal, if_neg (by decide), if_pos rfl, lowest]
  · have mantissa : hiddenBit + (m - hiddenBit) = m := by omega
    have exponent : ((k + 1 : Nat) : Int) - 1075 = k - 1074 := by omega
    have finite : ¬ k + 1 = 2047 := by
      unfold hiddenBit at *
      omega
    rw [if_neg subnormal, if_neg subnormal, if_neg finite, if_neg (Nat.succ_ne_zero k), mantissa,
      exponent]

theorem ofBits_infinity (s : Bool) :
    Float.ofBits (UInt64.ofNat (2047 * hiddenBit + if s then signBit else 0)) = infinity s := by
  cases s <;> rfl

theorem round_eq {n d : Nat} (positive : 0 < n) (divisor : 0 < d) {q : Int}
    (place : max (logTwo n d - 52) (-1074) = q) :
    grid.round (n / d) = roundHalfEven (n * twoTo (-q).toNat) (d * twoTo q.toNat) * 2 ^ q := by
  obtain ⟨least, most⟩ := logTwo_bounds positive divisor
  have above : (0 : ℚ) < n / d := lt_of_lt_of_le (by positivity) least
  have log : Int.log 2 ((n : ℚ) / d) = logTwo n d := grid.log_eq least most
  have unit : grid.place (n / d) = q := by
    rw [← place, Grid.place, abs_of_pos above]
    show max (Int.log 2 ((n : ℚ) / d) - 53 + 1) (-1074) = _
    omega
  have nearest := roundHalfEven_cast (n * twoTo (-q).toNat) (Nat.mul_pos divisor (twoTo_pos q.toNat))
  rw [cast_scaled] at nearest
  rw [Grid.round, Grid.unit, unit]
  show (nearestEven (n / d / 2 ^ q) : ℚ) * 2 ^ q = _
  rw [← nearest, Int.cast_natCast]

theorem mantissa_bounds {n d : Nat} (positive : 0 < n) (divisor : 0 < d) {q : Int}
    (place : max (logTwo n d - 52) (-1074) = q) :
    (hiddenBit ≤ roundHalfEven (n * twoTo (-q).toNat) (d * twoTo q.toNat) ∨ q = -1074) ∧
      roundHalfEven (n * twoTo (-q).toNat) (d * twoTo q.toNat) ≤ 2 * hiddenBit := by
  obtain ⟨least, most⟩ := logTwo_bounds positive divisor
  have scale : 0 < d * twoTo q.toNat := Nat.mul_pos divisor (twoTo_pos q.toNat)
  have nearest := roundHalfEven_cast (n * twoTo (-q).toNat) scale
  have unit : (0 : ℚ) < 2 ^ q := by positivity
  have bits : ((hiddenBit : Nat) : ℚ) = 2 ^ 52 := by norm_num [hiddenBit]
  rw [cast_scaled] at nearest
  constructor
  · by_cases last : q = -1074
    · exact .inr last
    have leading : ((hiddenBit : Int) : ℚ) ≤ n / d / 2 ^ q := by
      have top : logTwo n d = 52 + q := by omega
      rw [Int.cast_natCast, bits, le_div_iff₀ unit]
      rw [top, zpow_add₀ two_ne_zero] at least
      exact_mod_cast least
    have whole := le_nearestEven leading
    rw [← nearest] at whole
    exact .inl (by omega)
  · refine roundHalfEven_le ?_
    have below : (n : ℚ) / d / 2 ^ q < 2 * 2 ^ 52 := by
      rw [div_lt_iff₀ unit]
      calc (n : ℚ) / d < 2 ^ (logTwo n d + 1) := most
        _ ≤ 2 ^ (53 + q) := zpow_le_zpow_right₀ one_le_two (by omega)
        _ = 2 * 2 ^ 52 * 2 ^ q := by
          rw [zpow_add₀ two_ne_zero]
          norm_num
    rw [← cast_scaled, div_lt_iff₀ (Nat.cast_pos.mpr scale), ← bits,
      mul_comm (2 * (hiddenBit : ℚ))] at below
    exact_mod_cast below

theorem scaled_lt {a b : Int} {t : ℚ} (small : t < 2 ^ a) (place : q ≤ b) : t * 2 ^ q < 2 ^ (a + b) :=
  calc t * 2 ^ q < 2 ^ a * 2 ^ q := mul_lt_mul_of_pos_right small (by positivity)
    _ ≤ 2 ^ a * 2 ^ b := by
      gcongr
      exact one_le_two
    _ = 2 ^ (a + b) := (zpow_add₀ two_ne_zero a b).symm

theorem le_scaled {a b : Int} {t : ℚ} (large : 2 ^ a ≤ t) (place : b ≤ q) : 2 ^ (a + b) ≤ t * 2 ^ q :=
  calc (2 : ℚ) ^ (a + b) = 2 ^ a * 2 ^ b := zpow_add₀ two_ne_zero a b
    _ ≤ 2 ^ a * 2 ^ q := by
      gcongr
      exact one_le_two
    _ ≤ t * 2 ^ q := mul_le_mul_of_nonneg_right large (by positivity)

theorem infinite_iff (leading : hiddenBit ≤ m ∨ q = -1074) (below : m ≤ 2 * hiddenBit) :
    2047 * hiddenBit ≤ magnitudeWord m q ↔ (2 : ℚ) ^ 1024 ≤ m * 2 ^ q := by
  have bits : ((hiddenBit : Nat) : ℚ) = 2 ^ (52 : Int) := by norm_num [hiddenBit]
  have range : (2 : ℚ) ^ 1024 = 2 ^ (1024 : Int) := (zpow_natCast 2 1024).symm
  have full (carry : 2 * hiddenBit ≤ m) : (2 : ℚ) ^ (53 : Int) ≤ m := by
    have cast : (2 * hiddenBit : ℚ) ≤ m := by exact_mod_cast carry
    rw [bits] at cast
    exact le_trans (by norm_num) cast
  have half (lead : hiddenBit ≤ m) : (2 : ℚ) ^ (52 : Int) ≤ m := by
    rw [← bits]
    exact_mod_cast lead
  rw [range]
  -- The range ends at the place 972, and at the place below it for a carry.
  constructor
  · intro infinite
    unfold magnitudeWord at infinite
    have place : 2 * hiddenBit ≤ m ∧ 971 ≤ q ∨ hiddenBit ≤ m ∧ 972 ≤ q := by
      unfold hiddenBit at *
      omega
    rcases place with ⟨carry, place⟩ | ⟨lead, place⟩
    · exact le_scaled (full carry) place
    · exact le_scaled (half lead) place
  · intro beyond
    by_contra inside
    unfold magnitudeWord at inside
    have place : m < 2 * hiddenBit ∧ q ≤ 971 ∨ q ≤ 970 := by
      unfold hiddenBit at *
      omega
    rcases place with ⟨short, place⟩ | place
    · have small : (m : ℚ) < 2 ^ (53 : Int) := by
        have cast : (m : ℚ) < 2 * hiddenBit := by exact_mod_cast short
        rw [bits] at cast
        exact lt_of_lt_of_le cast (by norm_num)
      exact absurd beyond (not_le.mpr (scaled_lt small place))
    · have small : (m : ℚ) < 2 ^ (54 : Int) := by
        have cast : (m : ℚ) ≤ 2 * hiddenBit := by exact_mod_cast below
        rw [bits] at cast
        exact lt_of_le_of_lt cast (by norm_num)
      exact absurd beyond (not_le.mpr (scaled_lt small place))

theorem number?_of_magnitude (leading : hiddenBit ≤ m ∨ q = -1074) (below : m ≤ 2 * hiddenBit)
    (least : -1074 ≤ q) (finite : magnitudeWord m q < 2047 * hiddenBit) (s : Bool) :
    number? (Float.ofBits (UInt64.ofNat (magnitudeWord m q + if s then signBit else 0))) =
      some (negatedIf s (m * 2 ^ q)) := by
  by_cases carry : m = 2 * hiddenBit
  · have word : magnitudeWord m q = magnitudeWord hiddenBit (q + 1) := by
      unfold magnitudeWord hiddenBit at *
      omega
    have normal : Normal hiddenBit (q + 1) := ⟨by omega, .inl le_rfl, by decide⟩
    rw [word] at finite ⊢
    rw [number?_of_parts (parts_of_magnitude normal finite s), carry, zpow_add_one₀ two_ne_zero]
    congr 2
    push_cast
    ring
  · have normal : Normal m q := ⟨least, leading, by omega⟩
    rw [number?_of_parts (parts_of_magnitude normal finite s)]

/-- The double of a quotient is the nearest one. -/
theorem ofRatio_nearest (s : Bool) (n : Nat) {d : Nat} (divisor : 0 < d) :
    IsNearest s (n / d) (ofRatio s n d) := by
  unfold IsNearest ofRatio nearestWord
  rcases Nat.eq_zero_or_pos n with rfl | positive
  · have normal : Normal 0 (-1074) := ⟨le_rfl, .inr rfl, by decide⟩
    have zero := number?_of_parts (parts_of_magnitude normal (by decide) s)
    rw [Nat.cast_zero, zero_div, grid.round_zero, if_neg (by norm_num), if_pos rfl]
    rwa [Nat.cast_zero, zero_mul] at zero
  rw [if_neg (Nat.ne_of_gt positive)]
  dsimp only
  generalize place : max (logTwo n d - 52) (-1074) = q
  obtain ⟨leading, below⟩ := mantissa_bounds positive divisor place
  rw [round_eq positive divisor place]
  generalize roundHalfEven (n * twoTo (-q).toNat) (d * twoTo q.toNat) = m at leading below
  have word : (q + 1074).toNat * hiddenBit + m = magnitudeWord m q := rfl
  rw [word]
  split
  · rename_i infinite
    rw [Nat.min_eq_right ((infinite_iff leading below).mpr infinite)]
    exact ofBits_infinity s
  · rename_i finite
    have inside := not_le.mp (mt (infinite_iff leading below).mp finite)
    rw [Nat.min_eq_left inside.le]
    exact number?_of_magnitude leading below (by omega) inside s

theorem IsNearest.congr {s : Bool} {x x' : ℚ} {y : Float} (nearest : IsNearest s x y)
    (same : grid.round x = grid.round x') : IsNearest s x' y := by
  unfold IsNearest at *
  rwa [← same]

theorem round_far {c : Nat} (positive : 0 < c) (e : Int) :
    (Decimal.adjusted c e < -400 → grid.round (c * 10 ^ e) = 0) ∧
      (400 < Decimal.adjusted c e → 2 ^ 1024 ≤ grid.round (c * 10 ^ e)) := by
  obtain ⟨lowest, highest⟩ := Decimal.adjusted_bounds positive e
  constructor
  · intro small
    refine grid.round_small (by decide) (lt_of_lt_of_le (by positivity) lowest) ?_
    calc (c : ℚ) * 10 ^ e < 10 ^ (Decimal.adjusted c e + 1) := highest
      _ ≤ 10 ^ (-400 : Int) := zpow_le_zpow_right₀ (by norm_num) (by omega)
      _ < 2 ^ (-1075 : Int) := powers_apart.1
      _ = 1 / 2 * 2 ^ (-1074 : Int) := by
        rw [show (-1075 : Int) = -1074 - 1 by rfl, zpow_sub_one₀ two_ne_zero]
        ring
  · intro large
    have range : (2 : ℚ) ^ 1024 = 2 ^ (1024 : Int) := (zpow_natCast 2 1024).symm
    have beyond : (2 : ℚ) ^ (1024 : Int) ≤ c * 10 ^ e :=
      calc (2 : ℚ) ^ (1024 : Int) ≤ 10 ^ (401 : Int) := powers_apart.2.le
        _ ≤ 10 ^ Decimal.adjusted c e := zpow_le_zpow_right₀ (by norm_num) (by omega)
        _ ≤ c * 10 ^ e := lowest
    rw [range]
    exact grid.power_le_round (by decide) (by decide) beyond

/-- The double of a decimal is the nearest one. -/
theorem ofScaled_nearest (s : Bool) (c : Nat) (e : Int) : IsNearest s (c * 10 ^ e) (ofScaled s c e) := by
  have zero : IsNearest s ((0 : Nat) / (1 : Nat)) (ofRatio s 0 1) := ofRatio_nearest s 0 Nat.one_pos
  rw [Nat.cast_zero, zero_div] at zero
  rcases Nat.eq_zero_or_pos c with rfl | positive
  · rw [Nat.cast_zero, zero_mul]
    exact zero
  obtain ⟨small, large⟩ := round_far positive e
  unfold ofScaled
  split
  · rename_i low
    have below : Decimal.adjusted c e < -400 := by
      simpa [Nat.ne_of_gt positive] using low
    exact zero.congr (grid.round_zero.trans (small below).symm)
  split
  · rename_i high
    unfold IsNearest
    rw [if_pos (large high)]
  · rw [← cast_decimal]
    exact ofRatio_nearest s _ (tenTo_pos _)

end Reckoner.Binary64
