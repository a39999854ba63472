import Mathlib
import Reckoner.Proofs.Values.Numbers
import Reckoner.Proofs.Values.Digits

namespace Reckoner

theorem cast_twoTo (n : Nat) : (twoTo n : ℚ) = 2 ^ n := Nat.cast_pow 2 n

theorem cast_tenTo (n : Nat) : (tenTo n : ℚ) = 10 ^ n := Nat.cast_pow 10 n

theorem zpow_eq_div {b : ℚ} (nonzero : b ≠ 0) (q : Int) : b ^ q = b ^ q.toNat / b ^ (-q).toNat := by
  rw [← zpow_natCast, ← zpow_natCast, ← zpow_sub₀ nonzero, Int.toNat_sub_toNat_neg]

theorem logTen_le {n d : Nat} (positive : 0 < n) (divisor : 0 < d) :
    (10 : ℚ) ^ logTen n d ≤ n / d := by
  have cast : (0 : ℚ) < d := Nat.cast_pos.mpr divisor
  have ten : (10 : ℚ) ≠ 0 := by norm_num
  unfold logTen
  generalize place : (digitCount n : Int) - digitCount d = k
  dsimp only
  split
  · rename_i most
    have scaled : (0 : ℚ) < 10 ^ (-k).toNat := by positivity
    rw [zpow_eq_div ten, div_le_div_iff₀ scaled cast, ← cast_tenTo, ← cast_tenTo,
      mul_comm (tenTo k.toNat : ℚ)]
    exact_mod_cast most
  · have least : (10 : ℚ) ^ ((digitCount n - 1 : Nat) : Int) ≤ n := by
      rw [zpow_natCast, ← cast_tenTo]
      exact_mod_cast tenTo_le_of_digitCount positive
    have above : (d : ℚ) ≤ 10 ^ (digitCount d : Int) := by
      rw [zpow_natCast, ← cast_tenTo]
      exact_mod_cast (lt_tenTo_digitCount d).le
    have digits := digitCount_pos n
    rw [le_div_iff₀ cast]
    calc (10 : ℚ) ^ (k - 1) * d ≤ 10 ^ (k - 1) * 10 ^ (digitCount d : Int) := by gcongr
      _ = 10 ^ ((digitCount n - 1 : Nat) : Int) := by
        rw [← zpow_add₀ ten]
        congr 1
        omega
      _ ≤ n := least

theorem lt_logTen {n d : Nat} (divisor : 0 < d) : (n : ℚ) / d < 10 ^ (logTen n d + 1) := by
  have cast : (0 : ℚ) < d := Nat.cast_pos.mpr divisor
  have scaled : (0 : ℚ) < 10 ^ (-(logTen n d + 1)).toNat := by positivity
  have bound := lt_tenTo_logTen divisor (n := n) (x := (-(logTen n d + 1)).toNat)
    (y := (logTen n d + 1).toNat) (by omega)
  rw [zpow_eq_div (by norm_num), div_lt_div_iff₀ cast scaled, ← cast_tenTo, ← cast_tenTo,
    mul_comm (tenTo (logTen n d + 1).toNat : ℚ)]
  exact_mod_cast bound

theorem cast_decimal (c : Nat) (e : Int) :
    ((c * tenTo e.toNat : Nat) : ℚ) / (tenTo (-e).toNat : Nat) = c * 10 ^ e := by
  rw [Nat.cast_mul, cast_tenTo, cast_tenTo, zpow_eq_div (by norm_num), mul_div_assoc]

theorem Decimal.adjusted_bounds {c : Nat} (positive : 0 < c) (e : Int) :
    (10 : ℚ) ^ adjusted c e ≤ c * 10 ^ e ∧ (c : ℚ) * 10 ^ e < 10 ^ (adjusted c e + 1) := by
  have ten : (10 : ℚ) ≠ 0 := by norm_num
  have digits := digitCount_pos c
  have least : (10 : ℚ) ^ ((digitCount c - 1 : Nat) : Int) ≤ c := by
    rw [zpow_natCast, ← cast_tenTo]
    exact_mod_cast tenTo_le_of_digitCount positive
  have above : (c : ℚ) < 10 ^ (digitCount c : Int) := by
    rw [zpow_natCast, ← cast_tenTo]
    exact_mod_cast lt_tenTo_digitCount c
  have unit : (0 : ℚ) < 10 ^ e := by positivity
  constructor
  · have place : adjusted c e = (digitCount c - 1 : Nat) + e := by
      unfold adjusted
      omega
    rw [place, zpow_add₀ ten]
    exact mul_le_mul_of_nonneg_right least unit.le
  · have place : adjusted c e + 1 = digitCount c + e := by
      unfold adjusted
      omega
    rw [place, zpow_add₀ ten]
    exact mul_lt_mul_of_pos_right above unit

/-- The whole number nearest to a number; a half goes to the even neighbour. -/
def nearestEven (x : ℚ) : Int :=
  let k := ⌊x⌋
  if x - k < 1 / 2 then k else if 1 / 2 < x - k then k + 1 else k + k % 2

theorem nearestEven_bounds (x : ℚ) : (nearestEven x : ℚ) - 1 / 2 ≤ x ∧ x ≤ nearestEven x + 1 / 2 := by
  have low := Int.floor_le x
  have high := Int.lt_floor_add_one x
  unfold nearestEven
  dsimp only
  split_ifs with below above
  · constructor <;> linarith
  · push_cast
    constructor <;> linarith
  · have half : x - ⌊x⌋ = 1 / 2 := by linarith
    rcases Int.emod_two_eq ⌊x⌋ with even | odd
    · rw [even, add_zero]
      constructor <;> linarith
    · rw [odd]
      push_cast
      constructor <;> linarith

theorem nearestEven_odd {x : ℚ} (odd : nearestEven x % 2 = 1) :
    (nearestEven x : ℚ) - 1 / 2 < x ∧ x < nearestEven x + 1 / 2 := by
  have low := Int.floor_le x
  have high := Int.lt_floor_add_one x
  unfold nearestEven at odd ⊢
  dsimp only at odd ⊢
  split_ifs at odd ⊢ with below above
  · constructor <;> linarith
  · push_cast
    constructor <;> linarith
  · omega

theorem nearestEven_eq {x : ℚ} {m : Int} (low : (m : ℚ) - 1 / 2 ≤ x) (high : x ≤ m + 1 / 2)
    (odd : m % 2 = 1 → (m : ℚ) - 1 / 2 < x ∧ x < m + 1 / 2) : nearestEven x = m := by
  have least := Int.floor_le x
  have most := Int.lt_floor_add_one x
  have above : ⌊x⌋ < m + 1 := by
    have cast : (⌊x⌋ : ℚ) < m + 1 := by linarith
    exact_mod_cast cast
  have below : m < ⌊x⌋ + 2 := by
    have cast : (m : ℚ) < ⌊x⌋ + 2 := by linarith
    exact_mod_cast cast
  unfold nearestEven
  dsimp only
  -- Nearest are the floor and the number above; at a half the parity excludes one of them.
  obtain same | next : m = ⌊x⌋ ∨ m = ⌊x⌋ + 1 := by omega
  · rw [← same]
    have close : ¬ 1 / 2 < x - m := by linarith
    by_cases half : x - m < 1 / 2
    · rw [if_pos half]
    · have even : m % 2 = 0 := by
        rcases Int.emod_two_eq m with even | one
        · exact even
        · exact absurd (by linarith [(odd one).2]) half
      rw [if_neg half, if_neg close, even, add_zero]
  · have cast : (m : ℚ) = ⌊x⌋ + 1 := by exact_mod_cast next
    have far : ¬ x - ⌊x⌋ < 1 / 2 := by linarith
    rw [if_neg far]
    by_cases half : 1 / 2 < x - ⌊x⌋
    · rw [if_pos half, next]
    · have even : m % 2 = 0 := by
        rcases Int.emod_two_eq m with even | one
        · exact even
        · exact absurd (by linarith [(odd one).1]) half
      rw [if_neg half]
      omega

theorem nearestEven_intCast (m : Int) : nearestEven (m : ℚ) = m :=
  nearestEven_eq (by linarith) (by linarith) fun _ => ⟨by linarith, by linarith⟩

theorem nearestEven_neg (x : ℚ) : nearestEven (-x) = -nearestEven x := by
  obtain ⟨low, high⟩ := nearestEven_bounds x
  refine nearestEven_eq ?_ ?_ fun odd => ?_
  · push_cast
    linarith
  · push_cast
    linarith
  · obtain ⟨above, below⟩ := nearestEven_odd (x := x) (by omega)
    push_cast
    constructor <;> linarith

theorem le_nearestEven {x : ℚ} {m : Int} (least : (m : ℚ) ≤ x) : m ≤ nearestEven x := by
  have floor : m ≤ ⌊x⌋ := Int.le_floor.mpr least
  have parity := Int.emod_two_eq ⌊x⌋
  unfold nearestEven
  dsimp only
  split_ifs <;> omega

theorem nearestEven_small {x : ℚ} (low : 0 ≤ x) (high : x < 1 / 2) : nearestEven x = 0 :=
  nearestEven_eq (by push_cast; linarith) (by push_cast; linarith) nofun

theorem roundHalfEven_cast (n : Nat) {d : Nat} (divisor : 0 < d) :
    (roundHalfEven n d : Int) = nearestEven ((n : ℚ) / d) := by
  have positive : (0 : ℚ) < d := Nat.cast_pos.mpr divisor
  have quotient := Nat.div_add_mod n d
  have rest := Nat.mod_lt n divisor
  unfold roundHalfEven Rounding.quotient Rounding.goesUp
  generalize n / d = a at quotient ⊢
  generalize n % d = r at quotient rest ⊢
  have value : (n : ℚ) / d = a + r / d := by
    rw [← quotient]
    push_cast
    field_simp
  have low : (0 : ℚ) ≤ r / d := by positivity
  have high : (r : ℚ) / d < 1 := (div_lt_one positive).mpr (by exact_mod_cast rest)
  have floor : ⌊(n : ℚ) / d⌋ = a := by
    rw [Int.floor_eq_iff, value, Int.cast_natCast]
    constructor <;> linarith
  have fraction : (n : ℚ) / d - a = r / d := by
    rw [value]
    ring
  have less : (r : ℚ) / d < 1 / 2 ↔ 2 * r < d := by
    rw [div_lt_div_iff₀ positive two_pos, one_mul, mul_comm]
    exact_mod_cast Iff.rfl
  have more : 1 / 2 < (r : ℚ) / d ↔ d < 2 * r := by
    rw [div_lt_div_iff₀ two_pos positive, one_mul, mul_comm]
    exact_mod_cast Iff.rfl
  unfold nearestEven
  dsimp only
  rw [floor, Int.cast_natCast, fraction]
  simp only [less, more, Bool.or_eq_true, decide_eq_true_eq, Bool.and_eq_true, beq_iff_eq]
  split_ifs <;> omega

theorem roundHalfEven_eq {n d m : Nat} (divisor : 0 < d) (low : (m : ℚ) - 1 / 2 ≤ n / d)
    (high : (n : ℚ) / d ≤ m + 1 / 2)
    (odd : m % 2 = 1 → (m : ℚ) - 1 / 2 < n / d ∧ (n : ℚ) / d < m + 1 / 2) : roundHalfEven n d = m := by
  have nearest : nearestEven ((n : ℚ) / d) = m :=
    nearestEven_eq (by exact_mod_cast low) (by exact_mod_cast high) fun isOdd => by
      exact_mod_cast odd (by omega)
  exact Int.ofNat_inj.mp ((roundHalfEven_cast n divisor).trans nearest)

def negatedIf (s : Bool) (x : ℚ) : ℚ := if s then -x else x

theorem cast_signed (s : Bool) (n : Nat) : ((Decimal.signed s n : Int) : ℚ) = negatedIf s n := by
  cases s <;> simp [Decimal.signed, negatedIf]

theorem negatedIf_mul (s : Bool) (x y : ℚ) : negatedIf s x * y = negatedIf s (x * y) := by
  cases s <;> simp [negatedIf]

theorem abs_negatedIf (s : Bool) (x : ℚ) : |negatedIf s x| = |x| := by
  cases s <;> simp [negatedIf]

theorem Decimal.number?_finite (s : Bool) (c : Nat) (e : Int) :
    (finite s c e).number? = some (negatedIf s (c * 10 ^ e)) := by
  rw [number?, cast_signed, negatedIf_mul]

theorem Decimal.exists_finite {d : Decimal} {x : ℚ} (value : d.number? = some x) :
    ∃ s c e, d = finite s c e ∧ x = negatedIf s (c * 10 ^ e) := by
  cases d with
  | notNumber | infinity => cases value
  | finite s c e => exact ⟨s, c, e, rfl, Option.some.inj (value.symm.trans (number?_finite s c e))⟩

theorem Binary64.number?_of_parts {x : Float} {s : Bool} {m : Nat} {q : Int}
    (finite : parts x = .finite s m q) : number? x = some (negatedIf s (m * 2 ^ q)) := by
  rw [number?, finite]
  dsimp only
  rw [cast_signed, negatedIf_mul]

/-- Numbers in a base with so many digits at most, the last one at the place `least` or above. -/
structure Grid where
  base : Nat
  digits : Nat
  least : Int
  radix : 1 < base

namespace Grid

variable (g : Grid) {x : ℚ}

def place (x : ℚ) : Int := max (Int.log g.base |x| - g.digits + 1) g.least

def unit (x : ℚ) : ℚ := (g.base : ℚ) ^ g.place x

/-- The number of the grid that is nearest; half way between two, the one with the even last digit. -/
def round (x : ℚ) : ℚ := nearestEven (x / g.unit x) * g.unit x

theorem base_pos : (0 : ℚ) < g.base := by
  have radix := g.radix
  exact_mod_cast (by omega : 0 < g.base)

theorem unit_pos (x : ℚ) : 0 < g.unit x := zpow_pos g.base_pos _

theorem log_eq {k : Int} (low : (g.base : ℚ) ^ k ≤ x) (high : x < (g.base : ℚ) ^ (k + 1)) :
    Int.log g.base x = k := by
  have positive : 0 < x := (zpow_pos g.base_pos k).trans_le low
  have above := (Int.zpow_le_iff_le_log g.radix positive).mp low
  have below := (Int.lt_zpow_iff_log_lt g.radix positive).mp high
  omega

theorem round_zero : g.round 0 = 0 := by
  have zero : nearestEven 0 = 0 := by exact_mod_cast nearestEven_intCast 0
  rw [round, zero_div, zero, Int.cast_zero, zero_mul]

theorem round_negatedIf (s : Bool) (x : ℚ) : g.round (negatedIf s x) = negatedIf s (g.round x) := by
  have same : g.unit (negatedIf s x) = g.unit x := by
    unfold unit place
    rw [abs_negatedIf]
  unfold round
  rw [same]
  cases s with
  | false => rfl
  | true =>
    simp only [negatedIf, if_true]
    rw [neg_div, nearestEven_neg, Int.cast_neg, neg_mul]

theorem power_eq {k : Int} (reached : g.place x ≤ k) :
    (g.base : ℚ) ^ k = ((g.base : Int) ^ (k - g.place x).toNat : Int) * g.unit x := by
  have places : ((k - g.place x).toNat : Int) = k - g.place x := Int.toNat_of_nonneg (by omega)
  rw [Int.cast_pow, Int.cast_natCast, ← zpow_natCast, places, unit, ← zpow_add₀ (ne_of_gt g.base_pos),
    Int.sub_add_cancel]

theorem round_of_multiple {m k : Int} (value : x = m * (g.base : ℚ) ^ k) (reached : g.place x ≤ k) :
    g.round x = x := by
  have units := value.trans (congrArg ((m : ℚ) * ·) (g.power_eq reached))
  rw [← mul_assoc, ← Int.cast_mul] at units
  have whole := (div_eq_iff (ne_of_gt (g.unit_pos x))).mpr units
  rw [round, whole, nearestEven_intCast, ← whole, div_mul_cancel₀ _ (ne_of_gt (g.unit_pos x))]

theorem power_le_round {k : Int} (digits : 0 < g.digits) (reached : g.least ≤ k)
    (least : (g.base : ℚ) ^ k ≤ x) : (g.base : ℚ) ^ k ≤ g.round x := by
  have positive : 0 < x := (zpow_pos g.base_pos k).trans_le least
  have top := (Int.zpow_le_iff_le_log g.radix positive).mp least
  have leading := Int.zpow_log_le_self g.radix positive
  have place : g.place x ≤ Int.log g.base x := by
    rw [Grid.place, abs_of_pos positive]
    omega
  have radix : (1 : ℚ) ≤ g.base := by exact_mod_cast g.radix.le
  have units := g.power_eq place
  -- The power that leads is a whole number of units, and the nearest whole number is not below it.
  rw [units] at leading
  have nearest := le_nearestEven ((le_div_iff₀ (g.unit_pos x)).mpr leading)
  calc (g.base : ℚ) ^ k ≤ (g.base : ℚ) ^ Int.log g.base x := zpow_le_zpow_right₀ radix top
    _ ≤ g.round x := by
      rw [units]
      exact mul_le_mul_of_nonneg_right (by exact_mod_cast nearest) (g.unit_pos x).le

theorem round_small (digits : 0 < g.digits) (positive : 0 < x)
    (small : x < 1 / 2 * (g.base : ℚ) ^ g.least) : g.round x = 0 := by
  have unit : (0 : ℚ) < (g.base : ℚ) ^ g.least := zpow_pos g.base_pos _
  have below : x < (g.base : ℚ) ^ g.least := by linarith
  have top := (Int.lt_zpow_iff_log_lt g.radix positive).mp below
  have place : g.place x = g.least := by
    rw [Grid.place, abs_of_pos positive]
    omega
  have none : nearestEven (x / g.unit x) = 0 := by
    rw [Grid.unit, place]
    exact nearestEven_small (div_nonneg positive.le unit.le) ((div_lt_iff₀ unit).mpr small)
  rw [round, none, Int.cast_zero, zero_mul]

end Grid

end Reckoner
