import Reckoner.Proofs.Display.Literals
import Reckoner.Proofs.Rounding.Grid
import Reckoner.Proofs.Values.Decimals

namespace Reckoner.Decimal

def Context.grid (ctx : Context) : Grid := ⟨10, ctx.precision, ctx.tiny, by decide⟩

example : Context.engine.grid = ⟨10, 28, -55, by decide⟩ := rfl

def Context.greatest (ctx : Context) : ℚ :=
  (10 ^ ctx.precision - 1) * 10 ^ (ctx.maxExponent - ctx.precision + 1)

abbrev Context.Rounds (ctx : Context) (x : ℚ) (r : Except Signal Decimal) : Prop :=
  Ends (fun d => d.number? = some (ctx.grid.round x))
    (fun signal => signal = .overflow ∧ ctx.greatest < |ctx.grid.round x|) r

variable {ctx : Context}

theorem greatest_eq (ctx : Context) :
    ctx.greatest = 10 ^ (ctx.maxExponent + 1) - 10 ^ (ctx.maxExponent + 1 - ctx.precision) := by
  have place : ctx.maxExponent - ctx.precision + 1 = ctx.maxExponent + 1 - ctx.precision := by omega
  have ten : (10 : ℚ) ≠ 0 := by norm_num
  rw [Context.greatest, place, sub_mul, one_mul, ← zpow_natCast, ← zpow_add₀ ten]
  congr 2
  omega

theorem greatest_lt (ctx : Context) : ctx.greatest < 10 ^ (ctx.maxExponent + 1) := by
  have unit : (0 : ℚ) < 10 ^ (ctx.maxExponent + 1 - ctx.precision) := by positivity
  rw [greatest_eq]
  linarith

theorem abs_le_greatest {d : Decimal} {x : ℚ} (fits : d.Fits ctx) (value : d.number? = some x) :
    |x| ≤ ctx.greatest := by
  obtain ⟨s, c, e, rfl, rfl⟩ := exists_finite value
  obtain ⟨digits, -, top⟩ := fits
  have most : (c : ℚ) ≤ 10 ^ digitCount c - 1 := by
    have below : c + 1 ≤ tenTo (digitCount c) := lt_tenTo_digitCount c
    have cast : (c : ℚ) + 1 ≤ tenTo (digitCount c) := by exact_mod_cast below
    rw [cast_tenTo] at cast
    linarith
  have place : (10 : ℚ) ^ e ≤ 10 ^ (ctx.maxExponent + 1 - digitCount c) := by
    refine zpow_le_zpow_right₀ (by norm_num) ?_
    unfold adjusted at top
    omega
  have fewer : (10 : ℚ) ^ (ctx.maxExponent + 1 - ctx.precision) ≤
      10 ^ (ctx.maxExponent + 1 - digitCount c) := zpow_le_zpow_right₀ (by norm_num) (by omega)
  have positive : (0 : ℚ) ≤ c * 10 ^ e := by positivity
  rw [abs_negatedIf, abs_of_nonneg positive, greatest_eq]
  calc (c : ℚ) * 10 ^ e ≤ (10 ^ digitCount c - 1) * 10 ^ (ctx.maxExponent + 1 - digitCount c) := by
        gcongr
        exact le_trans (Nat.cast_nonneg c) most
    _ = 10 ^ (ctx.maxExponent + 1) - 10 ^ (ctx.maxExponent + 1 - digitCount c) := by
        rw [sub_mul, one_mul, ← zpow_natCast, ← zpow_add₀ (by norm_num)]
        congr 2
        omega
    _ ≤ 10 ^ (ctx.maxExponent + 1) - 10 ^ (ctx.maxExponent + 1 - ctx.precision) := by linarith

theorem Context.Rounds.cases {x : ℚ} {r : Except Signal Decimal} (rounds : ctx.Rounds x r)
    (fits : Fitting ctx r) :
    if |ctx.grid.round x| ≤ ctx.greatest then
      ∃ d, r = .ok d ∧ d.Fits ctx ∧ d.number? = some (ctx.grid.round x)
    else r = .error .overflow := by
  cases r with
  | ok d =>
    rw [if_pos (abs_le_greatest fits rounds)]
    exact ⟨d, rfl, fits, rounds⟩
  | error signal =>
    obtain ⟨rfl, beyond⟩ := rounds
    rw [if_neg (not_le.mpr beyond)]

theorem quotient_bounds {n d : Nat} (positive : 0 < n) (divisor : 0 < d) (e : Int) :
    (10 : ℚ) ^ (logTen n d + e) ≤ n / d * 10 ^ e ∧
      (n : ℚ) / d * 10 ^ e < 10 ^ (logTen n d + e + 1) := by
  have ten : (10 : ℚ) ≠ 0 := by norm_num
  have unit : (0 : ℚ) < 10 ^ e := by positivity
  constructor
  · rw [zpow_add₀ ten]
    exact mul_le_mul_of_nonneg_right (logTen_le positive divisor) unit.le
  · rw [add_right_comm, zpow_add₀ ten]
    exact mul_lt_mul_of_pos_right (lt_logTen divisor) unit

theorem place_eq {x : ℚ} {top : Int} (least : (10 : ℚ) ^ top ≤ x) (below : x < 10 ^ (top + 1)) :
    ctx.grid.place x = ctx.lastExponent top := by
  have positive : 0 < x := lt_of_lt_of_le (by positivity) least
  rw [Grid.place, abs_of_pos positive, ctx.grid.log_eq least below]
  rfl

theorem greatest_lt_round (proper : ctx.Proper) {x : ℚ} {top : Int} (above : ctx.maxExponent < top)
    (least : (10 : ℚ) ^ top ≤ x) : ctx.greatest < ctx.grid.round x := by
  have tiny : ctx.tiny ≤ top := by
    have low := tiny_le proper
    have greatest := proper.greatest
    omega
  calc ctx.greatest < 10 ^ (ctx.maxExponent + 1) := greatest_lt ctx
    _ ≤ 10 ^ top := zpow_le_zpow_right₀ (by norm_num) above
    _ ≤ ctx.grid.round x := ctx.grid.power_le_round proper.precision tiny least

theorem cast_shifted (n d : Nat) (e low : Int) :
    ((n * tenTo (e - low).toNat : Nat) : ℚ) / (d * tenTo (low - e).toNat : Nat) =
      n / d * 10 ^ e / 10 ^ low := by
  have ten : (10 : ℚ) ≠ 0 := by norm_num
  have opposite : low - e = -(e - low) := by omega
  rw [mul_div_assoc _ ((10 : ℚ) ^ e), ← zpow_sub₀ ten, zpow_eq_div ten, opposite, Nat.cast_mul,
    Nat.cast_mul, cast_tenTo, cast_tenTo]
  field_simp

theorem kept_eq {n d : Nat} (divisor : 0 < d) {e top : Int} (low : Int)
    (least : 0 ≤ (n : ℚ) / d * 10 ^ e) (below : (n : ℚ) / d * 10 ^ e < 10 ^ (top + 1)) :
    ((if top + 1 < low then 0 else
      roundHalfEven (n * tenTo (e - low).toNat) (d * tenTo (low - e).toNat) : Nat) : Int) =
      nearestEven (n / d * 10 ^ e / 10 ^ low) := by
  have unit : (0 : ℚ) < 10 ^ low := by positivity
  split
  · rename_i small
    refine (nearestEven_small (div_nonneg least unit.le) ?_).symm
    rw [div_lt_iff₀ unit]
    calc (n : ℚ) / d * 10 ^ e < 10 ^ (top + 1) := below
      _ ≤ 10 ^ (low - 1) := zpow_le_zpow_right₀ (by norm_num) (by omega)
      _ < 1 / 2 * 10 ^ low := by
        rw [zpow_sub_one₀ (by norm_num)]
        linarith
  · rw [roundHalfEven_cast _ (Nat.mul_pos divisor (tenTo_pos _)), cast_shifted]

theorem roundQuotient_rounds (proper : ctx.Proper) (s : Bool) {n d : Nat} (positive : 0 < n)
    (divisor : 0 < d) (e : Int) : ctx.Rounds (negatedIf s (n / d * 10 ^ e)) (ctx.roundQuotient s n d e) := by
  obtain ⟨least, below⟩ := quotient_bounds positive divisor e
  unfold Context.Rounds Context.roundQuotient
  dsimp only
  rw [ctx.grid.round_negatedIf]
  generalize logTen n d + e = top at least below ⊢
  have place : ctx.grid.place _ = ctx.lastExponent top := place_eq least below
  have kept := kept_eq divisor (ctx.lastExponent top) ((zpow_pos (by norm_num) top).le.trans least) below
  have value : ctx.grid.round (n / d * 10 ^ e) =
      nearestEven (n / d * 10 ^ e / 10 ^ ctx.lastExponent top) * 10 ^ ctx.lastExponent top := by
    rw [Grid.round, Grid.unit, place]
    rfl
  rw [← kept, Int.cast_natCast] at value
  generalize (if top + 1 < ctx.lastExponent top then 0 else roundHalfEven _ _) = q at value ⊢
  -- Out of range are numbers with a leading digit above it, and those carried there from below.
  refine .ite (fun above => ⟨rfl, ?_⟩) fun _ =>
    .ite (fun carry => .ite (fun above => ⟨rfl, ?_⟩) fun _ => ?_) fun _ => ?_
  · rw [abs_negatedIf]
    exact (greatest_lt_round proper above least).trans_le (le_abs_self _)
  · rw [abs_negatedIf, value, carry, cast_tenTo, ← zpow_natCast, ← zpow_add₀ (by norm_num)]
    refine (greatest_lt ctx).trans_le ((zpow_le_zpow_right₀ (by norm_num) ?_).trans (le_abs_self _))
    unfold Context.lastExponent
    omega
  · show number? _ = _
    have precision := proper.precision
    have digits : ctx.precision = ctx.precision - 1 + 1 := by omega
    rw [number?_finite, value, carry, digits, Nat.add_sub_cancel, tenTo_succ, Nat.cast_mul,
      zpow_add_one₀ (by norm_num)]
    congr 2
    push_cast
    ring
  · show number? _ = _
    rw [number?_finite, value]

/-- An exact number is brought into the context by rounding it once. -/
theorem round_rounds (proper : ctx.Proper) {d : Decimal} {x : ℚ} (value : d.number? = some x) :
    ctx.Rounds x (ctx.round d) := by
  obtain ⟨s, c, e, rfl, rfl⟩ := exists_finite value
  rcases Nat.eq_zero_or_pos c with rfl | positive
  · show number? (finite s 0 _) = _
    rw [number?_finite, ctx.grid.round_negatedIf, Nat.cast_zero, zero_mul, zero_mul, ctx.grid.round_zero]
  obtain ⟨least, below⟩ := adjusted_bounds positive e
  rw [round_positive ctx s e positive]
  refine .ite (fun kept => .ite (fun above => ⟨rfl, ?_⟩) fun _ => ?_) fun _ => ?_
  · rw [ctx.grid.round_negatedIf, abs_negatedIf]
    exact (greatest_lt_round proper above least).trans_le (le_abs_self _)
  · show number? _ = _
    have stays : ctx.grid.round (c * 10 ^ e) = c * 10 ^ e :=
      ctx.grid.round_of_multiple (m := c) (by push_cast; rfl) ((place_eq least below).le.trans kept)
    rw [number?_finite, ctx.grid.round_negatedIf, stays]
  · have rounds := roundQuotient_rounds proper s positive Nat.one_pos e
    rwa [Nat.cast_one, div_one] at rounds

def Context.Exceeded (ctx : Context) (d : Decimal) : Prop :=
  ∃ x, d.number? = some x ∧ ctx.greatest < |ctx.grid.round x|

def Context.Refuses (ctx : Context) (d : Decimal) : Prop := d.isNan = true ∧ ¬ d.Fits ctx

theorem round_of_refuses {d : Decimal} (refused : ctx.Refuses d) : ctx.round d = .error .invalid := by
  obtain ⟨nan, long⟩ := refused
  cases d with
  | notNumber => exact if_pos (Nat.not_le.mp long)
  | infinity | finite => cases nan

/-- What a context has of a decimal: the nearest number, or the infinity or not a number that it is. -/
structure Context.Holds (ctx : Context) (d r : Decimal) : Prop where
  fits : r.Fits ctx
  nearest : ∀ x, d.number? = some x → r.number? = some (ctx.grid.round x)
  same : d.number? = none → r = d

theorem round_cases (proper : ctx.Proper) (d : Decimal) :
    (ctx.Exceeded d → ctx.round d = .error .overflow) ∧
      (¬ ctx.Exceeded d → ¬ ctx.Refuses d → ∃ r, ctx.round d = .ok r ∧ ctx.Holds d r) := by
  cases value : d.number? with
  | none =>
    have other (x : ℚ) (number : d.number? = some x) : False := by cases value.symm.trans number
    refine ⟨fun ⟨x, number, _⟩ => (other x number).elim, fun _ held => ?_⟩
    have fits : d.Fits ctx := by
      cases d with
      | notNumber => exact not_not.mp fun long => held ⟨rfl, long⟩
      | infinity => trivial
      | finite => cases value
    exact ⟨d, round_of_fits fits, fits, fun x number => (other x number).elim, fun _ => rfl⟩
  | some x =>
    have cases := (round_rounds proper value).cases (round_fits proper d)
    constructor
    · rintro ⟨y, same, beyond⟩
      cases value.symm.trans same
      rwa [if_neg (not_le.mpr beyond)] at cases
    · intro inside _
      rw [if_pos (not_lt.mp fun beyond => inside ⟨x, value, beyond⟩)] at cases
      obtain ⟨r, rounded, fits, nearest⟩ := cases
      refine ⟨r, rounded, fits, fun y same => ?_, fun none => ?_⟩
      · cases value.symm.trans same
        exact nearest
      · cases value.symm.trans none

variable {a b : Decimal} {x y : ℚ}

theorem cast_scaled_exponent (c : Nat) {e low : Int} (reached : low ≤ e) :
    (scaled c e low : ℚ) * 10 ^ low = c * 10 ^ e := by
  rw [scaled, Nat.cast_mul, cast_tenTo, mul_assoc, ← zpow_natCast, ← zpow_add₀ (by norm_num)]
  congr 2
  omega

theorem exactSum_number (s₁ : Bool) (c₁ : Nat) (e₁ : Int) (s₂ : Bool) (c₂ : Nat) (e₂ : Int) :
    (exactSum s₁ c₁ e₁ s₂ c₂ e₂).number? =
      some (negatedIf s₁ (c₁ * 10 ^ e₁) + negatedIf s₂ (c₂ * 10 ^ e₂)) := by
  have first := cast_scaled_exponent c₁ (min_le_left e₁ e₂)
  have second := cast_scaled_exponent c₂ (min_le_right e₁ e₂)
  unfold exactSum
  dsimp only
  rw [number?, ← first, ← second, ← negatedIf_mul, ← negatedIf_mul, ← cast_signed, ← cast_signed,
    ← add_mul, ← Int.cast_add]
  generalize signed s₁ _ + signed s₂ _ = n
  by_cases zero : n = 0
  · subst zero
    simp [signed]
  · rw [if_neg zero, signed_natAbs]

theorem add_rounds (proper : ctx.Proper) (left : a.number? = some x) (right : b.number? = some y) :
    ctx.Rounds (x + y) (add ctx a b) := by
  obtain ⟨s₁, c₁, e₁, rfl, rfl⟩ := exists_finite left
  obtain ⟨s₂, c₂, e₂, rfl, rfl⟩ := exists_finite right
  exact round_rounds proper (exactSum_number s₁ c₁ e₁ s₂ c₂ e₂)

theorem opposite_number (value : b.number? = some y) : b.opposite.number? = some (-y) := by
  obtain ⟨s, c, e, rfl, rfl⟩ := exists_finite value
  rw [opposite, number?_finite]
  cases s <;> simp [negatedIf]

theorem subtract_rounds (proper : ctx.Proper) (left : a.number? = some x) (right : b.number? = some y) :
    ctx.Rounds (x - y) (subtract ctx a b) := by
  rw [sub_eq_add_neg]
  exact add_rounds proper left (opposite_number right)

theorem multiply_rounds (proper : ctx.Proper) (left : a.number? = some x) (right : b.number? = some y) :
    ctx.Rounds (x * y) (multiply ctx a b) := by
  obtain ⟨s₁, c₁, e₁, rfl, rfl⟩ := exists_finite left
  obtain ⟨s₂, c₂, e₂, rfl, rfl⟩ := exists_finite right
  refine round_rounds proper ?_
  rw [number?_finite, zpow_add₀ (by norm_num), Nat.cast_mul]
  cases s₁ <;> cases s₂ <;> simp [negatedIf] <;> ring

theorem dropZeros_number (steps c : Nat) (e : Int) :
    ((dropZeros steps c e).1 : ℚ) * 10 ^ (dropZeros steps c e).2 = c * 10 ^ e := by
  fun_induction dropZeros steps c e with
  | case1 => rfl
  | case2 steps c e more ih =>
    have whole : c = c / 10 * 10 := by omega
    rw [ih, zpow_add_one₀ (by norm_num)]
    conv_rhs => rw [whole]
    push_cast
    ring
  | case3 => rfl

theorem quotientTerms_number (ctx : Context) (c₁ : Nat) (e₁ : Int) (c₂ : Nat) (e₂ : Int) :
    ((quotientTerms ctx c₁ e₁ c₂ e₂).1 : ℚ) / (quotientTerms ctx c₁ e₁ c₂ e₂).2.1 *
      10 ^ (quotientTerms ctx c₁ e₁ c₂ e₂).2.2 = c₁ * 10 ^ e₁ / (c₂ * 10 ^ e₂) := by
  have ten : (10 : ℚ) ≠ 0 := by norm_num
  unfold quotientTerms
  dsimp only
  generalize (digitCount c₂ : Int) - digitCount c₁ + ctx.precision + 1 = shift
  rw [zpow_sub₀ ten, zpow_sub₀ ten, zpow_eq_div ten shift, Nat.cast_mul, Nat.cast_mul, cast_tenTo,
    cast_tenTo]
  field_simp

theorem finiteQuotient_rounds (proper : ctx.Proper) (s : Bool) (c₁ : Nat) (e₁ : Int) {c₂ : Nat}
    (divisor : 0 < c₂) (e₂ : Int) :
    ctx.Rounds (negatedIf s (c₁ * 10 ^ e₁ / (c₂ * 10 ^ e₂))) (finiteQuotient ctx s c₁ e₁ c₂ e₂) := by
  have terms := quotientTerms_number ctx c₁ e₁ c₂ e₂
  unfold finiteQuotient
  split
  · rename_i zero
    refine round_rounds proper ?_
    rw [number?_finite, zero, Nat.cast_zero, zero_mul, zero_mul, zero_div]
  rename_i some
  have positive : 0 < (quotientTerms ctx c₁ e₁ c₂ e₂).1 :=
    Nat.mul_pos (Nat.pos_of_ne_zero some) (tenTo_pos _)
  have scaled : 0 < (quotientTerms ctx c₁ e₁ c₂ e₂).2.1 := Nat.mul_pos divisor (tenTo_pos _)
  generalize quotientTerms ctx c₁ e₁ c₂ e₂ = t at terms positive scaled ⊢
  obtain ⟨n, d, e⟩ := t
  dsimp only at terms positive scaled ⊢
  rw [← terms]
  refine .ite (fun exact => ?_) fun _ => roundQuotient_rounds proper s positive scaled e
  refine round_rounds proper ?_
  rw [number?_finite, dropZeros_number, Nat.cast_div (Nat.dvd_of_mod_eq_zero exact) (by positivity)]

theorem divide_rounds (proper : ctx.Proper) (left : a.number? = some x) (right : b.number? = some y)
    (divisor : y ≠ 0) : ctx.Rounds (x / y) (divide ctx a b) := by
  obtain ⟨s₁, c₁, e₁, rfl, rfl⟩ := exists_finite left
  obtain ⟨s₂, c₂, e₂, rfl, rfl⟩ := exists_finite right
  have some : c₂ ≠ 0 := by
    rintro rfl
    cases s₂ <;> simp [negatedIf] at divisor
  have rounds := finiteQuotient_rounds proper (s₁ != s₂) c₁ e₁ (Nat.pos_of_ne_zero some) e₂
  have value : negatedIf (s₁ != s₂) ((c₁ : ℚ) * 10 ^ e₁ / (c₂ * 10 ^ e₂)) =
      negatedIf s₁ (c₁ * 10 ^ e₁) / negatedIf s₂ (c₂ * 10 ^ e₂) := by
    cases s₁ <;> cases s₂ <;> simp [negatedIf, neg_div, div_neg]
  rw [value] at rounds
  rw [divide, if_neg some]
  exact rounds

end Reckoner.Decimal
