import Reckoner.Decimal.Power
import Reckoner.Proofs.Outcome
import Reckoner.Proofs.Values.Digits

namespace Reckoner.Decimal

/-- An infinity, or a finite number or a payload of the context. -/
def Fits (ctx : Context) : Decimal → Prop
  | notNumber _ _ payload => digitCount payload ≤ ctx.precision
  | infinity _ => True
  | finite _ c e => digitCount c ≤ ctx.precision ∧ ctx.tiny ≤ e ∧ adjusted c e ≤ ctx.maxExponent

/-- A context that keeps some digits of numbers around one. -/
structure Context.Proper (ctx : Context) : Prop where
  precision : 0 < ctx.precision
  least : ctx.minExponent ≤ 0
  greatest : 0 ≤ ctx.maxExponent

theorem engine_proper : Context.engine.Proper := ⟨by decide, by decide, by decide⟩

variable {ctx : Context}

abbrev Fitting (ctx : Context) (x : Except Signal Decimal) : Prop :=
  Ends (Fits ctx) (fun _ => True) x

theorem nan_fits (proper : ctx.Proper) : Fits ctx nan := by
  have digits : digitCount 0 = 1 := digitCount_of_lt (by decide)
  show digitCount 0 ≤ ctx.precision
  rw [digits]
  exact proper.precision

theorem propagate_fits (proper : ctx.Proper) (signaling s : Bool) (payload : Nat) :
    Fitting ctx (ctx.propagate signaling s payload) :=
  .ite (fun _ => trivial) fun _ => digitCount_le_of_lt proper.precision (Nat.mod_lt _ (tenTo_pos _))

theorem zero_fits (proper : ctx.Proper) (s : Bool) {e : Int} (low : ctx.tiny ≤ e)
    (high : e ≤ ctx.maxExponent) : Fits ctx (finite s 0 e) := by
  have digits : digitCount 0 = 1 := digitCount_of_lt (by decide)
  refine ⟨?_, low, ?_⟩
  · rw [digits]
    exact proper.precision
  · rw [adjusted, digits]
    omega

theorem one_fits (proper : ctx.Proper) (s : Bool) {zeros : Nat} (fewer : zeros < ctx.precision) :
    Fits ctx (finite s (tenTo zeros) (-(zeros : Int))) := by
  have least := proper.least
  have greatest := proper.greatest
  refine ⟨?_, ?_, ?_⟩
  · rw [digitCount_tenTo]
    exact fewer
  · unfold Context.tiny
    omega
  · rw [adjusted, digitCount_tenTo]
    omega

theorem tiny_le (proper : ctx.Proper) : ctx.tiny ≤ 0 := by
  have precision := proper.precision
  have least := proper.least
  unfold Context.tiny
  omega

theorem kept_le_tenTo (n : Nat) {d : Nat} (divisor : 0 < d) {e top low : Int}
    (leading : logTen n d + e = top) (reaches : ¬ top + 1 < low) :
    roundHalfEven (n * tenTo (e - low).toNat) (d * tenTo (low - e).toNat) ≤
      tenTo (top + 1 - low).toNat := by
  have bound := lt_tenTo_logTen divisor
    (n := n) (x := (-(logTen n d + 1)).toNat) (y := (logTen n d + 1).toNat) (by omega)
  refine roundHalfEven_le ?_
  rw [Nat.mul_assoc, ← tenTo_add]
  exact lt_of_scaled bound (by omega)

theorem roundQuotient_fits (proper : ctx.Proper) (s : Bool) (n : Nat) {d : Nat} (divisor : 0 < d)
    (e : Int) : Fitting ctx (ctx.roundQuotient s n d e) := by
  unfold Context.roundQuotient
  dsimp only
  generalize leading : logTen n d + e = top
  generalize last : ctx.lastExponent top = low
  have precision := proper.precision
  have least := proper.least
  have greatest := proper.greatest
  have lowest : ctx.tiny = ctx.minExponent - ctx.precision + 1 := rfl
  have place : top - ctx.precision + 1 ≤ low ∧ ctx.tiny ≤ low ∧
      (low = top - ctx.precision + 1 ∨ low = ctx.tiny) := by
    unfold Context.lastExponent at last
    omega
  refine .ite (fun _ => trivial) fun within => ?_
  generalize kept : (if top + 1 < low then 0 else
    roundHalfEven (n * tenTo (e - low).toNat) (d * tenTo (low - e).toNat)) = q
  have bound : q ≤ tenTo (top + 1 - low).toNat := by
    subst kept
    split
    · exact Nat.zero_le _
    · exact kept_le_tenTo n divisor leading ‹_›
  apply Ends.ite
  · intro carry
    refine .ite (fun _ => trivial) fun inside => ?_
    have all : ctx.precision ≤ (top + 1 - low).toNat := tenTo_le_iff.mp (carry ▸ bound)
    refine ⟨?_, ?_, ?_⟩
    · rw [digitCount_tenTo]
      omega
    · omega
    · rw [adjusted, digitCount_tenTo]
      omega
  · intro other
    have most : tenTo (top + 1 - low).toNat ≤ tenTo ctx.precision := tenTo_le_iff.mpr (by omega)
    have digits : digitCount q ≤ ctx.precision := digitCount_le_of_lt precision (by omega)
    refine ⟨digits, place.2.1, ?_⟩
    rw [adjusted]
    omega

theorem round_fits (proper : ctx.Proper) (d : Decimal) : Fitting ctx (ctx.round d) := by
  have greatest := proper.greatest
  have tiny := tiny_le proper
  cases d with
  | notNumber signaling s payload => exact .ite (fun _ => trivial) fun fits => Nat.not_lt.mp fits
  | infinity => trivial
  | finite s c e =>
    cases c with
    | zero => exact zero_fits proper s (by omega) (by omega)
    | succ c =>
      apply Ends.ite
      · intro kept
        refine .ite (fun _ => trivial) fun within => ?_
        have place : adjusted (c + 1) e - ctx.precision + 1 ≤ e ∧ ctx.tiny ≤ e := by
          unfold Context.lastExponent at kept
          omega
        have top : adjusted (c + 1) e = (digitCount (c + 1) : Int) + e - 1 := rfl
        refine ⟨?_, place.2, ?_⟩ <;> omega
      · intro _
        exact roundQuotient_fits proper s (c + 1) Nat.one_pos e

theorem round_overflows (ctx : Context) {d : Decimal} (number : d.isNan = false) :
    Ends (fun r => r.isFinite = d.isFinite) (fun signal => signal = .overflow) (ctx.round d) := by
  have quotient (s : Bool) (n d : Nat) (e : Int) :
      Ends (fun r => r.isFinite = true) (fun signal => signal = .overflow)
        (ctx.roundQuotient s n d e) :=
    .ite (fun _ => rfl) fun _ => .ite (fun _ => .ite (fun _ => rfl) fun _ => rfl) fun _ => rfl
  unfold Context.round
  split
  · cases number
  · rfl
  · exact .ite (fun _ => .ite (fun _ => rfl) fun _ => rfl) fun _ => quotient _ _ _ _
  · rfl

theorem round_positive (ctx : Context) (s : Bool) {c : Nat} (e : Int) (positive : 0 < c) :
    ctx.round (finite s c e) =
      if ctx.lastExponent (adjusted c e) ≤ e then
        if ctx.maxExponent < adjusted c e then .error .overflow else .ok (finite s c e)
      else ctx.roundQuotient s c 1 e := by
  cases c with
  | zero => cases positive
  | succ c => rfl

theorem logTen_adjusted {c : Nat} (e : Int) (positive : 0 < c) : logTen c 1 + e = adjusted c e := by
  rw [logTen_one positive, adjusted]
  omega

theorem round_of_above {s : Bool} {c : Nat} {e : Int} (positive : 0 < c)
    (above : ctx.maxExponent < adjusted c e) : ctx.round (finite s c e) = .error .overflow := by
  have quotient : ctx.roundQuotient s c 1 e = .error .overflow :=
    if_pos (logTen_adjusted e positive ▸ above)
  rw [round_positive ctx s e positive, if_pos above, quotient, ite_self]

theorem adjusted_le_of_round {s : Bool} {c : Nat} {e : Int} {d : Decimal} (positive : 0 < c)
    (rounded : ctx.round (finite s c e) = .ok d) : adjusted c e ≤ ctx.maxExponent := by
  refine Int.not_lt.mp fun above => ?_
  cases rounded.symm.trans (round_of_above positive above)

theorem le_adjusted_of_refused {s : Bool} {c : Nat} {e : Int} {signal : Signal}
    (refused : ctx.round (finite s c e) = .error signal) : ctx.maxExponent ≤ adjusted c e := by
  rcases Nat.eq_zero_or_pos c with rfl | positive
  · cases refused
  refine Int.not_lt.mp fun below => ?_
  have inside := Int.not_lt.mpr (Int.le_of_lt below)
  rw [round_positive ctx s e positive, if_neg inside] at refused
  split at refused
  · cases refused
  · unfold Context.roundQuotient at refused
    dsimp only at refused
    rw [logTen_adjusted e positive, if_neg inside, if_neg (Int.not_lt.mpr below)] at refused
    split at refused <;> split at refused <;> cases refused

theorem round_of_fits {d : Decimal} (fits : d.Fits ctx) : ctx.round d = .ok d := by
  cases d with
  | notNumber => exact if_neg (Nat.not_lt.mpr fits)
  | infinity => rfl
  | finite s c e =>
    obtain ⟨digits, low, high⟩ := fits
    cases c with
    | zero =>
      have one : digitCount 0 = 1 := digitCount_of_lt (by decide)
      rw [adjusted, one] at high
      show Except.ok (finite s 0 (max ctx.tiny (min e ctx.maxExponent))) = _
      congr 2
      omega
    | succ c =>
      have kept : ctx.lastExponent (adjusted (c + 1) e) ≤ e := by
        unfold Context.lastExponent adjusted
        omega
      exact (if_pos kept).trans (if_neg (Int.not_lt.mpr high))

theorem negate_of_fits {s : Bool} {c : Nat} {e : Int} (fits : (finite s c e).Fits ctx) :
    negate ctx (finite s c e) = .ok (finite (!s && c != 0) c e) := by
  have changed (t : Bool) : ctx.round (finite t c e) = .ok (finite t c e) := round_of_fits fits
  cases c with
  | zero =>
    have positive : (!s && 0 != 0) = false := Bool.and_false _
    rw [positive]
    exact changed false
  | succ c =>
    have other : (!s && c + 1 != 0) = !s := Bool.and_true _
    rw [other]
    exact changed !s

theorem add_fits (proper : ctx.Proper) (a b : Decimal) : Fitting ctx (add ctx a b) := by
  unfold add
  split
  · exact propagate_fits proper _ _ _
  · exact propagate_fits proper _ _ _
  · exact .ite (fun _ => trivial) fun _ => trivial
  · trivial
  · trivial
  · exact round_fits proper _

theorem negate_fits (proper : ctx.Proper) (d : Decimal) : Fitting ctx (negate ctx d) := by
  unfold negate
  split
  · exact propagate_fits proper _ _ _
  · exact round_fits proper _
  · exact round_fits proper _

theorem multiply_fits (proper : ctx.Proper) (a b : Decimal) : Fitting ctx (multiply ctx a b) := by
  unfold multiply
  split
  · exact propagate_fits proper _ _ _
  · exact propagate_fits proper _ _ _
  · exact .ite (fun _ => trivial) fun _ => trivial
  · exact .ite (fun _ => trivial) fun _ => trivial
  · exact round_fits proper _

theorem multiply_overflows (ctx : Context) {a b : Decimal} (left : a.isFinite = true)
    (right : b.isFinite = true) :
    Ends (fun r => r.isFinite = true) (fun signal => signal = .overflow) (multiply ctx a b) := by
  cases a with
  | notNumber | infinity => cases left
  | finite =>
    cases b with
    | notNumber | infinity => cases right
    | finite => exact round_overflows ctx rfl

theorem finiteQuotient_fits (proper : ctx.Proper) (s : Bool) (c₁ : Nat) (e₁ : Int) {c₂ : Nat}
    (divisor : c₂ ≠ 0) (e₂ : Int) : Fitting ctx (finiteQuotient ctx s c₁ e₁ c₂ e₂) := by
  refine .ite (fun _ => round_fits proper _) fun _ => .ite (fun _ => round_fits proper _) fun _ => ?_
  exact roundQuotient_fits proper s _ (Nat.mul_pos (Nat.pos_of_ne_zero divisor) (tenTo_pos _)) _

theorem divide_fits (proper : ctx.Proper) (a b : Decimal) : Fitting ctx (divide ctx a b) := by
  have tiny := tiny_le proper
  have greatest := proper.greatest
  unfold divide
  split
  · exact propagate_fits proper _ _ _
  · exact propagate_fits proper _ _ _
  · trivial
  · trivial
  · rename_i d s number infinity
    exact zero_fits proper (s != d.hasSign) (Int.le_refl _) (by omega)
  · exact .ite (fun _ => trivial) fun divisor => finiteQuotient_fits proper _ _ _ divisor _

theorem ofNat_one_fits (proper : ctx.Proper) : Fits ctx (ofNat 1) :=
  one_fits proper false proper.precision

theorem powerOfOne_fits (proper : ctx.Proper) (s : Bool) (e : Int) (negative : Bool) (n : Nat) :
    Fits ctx (powerOfOne ctx s e negative n) := by
  have precision := proper.precision
  unfold powerOfOne
  split
  · exact one_fits proper s precision
  · exact one_fits proper s (by omega)

theorem power_fits (proper : ctx.Proper) (a b : Decimal) : Fitting ctx (power ctx a b) := by
  have zero (s : Bool) : Fits ctx (finite s 0 0) :=
    zero_fits proper s (tiny_le proper) proper.greatest
  unfold power
  dsimp only
  split
  · exact propagate_fits proper _ _ _
  · exact propagate_fits proper _ _ _
  · trivial
  · show Fits ctx (ite _ _ _)
    split
    · exact ofNat_one_fits proper
    · split
      · exact zero _
      · trivial
  · refine .ite (fun _ => trivial) fun _ => ?_
    show Fits ctx (ite _ _ _)
    split
    · trivial
    · exact zero _
  · refine .ite (fun _ => ofNat_one_fits proper) fun _ =>
      .ite (fun _ => powerOfOne_fits proper ..) fun _ => ?_
    exact .after fun _ => round_fits proper _

end Reckoner.Decimal
