import Reckoner.Decimal.Power
import Reckoner.Proofs.Outcome
import Reckoner.Value.Convert

namespace Reckoner

namespace Decimal

variable {ctx : Context} {a b : Decimal}

abbrev Silent (x : Except Signal Decimal) : Prop :=
  Ends (fun d => d.isSignaling = false) (fun _ => True) x

theorem isSignaling_of_number {d : Decimal} (number : d.isNan = false) : d.isSignaling = false := by
  cases d with
  | notNumber => cases number
  | infinity | finite => rfl

theorem propagate_silent (signaling s : Bool) (payload : Nat) :
    Silent (ctx.propagate signaling s payload) :=
  .ite (fun _ => trivial) fun _ => rfl

theorem roundQuotient_silent (s : Bool) (n d : Nat) (e : Int) : Silent (ctx.roundQuotient s n d e) :=
  .ite (fun _ => trivial) fun _ => .ite (fun _ => .ite (fun _ => trivial) fun _ => rfl) fun _ => rfl

theorem round_silent {d : Decimal} (quiet : d.isSignaling = false) : Silent (ctx.round d) := by
  unfold Context.round
  split
  · exact .ite (fun _ => trivial) fun _ => quiet
  · rfl
  · exact .ite (fun _ => .ite (fun _ => trivial) fun _ => rfl) fun _ => roundQuotient_silent _ _ _ _
  · rfl

theorem add_silent (a b : Decimal) : Silent (add ctx a b) := by
  unfold add
  split
  · exact propagate_silent _ _ _
  · exact propagate_silent _ _ _
  · exact .ite (fun _ => rfl) fun _ => trivial
  · rfl
  · rfl
  · exact round_silent rfl

theorem negate_silent (d : Decimal) : Silent (negate ctx d) := by
  cases d with
  | notNumber => exact propagate_silent _ _ _
  | infinity => rfl
  | finite s c e =>
    cases c with
    | zero => exact round_silent (d := finite false 0 e) rfl
    | succ c => exact round_silent (d := finite (!s) (c + 1) e) rfl

theorem absolute_silent (d : Decimal) : Silent (absolute ctx d) := by
  cases d with
  | notNumber => exact propagate_silent _ _ _
  | infinity => rfl
  | finite => exact round_silent rfl

theorem multiply_silent (a b : Decimal) : Silent (multiply ctx a b) := by
  unfold multiply
  split
  · exact propagate_silent _ _ _
  · exact propagate_silent _ _ _
  · exact .ite (fun _ => trivial) fun _ => rfl
  · exact .ite (fun _ => trivial) fun _ => rfl
  · exact round_silent rfl

theorem finiteQuotient_silent (s : Bool) (c₁ : Nat) (e₁ : Int) (c₂ : Nat) (e₂ : Int) :
    Silent (finiteQuotient ctx s c₁ e₁ c₂ e₂) :=
  .ite (fun _ => round_silent rfl) fun _ => .ite (fun _ => round_silent rfl) fun _ =>
    roundQuotient_silent _ _ _ _

theorem divide_silent (a b : Decimal) : Silent (divide ctx a b) := by
  unfold divide
  split
  · exact propagate_silent _ _ _
  · exact propagate_silent _ _ _
  · trivial
  · rfl
  · rfl
  · exact .ite (fun _ => trivial) fun _ => finiteQuotient_silent _ _ _ _ _

theorem quantize_silent (places : Int) (d : Decimal) : Silent (quantize ctx places d) := by
  cases d with
  | notNumber => exact propagate_silent _ _ _
  | infinity => trivial
  | finite =>
    exact .ite (fun _ => trivial) fun _ => .ite (fun _ => rfl) fun _ => .ite (fun _ => trivial) fun _ =>
      .ite (fun _ => trivial) fun _ => rfl

theorem powerBits_silent {base power : Decimal} {bits : List Bool} (quiet : power.isSignaling = false) :
    Silent (powerBits ctx base power bits) := by
  induction bits generalizing power with
  | nil => exact quiet
  | cons bit bits ih =>
    apply (multiply_silent power power).bind
    intro square quiet
    have rest (next : Decimal) (quiet : next.isSignaling = false) :
        Silent (if next.vanished then .ok next else powerBits ctx base next bits) :=
      .ite (fun _ => quiet) fun _ => ih quiet
    exact .ite (fun _ => (multiply_silent square base).bind rest) fun _ => rest square quiet

theorem powerSquares_silent {base power : Decimal} {bits : List Bool} (quiet : power.isSignaling = false) :
    Silent (powerSquares ctx base power bits) := by
  induction bits generalizing base power with
  | nil => exact quiet
  | cons bit bits ih =>
    have rest (next : Decimal) (quiet : next.isSignaling = false) :
        Silent (if next.vanished || bits.isEmpty then .ok next
          else multiply ctx base base >>= fun square => powerSquares ctx square next bits) :=
      .ite (fun _ => quiet) fun _ => .after fun _ => ih quiet
    exact .ite (fun _ => (multiply_silent power base).bind rest) fun _ => rest power quiet

theorem guardedPower_silent (c : Nat) (e : Int) (negative : Bool) (n : Nat) :
    Silent (guardedPower ctx c e negative n) := by
  have whole {base : Decimal} (quiet : base.isSignaling = false) : Silent (wholePower ctx base n) :=
    .ite (fun _ => powerBits_silent quiet) fun _ => powerSquares_silent rfl
  exact .ite (fun _ => (divide_silent _ _).bind fun _ => whole) fun _ => whole rfl

theorem opposite_quiet {d : Decimal} (quiet : d.isSignaling = false) : d.opposite.isSignaling = false := by
  cases d with
  | notNumber => exact quiet
  | infinity | finite => rfl

theorem power_silent (a b : Decimal) : Silent (power ctx a b) := by
  unfold power
  dsimp only
  split
  · exact propagate_silent _ _ _
  · exact propagate_silent _ _ _
  · trivial
  · show Decimal.isSignaling (ite _ _ _) = false
    split
    · rfl
    · split <;> rfl
  · refine .ite (fun _ => trivial) fun _ => ?_
    show Decimal.isSignaling (ite _ _ _) = false
    split <;> rfl
  · refine .ite (fun _ => rfl) fun _ => .ite (fun _ => ?_) fun _ => ?_
    · show (powerOfOne _ _ _ _ _).isSignaling = false
      unfold powerOfOne
      split <;> rfl
    · apply (guardedPower_silent _ _ _ _).bind
      intro power quiet
      refine round_silent ?_
      split
      · exact opposite_quiet quiet
      · exact quiet

theorem toIntegral_quiet (mode : Rounding) {d : Decimal} (quiet : d.isSignaling = false) :
    (d.toIntegral mode).isSignaling = false := by
  cases d with
  | notNumber => exact quiet
  | infinity => rfl
  | finite =>
    unfold toIntegral
    dsimp only
    split <;> rfl

end Decimal

theorem Binary64.toDecimal_quiet (x : Float) : (toDecimal x).isSignaling = false := by
  unfold toDecimal
  split
  · rfl
  · rfl
  · dsimp only
    split <;> rfl

theorem decimalOfDouble_silent (x : Float) : Decimal.Silent (decimalOfDouble x) :=
  Decimal.round_silent (Binary64.toDecimal_quiet x)

def Decimal.Heeds (loud : Prop) (d : Decimal) : Prop := d.isSignaling = true → loud

def Value.Heeds (loud : Prop) : Value → Prop
  | decimal d => d.Heeds loud
  | _ => True

def HostValue.Heeds (loud : Prop) : HostValue → Prop
  | decimal d => d.Heeds loud
  | tagged v => v.Heeds loud
  | _ => True

abbrev Value.Quiet (v : Value) : Prop := v.Heeds False

abbrev HostValue.Quiet (v : HostValue) : Prop := v.Heeds False

theorem doubleOfDecimal_quiet {d : Decimal} (quiet : d.isSignaling = false) :
    doubleOfDecimal d = .ok (Binary64.ofDecimal d) := if_neg (Bool.eq_false_iff.mp quiet)

variable {loud : Prop}

theorem Decimal.heeds_of_quiet {d : Decimal} (quiet : d.isSignaling = false) : d.Heeds loud := by
  intro signaling
  rw [quiet] at signaling
  cases signaling

theorem HostValue.ofValue_heeds {v : Value} (heeds : v.Heeds loud) : (ofValue v).Heeds loud := by
  cases v with
  | decimal => exact heeds
  | empty | integer | double => trivial

end Reckoner
