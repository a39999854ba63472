import Reckoner.Function.Library
import Reckoner.Proofs.Errors.Numeric

namespace Reckoner

variable {α : Type}

/-- A computation that fails with no error but one of the engine. -/
abbrev Expected (x : Except Error α) : Prop := Ends (fun _ => True) (fun e => e.isEngine = true) x

abbrev Peaceful (x : Except Error HostValue) : Prop :=
  Ends HostValue.Quiet (fun e => e.isEngine = true) x

theorem Error.Numeric.isEngine {e : Error} (numeric : e.Numeric False) : e.isEngine = true := by
  cases e with
  | badValue fault => cases fault <;> exact numeric.elim
  | badKind => exact numeric.elim
  | _ => rfl

theorem Ends.engine {good : α → Prop} {x : Except Error α} (numeric : Ends good (Error.Numeric False) x) :
    Ends good (fun e => e.isEngine = true) x :=
  numeric.weaken fun _ => Error.Numeric.isEngine

theorem Binary64.ieee_succeeds (r : Except MathFault Float) : ∃ x, ieee r = .ok x := by
  rcases r with (_ | _) | x <;> exact ⟨_, rfl⟩

theorem Binary64.logarithm_succeeds (log : Float → Float) (x : Float) :
    ∃ y, logarithm log x = .ok y := by
  unfold logarithm
  split
  · exact ⟨_, rfl⟩
  · exact ieee_succeeds _

theorem Binary64.sinh_succeeds (x : Float) : ∃ y, sinh x = .ok y := by
  obtain ⟨y, done⟩ := ieee_succeeds (checked true Float.sinh x)
  exact ⟨_, by rw [sinh, done]; rfl⟩

namespace HostValue

theorem exactly_peaceful {r : Except Decimal.Signal Decimal} (silent : Decimal.Silent r) :
    Peaceful (exactly r) := by
  have expected : Ends (fun d => d.isSignaling = false) (fun e => e.isEngine = true)
      (r.mapError Error.decimal) := silent.mapError fun _ _ => rfl
  exact expected.map fun _ => Decimal.heeds_of_quiet

theorem Number.whole_toDouble_numeric (n : Int) : Numeric False (Number.whole n).toDouble := by
  unfold toDouble
  dsimp only
  split <;> trivial

theorem asDouble_numeric {v : Value} (quiet : v.Quiet) : Numeric False (ofValue v).asDouble := by
  cases v with
  | empty => exact Number.whole_toDouble_numeric 0
  | integer n => exact Number.whole_toDouble_numeric n
  | decimal d => exact doubleOfDecimal_numeric quiet
  | double x => trivial

theorem toWhole_peaceful (mode : Rounding) {v : Value} (quiet : v.Quiet) :
    Peaceful (toWhole mode (ofValue v)) := by
  cases v with
  | empty | integer | double => trivial
  | decimal d =>
    have calm : d.isSignaling = false := Bool.eq_false_iff.mpr quiet
    exact Decimal.heeds_of_quiet (Decimal.toIntegral_quiet mode calm)

theorem absolute_peaceful (v : Value) : Peaceful (ofValue v).absolute := by
  cases v with
  | empty | integer | double => trivial
  | decimal d => exact exactly_peaceful (Decimal.absolute_silent d)

theorem sign_peaceful (v : Value) : Peaceful (ofValue v).sign := by cases v <;> trivial

theorem digitsOf_succeeds {digits : Value} (finite : finiteDigits (ofValue digits) = .ok ()) :
    ∃ n, digitsOf (ofValue digits) = .ok n := by
  cases digits with
  | empty => exact ⟨0, rfl⟩
  | integer n => exact ⟨n, rfl⟩
  | decimal d =>
    cases d with
    | notNumber | infinity => cases finite
    | finite s c e => exact ⟨_, rfl⟩
  | double x =>
    have passes : Binary64.isFinite x = true := by
      simp only [ofValue, finiteDigits] at finite
      split at finite
      · assumption
      · cases finite
    obtain ⟨n, truncated⟩ : ∃ n, Binary64.toInt? .down x = some n := by
      unfold Binary64.isFinite at passes
      unfold Binary64.toInt?
      split at passes
      · exact ⟨_, rfl⟩
      · cases passes
    refine ⟨n, ?_⟩
    have number : (double x).toNumber = pure (.double x) := rfl
    show (double x).asWhole = .ok n
    simp only [asWhole, number, pure_bind, truncated]
    rfl

theorem roundDecimalTo_peaceful (digits : Int) (d : Decimal) : Peaceful (roundDecimalTo digits d) :=
  .ite (fun _ => rfl) fun _ => exactly_peaceful (Decimal.quantize_silent digits d)

theorem roundDoubleTo_peaceful (digits : Int) (x : Float) : Peaceful (roundDoubleTo digits x) := by
  unfold roundDoubleTo
  split
  · exact .ite (fun _ => trivial) fun _ => .ite (fun _ => trivial) fun _ =>
      .ite (fun _ => rfl) fun _ => trivial
  · trivial

theorem finiteDigits_expected (digits : Value) : Expected (finiteDigits (ofValue digits)) := by
  cases digits with
  | empty | integer => trivial
  | decimal | double => exact .ite (fun _ => trivial) fun _ => rfl

theorem roundTo_peaceful {v : Value} (digits : Value) (quiet : v.Quiet) :
    Peaceful ((ofValue v).roundTo (ofValue digits)) := by
  unfold roundTo
  cases finite : finiteDigits (ofValue digits) with
  | error e => exact (finiteDigits_expected digits).of_error finite
  | ok _ =>
    obtain ⟨n, whole⟩ := digitsOf_succeeds finite
    show Peaceful (digitsOf (ofValue digits) >>= _)
    rw [whole]
    cases v with
    | empty | integer => trivial
    | decimal d => exact .ite (fun _ => roundDecimalTo_peaceful n d) fun _ => quiet
    | double x => exact roundDoubleTo_peaceful n x

end HostValue

namespace Library

open HostValue

def Careful (f : Function) : Prop :=
  ∀ vs : List Value, (∀ v ∈ vs, v.Quiet) → f.accept (vs.map HostValue.ofValue) = .ok () →
    Peaceful (f.body (vs.map HostValue.ofValue))

theorem entry_length {name : String} {arity : Nat} {body : List HostValue → Except Error HostValue}
    {args : List HostValue} (accepted : (entry name arity body).2.accept args = .ok ()) :
    args.length = arity := by
  simp only [Function.accept, entry] at accepted
  split at accepted
  · omega
  · cases accepted

theorem careful_of_one {name : String} {body : List HostValue → Except Error HostValue}
    (peaceful : ∀ {v : Value}, v.Quiet → Peaceful (body [HostValue.ofValue v])) :
    Careful (entry name 1 body).2 := by
  intro vs quiet accepted
  have length := entry_length accepted
  rw [List.length_map] at length
  obtain ⟨v, rfl⟩ := List.length_eq_one_iff.mp length
  exact peaceful (quiet v List.mem_cons_self)

theorem careful_of_two {name : String} {body : List HostValue → Except Error HostValue}
    (peaceful : ∀ {v w : Value}, v.Quiet → w.Quiet →
      Peaceful (body [HostValue.ofValue v, HostValue.ofValue w])) :
    Careful (entry name 2 body).2 := by
  intro vs quiet accepted
  have length := entry_length accepted
  rw [List.length_map] at length
  rcases vs with _ | ⟨v, _ | ⟨w, _ | _⟩⟩
  case cons.cons.nil => exact peaceful (quiet v (by simp)) (quiet w (by simp))
  all_goals cases length

theorem ofDouble_careful (name : String) {f : Float → Except Binary64.MathFault Float}
    (succeeds : ∀ x, ∃ y, f x = .ok y) : Careful (entry name 1 (ofDouble f)).2 := by
  refine careful_of_one fun quiet => (asDouble_numeric quiet).engine.bind fun x _ => ?_
  obtain ⟨y, done⟩ := succeeds x
  rw [done]
  trivial

theorem ofDoubles_careful (name : String) {f : Float → Float → Except Binary64.MathFault Float}
    (succeeds : ∀ x y, ∃ z, f x y = .ok z) : Careful (entry name 2 (ofDoubles f)).2 := by
  refine careful_of_two fun first second => (asDouble_numeric first).engine.bind fun x _ =>
    (asDouble_numeric second).engine.bind fun y _ => ?_
  obtain ⟨z, done⟩ := succeeds x y
  rw [done]
  trivial

theorem ofValue_careful (name : String) {f : HostValue → Except Error HostValue}
    (peaceful : ∀ {v : Value}, v.Quiet → Peaceful (f (.ofValue v))) :
    Careful (entry name 1 (Library.ofValue f)).2 :=
  careful_of_one peaceful

theorem log_careful (name : String) : Careful (entry name 2 log).2 := by
  refine careful_of_two fun first second => (asDouble_numeric second).engine.bind fun x _ => ?_
  obtain ⟨b, base⟩ := Binary64.logarithm_succeeds Float.log x
  rw [base]
  refine .ite (fun _ => trivial) fun _ => (asDouble_numeric first).engine.bind fun y _ => ?_
  obtain ⟨a, log⟩ := Binary64.logarithm_succeeds Float.log y
  rw [log]
  dsimp only [Except.mapError, bind, Except.bind]
  split
  · trivial
  · rfl

theorem round_careful (name : String) : Careful (entry name 2 round).2 :=
  careful_of_two fun quiet _ => roundTo_peaceful _ quiet

theorem functions_careful : ∀ f ∈ functions, Careful f.2 := by
  simp [functions, ofDouble_careful, ofDoubles_careful, log_careful, round_careful,
    Binary64.ieee_succeeds, Binary64.logarithm_succeeds, Binary64.sinh_succeeds,
    ofValue_careful _ fun {v} _ => absolute_peaceful v,
    ofValue_careful _ (toWhole_peaceful _), ofValue_careful _ fun {v} _ => sign_peaceful v]

theorem constants_quiet : ∀ c ∈ constants, c.2.Quiet := by
  simp [constants, HostValue.Quiet, HostValue.Heeds]

end Library

end Reckoner
