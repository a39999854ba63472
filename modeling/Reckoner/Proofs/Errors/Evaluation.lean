import Reckoner.Formula
import Reckoner.Proofs.Errors.Library
import Reckoner.Proofs.Evaluation.Standard
import Reckoner.Proofs.Values.Invariant

namespace Reckoner

open Environment

variable {σ α β : Type} {preferDecimal : Bool}

def Run.Careful (invariant : σ → Prop) (good : α → Prop) (x : Run σ α) : Prop :=
  ∀ s, invariant s → Ends good (fun e => e.isEngine = true) (x.outcome s).1 ∧ invariant (x.outcome s).2

namespace Run.Careful

variable {invariant : σ → Prop} {good : α → Prop} {fine : β → Prop}

theorem lift {x : Except Error α} (ends : Ends good (fun e => e.isEngine = true) x) :
    Careful invariant good (liftM x) := by
  intro s holds
  rw [outcome_lift]
  exact ⟨ends, holds⟩

theorem pure {a : α} (holds : good a) : Careful invariant good (pure a : Run σ α) :=
  lift (x := .ok a) holds

theorem bind {x : Run σ α} {f : α → Run σ β} (first : Careful invariant good x)
    (second : ∀ a, good a → Careful invariant fine (f a)) : Careful invariant fine (x >>= f) := by
  intro s holds
  have both := first s holds
  rw [outcome_bind]
  revert both
  rcases x.outcome s with ⟨_ | a, s'⟩ <;> rintro ⟨ends, kept⟩
  · exact ⟨ends, kept⟩
  · exact second a ends s' kept

end Run.Careful

namespace Stack

/-- No value on the stack is a signaling decimal. -/
def Quiet (s : Stack) : Prop := ∀ v ∈ s.items, v.Quiet

variable {s : Stack}

theorem push_quiet {v : Value} (quiet : v.Quiet) (all : s.Quiet) :
    Ends Quiet (fun e => e.isEngine = true) (s.push v) :=
  .ite (fun _ => rfl) fun _ => List.forall_mem_cons.mpr ⟨quiet, all⟩

theorem peek_quiet (all : s.Quiet) : Ends Value.Quiet (fun e => e.isEngine = true) s.peek := by
  unfold peek
  split
  · rfl
  · rename_i v rest items
    exact all v (items ▸ List.mem_cons_self)

theorem pop_quiet (all : s.Quiet) :
    Ends (fun popped => popped.1.Quiet ∧ popped.2.Quiet) (fun e => e.isEngine = true) s.pop := by
  unfold pop
  split
  · rfl
  · rename_i v rest items
    unfold Quiet at all
    rw [items] at all
    exact List.forall_mem_cons.mp all

theorem popArguments_quiet (count : Nat) {args : List Value} (taken : ∀ v ∈ args, v.Quiet)
    (all : s.Quiet) :
    Ends (fun popped => (∀ v ∈ popped.1, v.Quiet) ∧ popped.2.Quiet) (fun e => e.isEngine = true)
      (s.popArguments count args) := by
  induction count generalizing args s with
  | zero => exact ⟨taken, all⟩
  | succ count ih =>
    exact (pop_quiet all).bind fun popped quiet =>
      ih (List.forall_mem_cons.mpr ⟨quiet.1, taken⟩) quiet.2

theorem result_quiet (all : s.Quiet) : Ends Value.Quiet (fun e => e.isEngine = true) s.result := by
  unfold result
  split
  · rename_i v items
    exact all v (items ▸ List.mem_singleton_self v)
  · rfl

end Stack

namespace Environment

/-- An environment over the standard library, in which no variable holds a signaling decimal. -/
structure Quiet (env : Environment) : Prop where
  standard : env.Standard
  bindings : ∀ b ∈ env.bindings, b.2.Quiet

theorem Quiet.constant {env : Environment} (quiet : env.Quiet) {name : String} {h : HostValue}
    (found : env.member? name = some (.constant h)) : h.Quiet := by
  rcases quiet.standard.constants found with bound | constant
  · exact quiet.bindings _ bound
  · exact Library.constants_quiet _ constant

theorem get_careful (name : String) : (host.get name).Careful Quiet HostValue.Quiet := by
  intro env quiet
  rw [outcome_get]
  refine ⟨?_, quiet⟩
  show (env.get name).Quiet
  unfold get
  rcases found : env.member? name with _ | h | f
  · trivial
  · exact quiet.constant found
  · trivial

theorem set_careful (name : String) {h : HostValue} (quiet : h.Quiet) :
    (host.set name h).Careful Quiet fun _ => True := by
  intro env kept
  rw [outcome_set]
  refine ⟨trivial, kept.standard, ?_⟩
  intro b member
  rcases Entries.mem_put member with rfl | before
  · exact quiet
  · exact kept.bindings b before

theorem delete_careful (name : String) : (host.delete name).Careful Quiet fun _ => True := by
  intro env kept
  rw [outcome_delete]
  exact ⟨trivial, kept.standard, fun b member => kept.bindings b (List.mem_of_mem_filter member)⟩

theorem invoke_careful (name : String) {vs : List Value} (arguments : ∀ v ∈ vs, v.Quiet) :
    (host.invoke name (vs.map .ofValue)).Careful Quiet HostValue.Quiet := by
  intro env quiet
  rw [outcome_invoke]
  rcases found : env.member? name with _ | h | f
  · exact ⟨rfl, quiet⟩
  · exact ⟨quiet.constant found, quiet⟩
  · dsimp only
    rw [outcome_call]
    cases accepted : f.accept (vs.map .ofValue) with
    -- a call with too few or too many arguments is refused
    | error e =>
      refine ⟨?_, quiet⟩
      unfold Function.accept at accepted
      split at accepted
      · cases accepted
      · split at accepted <;> cases accepted
        rfl
    | ok _ =>
      have careful := Library.functions_careful _ (quiet.standard.functions found)
      refine ⟨careful vs arguments accepted, (record_library env f _).trans quiet.standard, ?_⟩
      show ∀ b ∈ (env.record f _).bindings, b.2.Quiet
      unfold record
      split <;> exact quiet.bindings

end Environment

namespace Machine

theorem combine_quiet {f : Value → Value → Except Error Value}
    (quietly : ∀ {a b : Value}, a.Quiet → b.Quiet → Quietly False (f a b)) {s : Stack}
    (all : s.Quiet) : Ends Stack.Quiet (fun e => e.isEngine = true) (combine f s) :=
  (Stack.pop_quiet all).bind fun _ second => (Stack.pop_quiet second.2).bind fun _ first =>
    (quietly first.1 second.1).engine.bind fun _ quiet => Stack.push_quiet quiet first.2

/-- Every instruction keeps the environment and the stack quiet and fails with errors of the engine
    only. -/
theorem step_careful {i : Instruction} (constant : ∀ v, i = .pushConstant v → v.Quiet) {s : Stack}
    (all : s.Quiet) : (step host preferDecimal i s).Careful Environment.Quiet Stack.Quiet := by
  cases i with
  | pushConstant v => exact .lift (Stack.push_quiet (constant v rfl) all)
  | pushVariable name =>
    exact (get_careful name).bind fun h read =>
      (Run.Careful.lift (HostValue.toValue_quietly read).engine).bind fun v quiet =>
        .lift (Stack.push_quiet quiet all)
  | store name =>
    exact (Run.Careful.lift (Stack.peek_quiet all)).bind fun v quiet =>
      (set_careful name (HostValue.ofValue_heeds quiet)).bind fun _ _ => .pure all
  | delete name => exact (delete_careful name).bind fun _ _ => .pure all
  | call name count =>
    have popped := Stack.popArguments_quiet count (List.forall_mem_nil _) all
    exact (Run.Careful.lift popped).bind fun popped quiet =>
      (invoke_careful name quiet.1).bind fun h given =>
        (Run.Careful.lift (HostValue.toValue_quietly given).engine).bind fun v result =>
          .lift (Stack.push_quiet result quiet.2)
  | unary op =>
    exact (Run.Careful.lift (Stack.pop_quiet all)).bind fun popped quiet =>
      (Run.Careful.lift (op.apply_quietly quiet.1).engine).bind fun v result =>
        .lift (Stack.push_quiet result quiet.2)
  | binary op => exact .lift (combine_quiet op.apply_quietly all)
  | word op => exact .lift (combine_quiet (fun _ _ => op.apply_quietly _ _) all)
  | unknown text => exact .lift (x := .error _) rfl

theorem exec_careful {code : List Instruction} (constants : ∀ v, .pushConstant v ∈ code → v.Quiet)
    {s : Stack} (all : s.Quiet) :
    (exec host preferDecimal code s).Careful Environment.Quiet Stack.Quiet := by
  induction code generalizing s with
  | nil => exact .pure all
  | cons i code ih =>
    have constant (v : Value) (same : i = .pushConstant v) : v.Quiet :=
      constants v (same ▸ List.mem_cons_self)
    exact (step_careful constant all).bind fun s kept =>
      ih (fun v member => constants v (List.mem_cons_of_mem _ member)) kept

theorem run_careful {p : Program} (constants : ∀ v, .pushConstant v ∈ p.code → v.Quiet) :
    (run host preferDecimal p).Careful Environment.Quiet Value.Quiet := by
  have start : (Stack.empty p.depth).Quiet := List.forall_mem_nil _
  exact (exec_careful constants start).bind fun _ all => .lift (Stack.result_quiet all)

end Machine

theorem Formula.evaluate_careful (preferDecimal : Bool) (text : String) (nesting : Nat) :
    ((compile preferDecimal text nesting).evaluate host).Careful Environment.Quiet Value.Quiet := by
  cases compiled : (compile preferDecimal text nesting).outcome with
  | ok p =>
    rw [evaluate_of_compile compiled]
    exact Machine.run_careful fun v constant => (literals_of_compile compiled v constant).2
  | error e =>
    unfold evaluate program
    rw [compiled]
    exact .lift (x := .error _) rfl

end Reckoner
