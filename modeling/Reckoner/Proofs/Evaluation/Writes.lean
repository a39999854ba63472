import Reckoner.Proofs.Evaluation.Compiled
import Reckoner.Proofs.Evaluation.Standard
import Reckoner.Proofs.Evaluation.Trace

namespace Reckoner

/-- The variables after an access. -/
def Access.write (bindings : List (String × HostValue)) : Access → List (String × HostValue)
  | .set name value => Entries.put name value bindings
  | .delete name => Entries.erase name bindings
  | .get _ => bindings
  | .invoke .. => bindings

variable {α β : Type}

def Run.Writes (x : Run (Environment × List Access) α) : Prop :=
  ∀ env before, ∃ accesses, (x.outcome (env, before)).2.2 = before ++ accesses ∧
    (x.outcome (env, before)).2.1.bindings = accesses.foldl Access.write env.bindings ∧
    (x.outcome (env, before)).2.1.library = env.library ∧
    (x.outcome (env, before)).2.1.listeners = env.listeners

namespace Run.Writes

theorem lift (x : Except Error α) : (liftM x : Run (Environment × List Access) α).Writes := by
  intro env before
  rw [outcome_lift]
  exact ⟨[], (List.append_nil _).symm, rfl, rfl, rfl⟩

theorem pure (a : α) : (Pure.pure a : Run (Environment × List Access) α).Writes := lift (.ok a)

theorem bind {x : Run (Environment × List Access) α} {f : α → Run (Environment × List Access) β}
    (first : x.Writes) (second : ∀ a, (f a).Writes) : (x >>= f).Writes := by
  intro env before
  have effect := first env before
  rw [outcome_bind]
  revert effect
  rcases x.outcome (env, before) with ⟨_ | a, env', before'⟩
  · exact fun effect => effect
  · rintro ⟨accesses, rfl, bindings, library, listeners⟩
    obtain ⟨more, recorded, bindings', library', listeners'⟩ := second a env' (before ++ accesses)
    refine ⟨accesses ++ more, ?_, ?_, library'.trans library, listeners'.trans listeners⟩
    · rw [← List.append_assoc]
      exact recorded
    · rw [List.foldl_append, ← bindings]
      exact bindings'

end Run.Writes

namespace Environment

theorem invoke_keeps (env : Environment) (name : String) (args : List HostValue) :
    ((host.invoke name args).outcome env).2.bindings = env.bindings ∧
    ((host.invoke name args).outcome env).2.library = env.library ∧
    ((host.invoke name args).outcome env).2.listeners = env.listeners := by
  rw [outcome_invoke]
  rcases env.member? name with _ | v | f
  · exact ⟨rfl, rfl, rfl⟩
  · exact ⟨rfl, rfl, rfl⟩
  · dsimp only
    rw [outcome_call]
    rcases f.accept args with e | _
    · exact ⟨rfl, rfl, rfl⟩
    · dsimp only
      unfold record
      split <;> exact ⟨rfl, rfl, rfl⟩

theorem get_writes (name : String) : (host.recorded.get name).Writes :=
  fun _ _ => ⟨[.get name], rfl, rfl, rfl, rfl⟩

theorem set_writes (name : String) (v : HostValue) : (host.recorded.set name v).Writes :=
  fun _ _ => ⟨[.set name v], rfl, rfl, rfl, rfl⟩

theorem delete_writes (name : String) : (host.recorded.delete name).Writes :=
  fun _ _ => ⟨[.delete name], rfl, rfl, rfl, rfl⟩

theorem invoke_writes (name : String) (args : List HostValue) :
    (host.recorded.invoke name args).Writes :=
  fun env _ => ⟨[.invoke name args], rfl, env.invoke_keeps name args⟩

end Environment

namespace Machine

open Environment

variable (preferDecimal : Bool)

theorem step_writes (i : Instruction) (stack : Stack) :
    (step host.recorded preferDecimal i stack).Writes := by
  cases i with
  | pushConstant v => exact .lift _
  | pushVariable name => exact (get_writes name).bind fun _ => (Run.Writes.lift _).bind fun _ => .lift _
  | store name => exact (Run.Writes.lift _).bind fun _ => (set_writes name _).bind fun _ => .pure _
  | delete name => exact (delete_writes name).bind fun _ => .pure _
  | call name count =>
    exact (Run.Writes.lift _).bind fun _ => (invoke_writes name _).bind fun _ =>
      (Run.Writes.lift _).bind fun _ => .lift _
  | unary op => exact (Run.Writes.lift _).bind fun _ => (Run.Writes.lift _).bind fun _ => .lift _
  | binary op => exact .lift _
  | word op => exact .lift _
  | unknown text => exact .lift (.error _)

theorem exec_writes (code : List Instruction) (stack : Stack) :
    (exec host.recorded preferDecimal code stack).Writes := by
  induction code generalizing stack with
  | nil => exact .pure _
  | cons i code ih => exact (step_writes preferDecimal i stack).bind ih

theorem run_writes (p : Program) : (run host.recorded preferDecimal p).Writes :=
  (exec_writes preferDecimal p.code _).bind fun _ => .lift _

end Machine

/-- What a formula does to an environment is what the recorded accesses say. -/
theorem Formula.evaluate_writes (f : Formula) (env : Environment) :
    ∃ accesses, (f.evaluate Environment.host.recorded).outcome (env, []) =
        (((f.evaluate Environment.host).outcome env).1, ((f.evaluate Environment.host).outcome env).2,
          accesses) ∧
      ((f.evaluate Environment.host).outcome env).2.bindings =
        accesses.foldl Access.write env.bindings ∧
      ((f.evaluate Environment.host).outcome env).2.library = env.library ∧
      ((f.evaluate Environment.host).outcome env).2.listeners = env.listeners := by
  have records : (f.evaluate Environment.host).Records (f.evaluate Environment.host.recorded) :=
    (Run.Records.lift f.program).bind fun p => Machine.run_records Environment.host f.preferDecimal p
  have writes : (f.evaluate Environment.host.recorded).Writes :=
    (Run.Writes.lift f.program).bind fun p => Machine.run_writes f.preferDecimal p
  obtain ⟨accesses, recorded⟩ := records env []
  obtain ⟨accesses', same, effect⟩ := writes env []
  rw [recorded] at same effect
  obtain rfl : accesses = accesses' := same
  exact ⟨accesses, recorded, effect⟩

end Reckoner
