import Reckoner.Environment
import Reckoner.Proofs.Entries
import Reckoner.Proofs.Evaluation.Outcome

namespace Reckoner

namespace Environment

variable (env : Environment)

theorem outcome_get (name : String) : (host.get name).outcome env = (.ok (env.get name), env) := rfl

theorem outcome_set (name : String) (v : HostValue) :
    (host.set name v).outcome env = (.ok (), env.set name v) := rfl

theorem outcome_delete (name : String) :
    (host.delete name).outcome env = (.ok (), env.delete name) := rfl

theorem outcome_call (f : Function) (args : List HostValue) :
    (call f args).outcome env = match f.accept args with
      | .ok () => (f.body args, env.record f args)
      | .error e => (.error e, env) := by
  have recorded : (modify (·.record f args) : Run Environment PUnit).outcome env =
      (.ok (), env.record f args) := rfl
  unfold call
  rw [Run.outcome_bind, Run.outcome_lift]
  cases f.accept args with
  | error e => rfl
  | ok _ =>
    dsimp only
    rw [Run.outcome_bind_of_ok recorded, Run.outcome_lift]

theorem outcome_invoke (name : String) (args : List HostValue) :
    (host.invoke name args).outcome env = match env.member? name with
      | none => (.error (.call name .unknown), env)
      | some (.constant v) => (.ok v, env)
      | some (.function f) => (call f args).outcome env := by
  have here : (getThe Environment : Run Environment Environment).outcome env = (.ok env, env) := rfl
  show (invoke name args).outcome env = _
  unfold invoke
  rw [Run.outcome_bind_of_ok here]
  rcases env.member? name with _ | v | f <;> rfl

theorem record_library (f : Function) (args : List HostValue) :
    (env.record f args).library = env.library := by
  unfold record
  split <;> rfl

/-- An environment over the standard library of functions and constants. -/
def Standard : Prop := env.library = Registry.standard.members

end Environment

theorem Registry.standard_members {name : String} {m : Member}
    (member : (name, m) ∈ standard.members) :
    (∃ v, m = .constant v ∧ (name, v) ∈ Library.constants) ∨
      ∃ f, m = .function f ∧ (name, f) ∈ Library.functions := by
  rcases Entries.mem_update member with constant | function
  · obtain ⟨c, inside, same⟩ := List.mem_map.mp constant
    cases same
    exact .inl ⟨c.2, rfl, inside⟩
  · obtain ⟨f, inside, same⟩ := List.mem_map.mp function
    cases same
    exact .inr ⟨f.2, rfl, inside⟩

theorem Environment.Standard.functions {env : Environment} (standard : env.Standard) {name : String}
    {f : Function} (found : env.member? name = some (.function f)) :
    (name, f) ∈ Library.functions := by
  unfold member? at found
  split at found
  · cases found
  · rw [standard] at found
    rcases Registry.standard_members (Entries.mem_of_lookup found) with ⟨v, same, -⟩ | ⟨g, same, inside⟩
    · cases same
    · cases same
      exact inside

theorem Environment.Standard.constants {env : Environment} (standard : env.Standard) {name : String}
    {v : HostValue} (found : env.member? name = some (.constant v)) :
    (name, v) ∈ env.bindings ∨ (name, v) ∈ Library.constants := by
  unfold member? at found
  split at found
  · rename_i bound
    cases found
    exact .inl (Entries.mem_of_lookup bound)
  · rw [standard] at found
    rcases Registry.standard_members (Entries.mem_of_lookup found) with ⟨w, same, inside⟩ | ⟨g, same, -⟩
    · cases same
      exact .inr inside
    · cases same

end Reckoner
