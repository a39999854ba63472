import Reckoner.Proofs.Evaluation.Writes
import Reckoner.Proofs.Values.Invariant

namespace Reckoner

/-- A constant that is no such number, or a function that makes none of values. -/
def Member.Bounded : Member → Prop
  | constant v => v.Bounded
  | function f => ∀ (vs : List Value) v, f.body (vs.map .ofValue) = .ok v → v.Bounded

namespace HostValue

theorem bounded_ofValue (v : Value) : (ofValue v).Bounded := by cases v <;> trivial

end HostValue

namespace Environment

/-- No number tagged as a whole one beyond 64 bits is in the variables, among the constants of the
    library or made of values by its functions. -/
structure Bounded (env : Environment) : Prop where
  bindings : ∀ e ∈ env.bindings, e.2.Bounded
  library : ∀ e ∈ env.library, e.2.Bounded

namespace Bounded

variable {env : Environment}

theorem member (bounded : env.Bounded) {name : String} {m : Member}
    (found : env.member? name = some m) : m.Bounded := by
  unfold member? at found
  split at found
  · rename_i v bound
    cases found
    exact bounded.bindings _ (Entries.mem_of_lookup bound)
  · exact bounded.library _ (Entries.mem_of_lookup found)

theorem host (bounded : env.Bounded) : Environment.host.Bounded env := by
  constructor
  · intro name h s' got
    rw [outcome_get] at got
    cases got
    unfold get
    split
    · rename_i m found
      cases m with
      | constant v => exact bounded.member found
      | function f => trivial
    · trivial
  · intro name vs h s' invoked
    rw [outcome_invoke] at invoked
    split at invoked
    · cases invoked
    · rename_i v found
      cases invoked
      exact bounded.member found
    · rename_i f found
      rw [outcome_call] at invoked
      split at invoked
      · exact bounded.member found vs h (congrArg Prod.fst invoked)
      · cases invoked

end Bounded

end Environment

namespace Machine

open Environment

variable {preferDecimal : Bool}

theorem Effect.bounded {i : Instruction} {items items' : List Value} {env env' : Environment}
    (effect : Effect host preferDecimal i items env items' env') (bounded : env.Bounded) :
    env'.Bounded := by
  cases effect with
  | pushConstant | unary | operation => exact bounded
  | pushVariable got =>
    cases got
    exact bounded
  | store wrote =>
    cases wrote
    refine ⟨?_, bounded.library⟩
    intro e member
    rcases Entries.mem_put member with rfl | before
    · exact HostValue.bounded_ofValue _
    · exact bounded.bindings e before
  | delete deleted =>
    cases deleted
    exact ⟨fun e member => bounded.bindings e (List.mem_of_mem_filter member), bounded.library⟩
  | @call name _ _ args _ _ _ invoked =>
    obtain ⟨bindings, library, -⟩ := env.invoke_keeps name (args.map .ofValue)
    rw [invoked] at bindings library
    exact ⟨bindings.symm ▸ bounded.bindings, library.symm ▸ bounded.library⟩

theorem Steps.bounded {c d : Configuration Environment} (steps : Steps host preferDecimal c d)
    (bounded : c.state.Bounded) : d.state.Bounded :=
  steps.keeps (P := fun _ _ env => env.Bounded) (fun effect => effect.bounded) bounded

end Machine

theorem Formula.evaluate_admissible {nesting : Nat} {preferDecimal : Bool} {text : String} {p : Program}
    (compiled : (compile preferDecimal text nesting).outcome = .ok p) {env env' : Environment}
    (bounded : env.Bounded) {v : Value}
    (evaluated : ((compile preferDecimal text nesting).evaluate Environment.host).outcome env =
      (.ok v, env')) :
    v.Admissible preferDecimal := by
  rw [evaluate_of_compile compiled] at evaluated
  obtain ⟨stack, single, steps⟩ := Machine.steps_of_run evaluated
  have all := steps.admissible (fun m steps => (steps.bounded bounded).host)
    (constants_of_compile compiled) (List.forall_mem_nil _)
  rw [single] at all
  exact all v (List.mem_singleton_self v)

end Reckoner
