import Reckoner.Proofs.Emptiness.Filled
import Reckoner.Proofs.Evaluation.Agreement
import Reckoner.Proofs.Evaluation.Standard

namespace Reckoner

def Value.Alike (v w : Value) : Prop := v.filled = w.filled

def HostValue.Alike (v w : HostValue) : Prop := v.filled = w.filled

def HostValue.AllAlike (vs ws : List HostValue) : Prop := vs.map filled = ws.map filled

def Member.filled : Member → Member
  | constant v => constant v.filled
  | function f => function f

def Occurrence.filled : Occurrence → Occurrence
  | notified listener name v => notified listener name v.filled
  | called label args => called label (args.map .filled)

namespace Environment

/-- Environments with the same names, which differ only where one holds nothing and the other one
    zero, and whose journals differ only in this too. -/
structure Alike (env env' : Environment) : Prop where
  bindings : ∀ name, (env.bindings.lookup name).map HostValue.filled =
    (env'.bindings.lookup name).map HostValue.filled
  library : env.library = env'.library
  listeners : env.listeners = env'.listeners
  journal : env.journal.map Occurrence.filled = env'.journal.map Occurrence.filled

variable {env env' : Environment}

theorem member?_filled (env : Environment) (name : String) :
    (env.member? name).map Member.filled = match (env.bindings.lookup name).map HostValue.filled with
      | some v => some (.constant v)
      | none => (env.library.lookup name).map Member.filled := by
  unfold member?
  cases env.bindings.lookup name <;> rfl

namespace Alike

theorem member? (alike : env.Alike env') (name : String) :
    (env.member? name).map Member.filled = (env'.member? name).map Member.filled := by
  rw [member?_filled, member?_filled, alike.bindings, alike.library]

theorem member_cases (alike : env.Alike env') (name : String) :
    (∃ v w, env.member? name = some (.constant v) ∧ env'.member? name = some (.constant w) ∧
      v.Alike w) ∨
    (∃ f, env.member? name = some (.function f) ∧ env'.member? name = some (.function f)) ∨
    (env.member? name = none ∧ env'.member? name = none) := by
  have same := alike.member? name
  rcases left : env.member? name with _ | v | f <;> rcases right : env'.member? name with _ | w | g <;>
    rw [left, right] at same
  case none.none => exact .inr (.inr ⟨rfl, rfl⟩)
  case some.constant.some.constant =>
    exact .inl ⟨v, w, rfl, rfl, Member.constant.inj (Option.some.inj same)⟩
  case some.function.some.function =>
    have same : f = g := Member.function.inj (Option.some.inj same)
    exact .inr (.inl ⟨f, rfl, by rw [same]⟩)
  all_goals cases same

theorem get (alike : env.Alike env') (name : String) : (env.get name).Alike (env'.get name) := by
  unfold Environment.get
  rcases alike.member_cases name with ⟨v, w, left, right, same⟩ | ⟨f, left, right⟩ | ⟨left, right⟩ <;>
    rw [left, right]
  · exact same
  · rfl
  · rfl

theorem notify (alike : env.Alike env') (name : String) {v w : HostValue} (same : v.Alike w) :
    (env.notify name v).Alike (env'.notify name w) where
  bindings := alike.bindings
  library := alike.library
  listeners := alike.listeners
  journal := by
    have told (l : String) : Occurrence.filled (.notified l name v) =
        Occurrence.filled (.notified l name w) := congrArg (Occurrence.notified l name) same
    simp only [Environment.notify, List.map_append, List.map_map, alike.journal, alike.listeners,
      Function.comp_def, told]

theorem set (alike : env.Alike env') (name : String) {v w : HostValue} (same : v.Alike w) :
    (env.set name v).Alike (env'.set name w) := by
  have bound : Alike { env with bindings := Entries.put name v env.bindings }
      { env' with bindings := Entries.put name w env'.bindings } := by
    refine ⟨?_, alike.library, alike.listeners, alike.journal⟩
    intro other
    simp only [Entries.lookup_put]
    split
    · exact congrArg some same
    · exact alike.bindings other
  exact bound.notify name same

theorem delete (alike : env.Alike env') (name : String) :
    (env.delete name).Alike (env'.delete name) := by
  have erased : Alike { env with bindings := Entries.erase name env.bindings }
      { env' with bindings := Entries.erase name env'.bindings } := by
    refine ⟨?_, alike.library, alike.listeners, alike.journal⟩
    intro other
    simp only [Entries.lookup_erase]
    split
    · rfl
    · exact alike.bindings other
  exact erased.notify name rfl

theorem record (alike : env.Alike env') (f : Function) {args args' : List HostValue}
    (same : HostValue.AllAlike args args') : (env.record f args).Alike (env'.record f args') := by
  unfold Environment.record
  split
  · rename_i label _
    refine ⟨alike.bindings, alike.library, alike.listeners, ?_⟩
    have called : Occurrence.filled (.called label args) = Occurrence.filled (.called label args') :=
      congrArg (Occurrence.called label) same
    simp only [List.map_append, alike.journal, List.map_cons, called, List.map_nil]
  · exact alike

end Alike

def AlikeStandard (env env' : Environment) : Prop := env.Alike env' ∧ env.Standard

theorem get_agrees (name : String) :
    (host.get name).Agrees AlikeStandard HostValue.Alike (host.get name) := by
  intro env env' related
  rw [outcome_get, outcome_get]
  exact ⟨related.1.get name, related⟩

theorem set_agrees (name : String) {v w : HostValue} (same : v.Alike w) :
    (host.set name v).Agrees AlikeStandard (fun _ _ => True) (host.set name w) := by
  intro env env' related
  rw [outcome_set, outcome_set]
  exact ⟨trivial, related.1.set name same, related.2⟩

theorem delete_agrees (name : String) :
    (host.delete name).Agrees AlikeStandard (fun _ _ => True) (host.delete name) := by
  intro env env' related
  rw [outcome_delete, outcome_delete]
  exact ⟨trivial, related.1.delete name, related.2⟩

theorem accept_alike (f : Function) {args args' : List HostValue}
    (same : HostValue.AllAlike args args') : f.accept args = f.accept args' := by
  have lengths := congrArg List.length same
  rw [List.length_map, List.length_map] at lengths
  rw [Function.accept, Function.accept, lengths]

theorem invoke_agrees (name : String) {args args' : List HostValue}
    (same : HostValue.AllAlike args args') :
    (host.invoke name args).Agrees AlikeStandard HostValue.Alike (host.invoke name args') := by
  rintro env env' ⟨alike, standard⟩
  rw [outcome_invoke, outcome_invoke]
  rcases alike.member_cases name with ⟨v, w, left, right, equal⟩ | ⟨f, left, right⟩ | ⟨left, right⟩ <;>
    simp only [left, right]
  · exact ⟨equal, alike, standard⟩
  · have fills := Library.functions_fill _ (standard.functions left)
    have body : f.body args = f.body args' := by rw [← fills args, same, fills args']
    rw [outcome_call, outcome_call, accept_alike f same, body]
    cases f.accept args' with
    | error e => exact ⟨rfl, alike, standard⟩
    | ok _ => exact ⟨.of_eq fun _ => rfl, alike.record f same, (record_library env f args).trans standard⟩
  · exact ⟨rfl, alike, standard⟩

end Environment

end Reckoner
