import Mathlib
import Reckoner.Proofs.Entries
import Reckoner.Proofs.Evaluation.Compiled
import Reckoner.Proofs.Evaluation.Executed

namespace Reckoner

theorem HostValue.isNone_iff {v : HostValue} : v.isNone = true ↔ v = none := by
  cases v <;> simp [isNone]

namespace Environment

/-- The variables as a listener knows them after a notice. -/
def replay (bindings : List (String × HostValue)) (n : Notice) : List (String × HostValue) :=
  if n.2.isNone then Entries.erase n.1 bindings else Entries.put n.1 n.2 bindings

theorem replay_replay (bindings : List (String × HostValue)) (n : Notice) :
    replay (replay bindings n) n = replay bindings n := by
  unfold replay
  split
  · simp [Entries.erase, List.filter_filter]
  · exact Entries.put_put n.1 n.2 n.2 bindings

theorem foldl_replay_repeated (count : Nat) (notices : List Notice)
    (bindings : List (String × HostValue)) :
    (notices.flatMap (List.replicate (count + 1))).foldl replay bindings =
      notices.foldl replay bindings := by
  have once (n : Notice) (bindings) : (List.replicate (count + 1) n).foldl replay bindings =
      replay bindings n := by
    induction count generalizing bindings with
    | zero => rfl
    | succ count ih => rw [List.replicate_succ, List.foldl_cons, ih, replay_replay]
  induction notices generalizing bindings with
  | nil => rfl
  | cons n notices ih => rw [List.flatMap_cons, List.foldl_append, once, ih, List.foldl_cons]

/-- What a listener knows after changes that it is told of. -/
def known (bindings : List (String × HostValue)) (changes : List Access) :
    List (String × HostValue) :=
  (changes.filterMap Access.notice?).foldl replay bindings

/-- A listener knows a variable, or the variable holds the empty value and the listener knows of
    none. -/
def Knows (listener bindings : List (String × HostValue)) : Prop :=
  ∀ name, listener.lookup name = bindings.lookup name ∨
    listener.lookup name = none ∧ bindings.lookup name = some .none

theorem Knows.change {listener bindings : List (String × HostValue)} (knows : Knows listener bindings)
    (c : Access) : Knows (c.notice?.toList.foldl replay listener) (Access.write bindings c) := by
  cases c with
  | get name => exact knows
  | invoke name args => exact knows
  | delete name =>
    intro other
    simp only [Access.notice?, Option.toList_some, List.foldl_cons, List.foldl_nil, replay,
      HostValue.isNone, if_true, Access.write, Entries.lookup_erase]
    split
    · exact .inl rfl
    · exact knows other
  | set name value =>
    intro other
    simp only [Access.notice?, Option.toList_some, List.foldl_cons, List.foldl_nil, replay,
      Access.write]
    by_cases empty : value.isNone = true
    · rw [if_pos empty, Entries.lookup_erase, Entries.lookup_put]
      split
      · exact .inr ⟨rfl, congrArg some (HostValue.isNone_iff.mp empty)⟩
      · exact knows other
    · rw [if_neg empty, Entries.lookup_put, Entries.lookup_put]
      split
      · exact .inl rfl
      · exact knows other

theorem known_cons (bindings : List (String × HostValue)) (c : Access) (changes : List Access) :
    known bindings (c :: changes) = known (c.notice?.toList.foldl replay bindings) changes := by
  unfold known
  rw [List.filterMap_cons]
  cases c.notice? <;> rfl

theorem knows_known {listener bindings : List (String × HostValue)} (knows : Knows listener bindings)
    (changes : List Access) : Knows (known listener changes) (changes.foldl Access.write bindings) := by
  induction changes generalizing listener bindings with
  | nil => exact knows
  | cons c changes ih =>
    rw [known_cons]
    exact ih (knows.change c)

theorem known_of_filled {changes : List Access} (filled : ∀ name, .set name .none ∉ changes)
    (bindings : List (String × HostValue)) :
    known bindings changes = changes.foldl Access.write bindings := by
  induction changes generalizing bindings with
  | nil => rfl
  | cons c changes ih =>
    have same : c.notice?.toList.foldl replay bindings = Access.write bindings c := by
      cases c with
      | set name value =>
        have value_filled : ¬ value.isNone = true := by
          intro empty
          exact filled name (HostValue.isNone_iff.mp empty ▸ List.mem_cons_self)
        exact if_neg value_filled
      | _ => rfl
    rw [known_cons, same, List.foldl_cons]
    exact ih (fun name member => filled name (List.mem_cons_of_mem c member)) _

theorem notice_tells {c : Access} {n : Notice} (told : c.notice? = some n)
    (bindings : List (String × HostValue)) :
    n.2 = ((Access.write bindings c).lookup n.1).getD .none := by
  cases c with
  | set name value =>
    cases told
    rw [Access.write, Entries.lookup_put, if_pos rfl, Option.getD_some]
  | delete name =>
    cases told
    rw [Access.write, Entries.lookup_erase, if_pos rfl, Option.getD_none]
  | _ => cases told

/-- Something that is done in an environment. -/
inductive Move
  | set (name : String) (value : HostValue)
  | delete (name : String)
  | evaluate (f : Formula)

namespace Move

/-- The environment after a move. A formula that fails has done what it did until then. -/
def apply (env : Environment) : Move → Environment
  | set name value => env.set name value
  | delete name => env.delete name
  | evaluate f => ((f.evaluate host).outcome env).2

/-- The changes of variables that a move makes. -/
def changes (env : Environment) : Move → List Access
  | set name value => [.set name value]
  | delete name => [.delete name]
  | evaluate f => f.changes env

theorem apply_changed (env : Environment) (m : Move) : Changed (m.changes env) env (m.apply env) := by
  cases m with
  | set name value => exact .set env name value
  | delete name => exact .delete env name
  | evaluate f => exact f.evaluate_changed env

end Move

/-- The changes that moves make one after the other. -/
def changes (env : Environment) : List Move → List Access
  | [] => []
  | m :: moves => m.changes env ++ changes (m.apply env) moves

theorem moves_changed (env : Environment) (moves : List Move) :
    Changed (env.changes moves) env (moves.foldl Move.apply env) := by
  induction moves generalizing env with
  | nil => exact .refl env
  | cons m moves ih => exact (m.apply_changed env).trans (ih (m.apply env))

/-- Whatever is done in an environment of passive listeners after someone has begun to listen to it: a
    replay of what the listener was told gives the variables, but without those that were set to the empty
    value. If there are none of these it gives the variables as they are. Every change is told with what
    its variable then holds, and with none if that is the empty value or if there is no variable. -/
theorem replay_gives_variables (env : Environment) (listener : String) (moves : List Move) :
    let start := env.subscribe listener
    let last := moves.foldl Move.apply start
    ∃ notices, told listener last.journal = told listener start.journal ++ notices ∧
      Knows (notices.foldl replay start.bindings) last.bindings ∧
      ((∀ name, .set name .none ∉ start.changes moves) →
        notices.foldl replay start.bindings = last.bindings) ∧
      ∀ past c later, start.changes moves = past ++ c :: later → ∀ n, c.notice? = some n →
        n ∈ notices ∧ n.2 = (((past ++ [c]).foldl Access.write start.bindings).lookup n.1).getD .none := by
  intro start last
  have changed : Changed (start.changes moves) start last := start.moves_changed moves
  obtain ⟨count, registered⟩ : ∃ count, start.listeners.count listener = count + 1 :=
    Nat.exists_eq_succ_of_ne_zero (by simp [start, subscribe])
  have heard := changed.told listener
  rw [registered] at heard
  have replayed := foldl_replay_repeated count ((start.changes moves).filterMap Access.notice?)
    start.bindings
  refine ⟨_, heard, ?_, ?_, ?_⟩
  · rw [replayed, changed.bindings]
    exact knows_known (fun _ => .inl rfl) _
  · intro filled
    rw [replayed, changed.bindings]
    exact known_of_filled filled start.bindings
  · intro past c later split n told
    constructor
    · rw [split]
      simp [told]
    · rw [List.foldl_append, List.foldl_cons, List.foldl_nil]
      exact notice_tells told _

/-- A variable that is set to an unset one holds the empty value, and a listener knows of none. -/
theorem empty_variable_unknown :
    let start := standard.subscribe "log"
    let last := (Move.evaluate (.compile false "x=y")).apply start
    last.bindings = [("x", .none)] ∧ told "log" last.journal = [("x", .none)] ∧
      (told "log" last.journal).foldl replay start.bindings = [] := by
  intro start last
  have parsed : Expr.ofText false "x=y" = .ok (.assign "x" (.read "y")) := by cbv
  have left : last = start.set "x" .none := by
    have evaluated : ((Formula.compile false "x=y").evaluate host).outcome start =
        (.ok .empty, start.set "x" .none) := by
      rw [Formula.evaluate_of_compile (Formula.compile_of_parsed parsed), Expr.run_program]
      rfl
    exact congrArg Prod.snd evaluated
  rw [left]
  exact ⟨rfl, rfl, rfl⟩

end Environment

end Reckoner
