import Reckoner.Proofs.Entries
import Reckoner.Proofs.Log.Writing
import Reckoner.Proofs.Sessions.Reports

namespace Reckoner

namespace Context

theorem contains_truncate (key : String) (c : Context) :
    Entries.contains key (truncate c) = Entries.contains key c := by
  unfold Entries.contains
  induction c with
  | nil => rfl
  | cons e c ih =>
    obtain ⟨k, j⟩ := e
    rw [truncate, Entries.lookup_cons, Entries.lookup_cons]
    split
    · rfl
    · exact ih

end Context

theorem Event.prepared_of_attributed {e : Event}
    (attributed : ∀ key ∈ e.type.requiredKeys, Entries.contains key e.context = true) :
    e.prepared = e.truncated := by
  have complete : e.truncated.missingKeys = [] := by
    have none : e.type.requiredKeys.filter
        (fun key => !Entries.contains key (Context.truncate e.context)) = [] := by
      refine List.filter_eq_nil_iff.mpr fun key required => ?_
      rw [Context.contains_truncate, attributed key required]
      exact Bool.false_ne_true
    unfold missingKeys truncated
    rw [none, List.mergeSort_nil]
  rw [prepared, Event.attributed, complete]
  rfl

namespace Report

/-- The context has the keys that events of the type require, and does not say that one is missing. -/
structure Attributed (r : Report) : Prop where
  keys : ∀ key ∈ r.type.requiredKeys, Entries.contains key r.context = true
  unmarked : Entries.contains "_missing_attribution" r.context = false

theorem Attributed.event {r : Report} (attributed : r.Attributed) (now : String) :
    (r.event now).prepared.level = (r.event now).level ∧
      Entries.contains "_missing_attribution" (r.event now).prepared.context = false := by
  have prepared : (r.event now).prepared = (r.event now).truncated :=
    Event.prepared_of_attributed attributed.keys
  rw [prepared]
  exact ⟨rfl, (Context.contains_truncate _ _).trans attributed.unmarked⟩

end Report

namespace Project

/-- A project with a log whose writes succeed, at a time. -/
structure Logs (log : EventLog) (now : String) (p : Project) : Prop where
  logged : p.log = some log
  timed : p.now = now
  opened : log.Open p.files

variable {log : EventLog} {now : String} {p : Project}

theorem reported_logs (logs : p.Logs log now) (r : Report) :
    (p.reported r).Logs log now ∧ ∀ path, log.Holds path → (p.reported r).files.content path =
      p.files.content path ++
        if path ∈ log.destinations r.session then (r.event now).prepared.line ++ "\n" else "" := by
  obtain ⟨files, logged, time⟩ := p
  obtain ⟨rfl, rfl, opened⟩ := logs
  obtain ⟨files', ran, opened', contents⟩ :=
    EventLog.write_outcome opened (r.event time).prepared r.session
  have written : (⟨files, some log, time⟩ : Project).reported r = ⟨files', some log, time⟩ := by
    show (⟨((log.write (r.event time).prepared r.session).outcome files).2, some log, time⟩ :
      Project) = _
    rw [ran]
  rw [written]
  exact ⟨⟨rfl, rfl, opened'⟩, contents⟩

def sessionEvents (id now : String) (reports : List Report) : List Event :=
  (reports.filter (·.session = some id)).map fun r => (r.event now).prepared

theorem foldl_reported_logs (logs : p.Logs log now) {id : String}
    (safe : EventLog.isSafeId id = true) (reports : List Report) :
    (reports.foldl Project.reported p).Logs log now ∧
    (reports.foldl Project.reported p).files.content (log.sessionPath id) =
      p.files.content (log.sessionPath id) ++ Event.fileText (sessionEvents id now reports) := by
  induction reports generalizing p with
  | nil => exact ⟨logs, String.append_empty.symm⟩
  | cons r reports ih =>
    obtain ⟨logs', contents⟩ := reported_logs logs r
    obtain ⟨logs'', behind⟩ := ih logs'
    refine ⟨logs'', ?_⟩
    rw [List.foldl_cons, behind, contents _ (.session safe), String.append_assoc]
    simp only [EventLog.sessionPath_mem_destinations safe, sessionEvents, List.filter_cons]
    congr 1
    by_cases own : r.session = some id
    · simp only [own, if_true, decide_true, List.map_cons, Event.fileText_cons]
    · simp only [own, if_false, decide_false, Bool.false_eq_true, String.empty_append]

end Project

end Reckoner
