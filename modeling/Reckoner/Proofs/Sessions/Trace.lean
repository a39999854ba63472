import Mathlib.Data.List.Basic
import Reckoner.Proofs.Sessions.History
import Reckoner.Proofs.Sessions.Logged

namespace Reckoner

theorem Formula.report_session (f : Formula) : f.report.session = none := by
  unfold report
  split <;> rfl

namespace Session

def instructionReport? (id : String) : Instruction × Stack → Option Report
  | (.store name, stack) =>
    if name = answerVariable then none
    else some (changeReport id (name, .ofValue (stack.items.headD .empty)))
  | (.delete name, _) =>
    if name = answerVariable then none else some (changeReport id (name, .none))
  | _ => none

/-- What a session reports of the end of a call: that it has returned, or the error of the engine that
    the evaluation failed with. -/
def Call.ending (c : Call) : List Report :=
  let f := Formula.compile c.before.preferDecimal c.text c.before.nesting
  match c.result, ((f.evaluate Environment.host).outcome c.before.environment).1 with
  | .ok entry, _ => [entryReport c.before.id entry]
  | .error _, .error e => failureReports c.before.id c.text e
  | .error _, .ok _ => []

def Call.reports (c : Call) : List Report :=
  let f := Formula.compile c.before.preferDecimal c.text c.before.nesting
  match f.outcome with
  | .error _ => []
  | .ok p =>
    (Machine.executed Environment.host f.preferDecimal p.code (.empty p.depth)
      c.before.environment).filterMap (instructionReport? c.before.id) ++ c.ending

def startReport (s : Session) : Report :=
  ⟨.info, .sessionStarted, "Session started",
    [("session_id", .text s.id), ("prefer_decimal", .bool s.preferDecimal)], none, some s.id⟩

/-- The events of a session and of the calls in it. -/
def trace (now : String) (s : Session) (called : List Call) : List Event :=
  (s.startReport :: called.flatMap Call.reports).map (·.event now)

/-- The session begins and runs texts one after the other, whatever comes of them. -/
def live (texts : List String) (s : Session) : InProject (List Call × Session) := do
  let (_, s) ← s.perform start
  calls texts s

/-- A session that alone listens to its environment, of which it has reported everything. -/
structure Private (id : String) (s : Session) : Prop where
  listeners : s.environment.listeners = [listener]
  reported : s.environment.journal = []
  id : s.id = id

variable {id : String} {s : Session}

theorem Private.advance (own : s.Private id) (text : String) : (s.advanced text).2.Private id := by
  obtain ⟨listeners, reported, rfl⟩ := own
  have kept := ((Formula.compile s.preferDecimal text s.nesting).evaluate_changed s.environment).listeners
  have ended := s.advanced_ended text
  generalize (s.advanced text).1 = result, (s.advanced text).2 = s' at ended
  cases ended with
  | uncompiled compiled => exact ⟨listeners, reported, rfl⟩
  | unevaluated compiled evaluated | unshown compiled evaluated | returned compiled evaluated =>
    rw [evaluated] at kept
    exact ⟨kept.trans listeners, rfl, rfl⟩

theorem Private.told (own : s.Private id) (f : Formula) :
    Environment.told listener ((f.evaluate Environment.host).outcome s.environment).2.journal =
      (f.changes s.environment).filterMap Access.notice? := by
  have once : s.environment.listeners.count listener = 1 := by
    rw [own.listeners, List.count_singleton_self]
  rw [(f.evaluate_changed s.environment).told listener, own.reported, once]
  exact List.flatMap_singleton' _

theorem changeReports_executed (id : String) {f : Formula} {p : Program} (compiled : f.outcome = .ok p)
    (env : Environment) :
    changeReports id ((f.changes env).filterMap Access.notice?) =
      (Machine.executed Environment.host f.preferDecimal p.code (.empty p.depth) env).filterMap
        (instructionReport? id) := by
  rw [Formula.changes, compiled]
  unfold Machine.changes changeReports
  dsimp only
  rw [List.filterMap_filterMap, List.filter_filterMap, List.map_filterMap]
  -- instruction by instruction; an assignment that is carried out finds the value that is reported
  refine List.filterMap_congr fun ⟨i, stack⟩ member => ?_
  cases i with
  | store name =>
    obtain ⟨v, items, found⟩ := Machine.items_of_executed_store member
    by_cases answer : name = answerVariable <;>
      simp [Machine.change?, found, Access.notice?, instructionReport?, answer, Option.filter]
  | delete name =>
    by_cases answer : name = answerVariable <;>
      simp [Machine.change?, Access.notice?, instructionReport?, answer, Option.filter]
  | _ => rfl

theorem changeReports_own (id : String) (notices : List Notice) :
    ∀ r ∈ changeReports id notices, r.session = some id := by
  intro r member
  obtain ⟨n, -, rfl⟩ := List.mem_map.mp member
  rfl

theorem conclusionReports_own (s : Session) (text : String) (result : Except Error Value) :
    ∀ r ∈ s.conclusionReports text result, r.session = some s.id := by
  intro r member
  unfold conclusionReports at member
  split at member
  · unfold failureReports at member
    split at member
    · rw [List.mem_singleton.mp member]
    · cases member
  · split at member
    · rw [List.mem_singleton.mp member]
      rfl
    · cases member

theorem ending_advanced {text : String} {p : Program}
    (compiled : (Formula.compile s.preferDecimal text s.nesting).outcome = .ok p) :
    Call.ending ⟨text, s, (s.advanced text).1, (s.advanced text).2⟩ =
      s.conclusionReports text
        (((Formula.compile s.preferDecimal text s.nesting).evaluate Environment.host).outcome
          s.environment).1 := by
  have ended := s.advanced_ended text
  generalize (s.advanced text).1 = result, (s.advanced text).2 = s' at ended
  cases ended with
  | uncompiled uncompiled => cases compiled.symm.trans uncompiled
  | unevaluated _ evaluated => simp only [Call.ending, evaluated, conclusionReports]
  | unshown _ evaluated shown | returned _ evaluated shown =>
    simp only [Call.ending, evaluated, conclusionReports, shown]

/-- What running a text leaves in the file of the session is what its call reports. -/
theorem runReports_own (own : s.Private id) (text : String) :
    (s.runReports text).filter (·.session = some id) =
      Call.reports ⟨text, s, (s.advanced text).1, (s.advanced text).2⟩ := by
  have compilation : (Formula.compile s.preferDecimal text s.nesting).report.session ≠ some id := by
    rw [Formula.report_session]
    nofun
  rw [runReports, Call.reports, List.filter_cons_of_neg (by simpa using compilation)]
  dsimp only
  cases compiled : (Formula.compile s.preferDecimal text s.nesting).outcome with
  | error fault => rfl
  | ok p =>
    dsimp only
    rw [own.told, changeReports_executed s.id compiled, ending_advanced compiled, List.filter_eq_self,
      ← changeReports_executed s.id compiled]
    intro r member
    rw [decide_eq_true_iff, ← own.id]
    rcases List.mem_append.mp member with changed | ended
    · exact changeReports_own _ _ r changed
    · exact conclusionReports_own s text _ r ended

theorem changeReport_attributed (id : String) (n : Notice) : (changeReport id n).Attributed :=
  ⟨by simp [changeReport, EventType.requiredKeys, Entries.contains], rfl⟩

theorem entryReport_attributed (id : String) (entry : Entry) : (entryReport id entry).Attributed :=
  ⟨by simp [entryReport, EventType.requiredKeys, Entries.contains], rfl⟩

theorem failureReports_attributed (id text : String) (e : Error) :
    ∀ r ∈ failureReports id text e, r.Attributed := by
  unfold failureReports
  split
  · exact List.forall_mem_singleton.mpr
      ⟨by simp [EventType.requiredKeys, Entries.contains], rfl⟩
  · exact List.forall_mem_nil _

theorem startReport_attributed (s : Session) : s.startReport.Attributed :=
  ⟨by simp [startReport, EventType.requiredKeys, Entries.contains], rfl⟩

theorem Call.reports_attributed (c : Call) : ∀ r ∈ c.reports, r.Attributed := by
  intro r member
  unfold Call.reports at member
  dsimp only at member
  split at member
  · cases member
  · rcases List.mem_append.mp member with changed | ended
    · obtain ⟨⟨i, stack⟩, -, reported⟩ := List.mem_filterMap.mp changed
      unfold instructionReport? at reported
      split at reported
      · split at reported <;> cases reported
        exact changeReport_attributed _ _
      · split at reported <;> cases reported
        exact changeReport_attributed _ _
      · cases reported
    · unfold Call.ending at ended
      dsimp only at ended
      split at ended
      · rw [List.mem_singleton.mp ended]
        exact entryReport_attributed _ _
      · exact failureReports_attributed _ _ _ r ended
      · cases ended

theorem calls_logged (own : s.Private id) (safe : EventLog.isSafeId id = true) {log : EventLog}
    {now : String} {project : Project} (logs : project.Logs log now) (texts : List String) :
    ∃ called last project', (calls texts s).run project = ((called, last), project') ∧
      called.map Call.text = texts ∧ Linked s called last ∧
      project'.files.content (log.sessionPath id) = project.files.content (log.sessionPath id) ++
        Event.fileText ((called.flatMap Call.reports).map fun r => (r.event now).prepared) := by
  -- the file grows by what one call reports, and the calls behind it begin where it ended
  induction texts generalizing s project with
  | nil => exact ⟨[], s, project, rfl, rfl, .nil s, String.append_empty.symm⟩
  | cons text texts ih =>
    have ran := run_reports text s project
    obtain ⟨logs', written⟩ := Project.foldl_reported_logs logs safe (s.runReports text)
    rw [Project.sessionEvents, runReports_own own text] at written
    obtain ⟨later, last, project'', ran', same, linked, written'⟩ := ih (own.advance text) logs'
    refine ⟨_, last, project'', calls_cons ran ran', ?_, .cons rfl linked, ?_⟩
    · rw [List.map_cons, same]
    · rw [written', written, List.flatMap_cons, List.map_append, Event.fileText_append,
        String.append_assoc]

/-- A session with an id that can name a file, which alone listens to its environment, where a log is
    written without failures: for any texts, its file grows by the event of its start and then, call by
    call, by one event for every assignment and deletion that an instruction of the text has carried
    out, but for those of `ans`, and one for its end: that it has returned, or the code of the error if
    its evaluation failed with one of the engine. A text that does not compile leaves nothing. No event
    loses its level or is marked for what it lacks. -/
theorem log_traces_calls {environment : Environment} (alone : environment.listeners = [])
    (silent : environment.journal = []) {id : String} (safe : EventLog.isSafeId id = true)
    {project : Project} {log : EventLog} (logged : project.log = some log)
    (opened : log.Open project.files) (preferDecimal : Bool) (nesting : Nat) (base historySize : Int)
    (texts : List String) :
    let s := create environment preferDecimal base historySize id nesting
    ∃ called last project', (live texts s).run project = ((called, last), project') ∧
      called.map Call.text = texts ∧ Linked s called last ∧
      project'.files.content (log.sessionPath id) = project.files.content (log.sessionPath id) ++
        Event.fileText ((trace project.now s called).map Event.prepared) ∧
      ∀ e ∈ trace project.now s called,
        e.prepared.level = e.level ∧ Entries.contains "_missing_attribution" e.prepared.context = false := by
  intro s
  have own : s.Private id := by
    refine ⟨?_, silent, rfl⟩
    simp only [s, create, Environment.subscribe, alone, List.nil_append]
  have started : Reports start s (.ok ()) s [s.startReport] := .read (.report s.startReport s)
  obtain ⟨logs, written⟩ :=
    Project.foldl_reported_logs ⟨logged, rfl, opened⟩ safe [s.startReport]
  obtain ⟨called, last, project', ran, same, linked, written'⟩ := calls_logged own safe logs texts
  refine ⟨called, last, project', ?_, same, linked, ?_, ?_⟩
  · rw [live, StateT.run_bind]
    have ran₀ : (s.perform start).run project = _ := started project
    rw [ran₀]
    exact ran
  · have own' : s.startReport.session = some id := rfl
    rw [written', written, String.append_assoc, ← Event.fileText_append]
    simp only [Project.sessionEvents, own', List.filter_cons, decide_true, if_true, List.filter_nil, trace,
      List.map_cons, List.map_nil, List.map_map, List.singleton_append, Function.comp_def]
  · have attributed : ∀ r ∈ s.startReport :: called.flatMap Call.reports, r.Attributed := by
      intro r member
      rcases List.mem_cons.mp member with rfl | inside
      · exact s.startReport_attributed
      · obtain ⟨c, -, reported⟩ := List.mem_flatMap.mp inside
        exact c.reports_attributed r reported
    intro e member
    obtain ⟨r, reported, rfl⟩ := List.mem_map.mp member
    exact (attributed r reported).event project.now

theorem log_traces_calls_of_four :
    let log : EventLog := ⟨["project"], EventLog.defaultTailBytes⟩
    let project : Project := ⟨.empty, some log, "now"⟩
    let s := create .standard false 7 100 "1"
    log.Open project.files ∧ EventLog.isSafeId "1" = true ∧
    ∃ called last project',
      (live ["(x=2)/0", "1+", "#x", "6*7"] s).run project = ((called, last), project') ∧
      called.map Call.text = ["(x=2)/0", "1+", "#x", "6*7"] ∧ Linked s called last ∧
      project'.files.content ["project", "logs", "sessions", "1.ndjson"] =
        Event.fileText ((trace "now" s called).map Event.prepared) ∧
      ∀ e ∈ trace "now" s called,
        e.prepared.level = e.level ∧
          Entries.contains "_missing_attribution" e.prepared.context = false := by
  intro log project s
  have opened : log.Open project.files := log.open_empty
  have safe : EventLog.isSafeId "1" = true := by decide
  obtain ⟨called, last, project', ran, same, linked, written, kept⟩ :=
    log_traces_calls (rfl : Environment.standard.listeners = []) rfl safe (rfl : project.log = some log)
      opened false usualNesting 7 100 ["(x=2)/0", "1+", "#x", "6*7"]
  exact ⟨opened, safe, called, last, project', ran, same, linked, written.trans String.empty_append, kept⟩

end Session

end Reckoner
