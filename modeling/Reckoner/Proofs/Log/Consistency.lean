import Reckoner.Project
import Reckoner.Proofs.Log.Reading

namespace Reckoner

/-- A call that hands an event to a log: a write, which fails where an append does, or an emit to the
    log in use, which never fails. -/
inductive Submission
  | write (e : Event) (session : Option String)
  | emit (e : Event) (session : Option String)

namespace Submission

/-- The event that goes in the files; one that is emitted is prepared before. -/
def event : Submission → Event
  | write e _ => e
  | emit e _ => e.prepared

def session : Submission → Option String
  | write _ session => session
  | emit _ session => session

end Submission

theorem Event.fileText_concat (events : List Event) (e : Event) :
    fileText (events ++ [e]) = fileText events ++ (e.line ++ "\n") := by
  rw [fileText_append, fileText_cons]
  show _ ++ (_ ++ "") = _
  rw [String.append_empty]

namespace EventLog

variable {log : EventLog} {files : Files} {project : Project}

/-- Emits go to the log that the project uses. -/
def submit (log : EventLog) : Submission → InProject (Except FileFault Unit)
  | .write e session => Project.onFiles (log.write e session)
  | .emit e session => do
    Project.emit e session
    return .ok ()

def submitAll (log : EventLog) (submissions : List Submission) : InProject Unit :=
  submissions.forM fun s => discard (log.submit s)

theorem write_extended (log : EventLog) (files : Files) (e : Event) (session : Option String) :
    files.Extended (log.destinations session) (e.line ++ "\n")
      ((log.write e session).outcome files) := by
  unfold write
  have global := fun files : Files => files.append_extended log.globalPath (e.line ++ "\n")
  rcases session with _ | id
  · exact (global files).bind (fun files' => files'.extended_nil _) List.not_mem_nil
  · by_cases safe : isSafeId id = true
    · simp only [destinations, safe, if_true]
      refine (global files).bind (fun files' => files'.append_extended _ _) ?_
      exact mt List.mem_singleton.mp (log.globalPath_ne_sessionPath id)
    · simp only [destinations, safe, Bool.false_eq_true, if_false]
      exact (global files).bind (fun files' => files'.extended_nil _) List.not_mem_nil

/-- Whatever comes of a call, its line is in the first few of its destinations, and nowhere else. -/
theorem submit_reached (uses : ∀ used ∈ project.log, used.directory = log.directory) (s : Submission) :
    ∃ reached, reached <+: log.destinations s.session ∧
      ((log.submit s).run project).2.log = project.log ∧
      ∀ path, ((log.submit s).run project).2.files.content path = project.files.content path ++
        if path ∈ reached then s.event.line ++ "\n" else "" := by
  rcases s with ⟨e, session⟩ | ⟨e, session⟩
  · obtain ⟨reached, beginning, -, contents⟩ := log.write_extended project.files e session
    exact ⟨reached, beginning, rfl, contents⟩
  · obtain ⟨files, used, now⟩ := project
    rcases used with _ | used
    · exact ⟨[], List.nil_prefix, rfl, fun path => String.append_empty.symm⟩
    · obtain ⟨reached, beginning, -, contents⟩ := log.write_extended files e.prepared session
      have same : used.write e.prepared session = log.write e.prepared session := by
        simp only [write, globalPath, sessionPath, logsPath, uses used rfl]
      rw [← same] at contents
      exact ⟨reached, beginning, rfl, contents⟩

theorem destinations_cons (log : EventLog) (session : Option String) :
    ∃ rest, log.destinations session = log.globalPath :: rest := by
  unfold destinations
  split
  · split <;> exact ⟨_, rfl⟩
  · exact ⟨_, rfl⟩

def Consistent (log : EventLog) (files : Files) (made : List Submission) : Prop :=
  ∃ kept : List Submission, kept.Sublist made ∧
    files.content log.globalPath = Event.fileText (kept.map Submission.event) ∧
    ∀ id, isSafeId id = true → ∃ own : List Submission, own.Sublist kept ∧
      (∀ s ∈ own, s.session = some id) ∧
      files.content (log.sessionPath id) = Event.fileText (own.map Submission.event)

theorem consistent_submit {made : List Submission} (consistent : log.Consistent project.files made)
    (uses : ∀ used ∈ project.log, used.directory = log.directory) (s : Submission) :
    log.Consistent ((log.submit s).run project).2.files (made ++ [s]) := by
  obtain ⟨kept, part, global, sessions⟩ := consistent
  obtain ⟨reached, beginning, -, contents⟩ := submit_reached uses s
  by_cases none : reached = []
  · subst none
    simp only [List.not_mem_nil, if_false, String.append_empty] at contents
    refine ⟨kept, part.trans (List.sublist_append_left _ _), (contents _).trans global, ?_⟩
    simp only [contents]
    exact sessions
  have first : log.globalPath ∈ reached := by
    obtain ⟨rest, head⟩ := log.destinations_cons s.session
    rw [head] at beginning
    rcases List.prefix_cons_iff.mp beginning with empty | ⟨others, rfl, -⟩
    · exact absurd empty none
    · exact List.mem_cons_self
  refine ⟨kept ++ [s], part.append_right [s], ?_, fun id safe => ?_⟩
  · rw [contents, if_pos first, global, List.map_append, List.map_singleton, Event.fileText_concat]
  · obtain ⟨own, inside, theirs, content⟩ := sessions id safe
    by_cases goes : log.sessionPath id ∈ reached
    · have mine := (sessionPath_mem_destinations safe).mp (beginning.subset goes)
      refine ⟨own ++ [s], inside.append_right [s], ?_, ?_⟩
      · exact List.forall_mem_append.mpr ⟨theirs, List.forall_mem_singleton.mpr mine⟩
      · rw [contents, if_pos goes, content, List.map_append, List.map_singleton,
          Event.fileText_concat]
    · refine ⟨own, inside.trans (List.sublist_append_left _ _), theirs, ?_⟩
      rw [contents, if_neg goes, String.append_empty, content]

theorem consistent_submitAll {made : List Submission} (consistent : log.Consistent project.files made)
    (uses : ∀ used ∈ project.log, used.directory = log.directory) (submissions : List Submission) :
    log.Consistent ((log.submitAll submissions).run project).2.files (made ++ submissions) ∧
      ((log.submitAll submissions).run project).2.log = project.log := by
  induction submissions generalizing project made with
  | nil => exact ⟨(List.append_nil made).symm ▸ consistent, rfl⟩
  | cons s submissions ih =>
    obtain ⟨-, -, kept, -⟩ := submit_reached uses s
    have step : ((log.submitAll (s :: submissions)).run project).2 =
        ((log.submitAll submissions).run ((log.submit s).run project).2).2 := rfl
    rw [step, List.append_cons, ← kept]
    exact ih (consistent_submit consistent uses s) (kept ▸ uses)

theorem submit_without_session (uses : ∀ used ∈ project.log, used.directory = log.directory)
    {s : Submission} (unable : ∀ id ∈ s.session, isSafeId id = false) {path : Path}
    (other : path ≠ log.globalPath) :
    ((log.submit s).run project).2.files.content path = project.files.content path := by
  obtain ⟨reached, beginning, -, contents⟩ := submit_reached uses s
  have only : log.destinations s.session = [log.globalPath] := by
    unfold destinations
    split
    · rename_i id same
      simp [unable id same]
    · rfl
  have missing : path ∉ reached := fun member => by
    have global := beginning.subset member
    rw [only, List.mem_singleton] at global
    exact other global
  rw [contents, if_neg missing, String.append_empty]

theorem submit_write_succeeds {e : Event} {session : Option String}
    (succeeds : ((log.submit (.write e session)).run project).1 = .ok ()) {path : Path}
    (destination : path ∈ log.destinations session) :
    ((log.submit (.write e session)).run project).2.files.content path =
      project.files.content path ++ (e.line ++ "\n") := by
  obtain ⟨reached, -, whole, contents⟩ := log.write_extended project.files e session
  have all : reached = log.destinations session := whole.mp succeeds
  refine (contents path).trans ?_
  rw [all, if_pos destination]

/-- From a log that is empty at first, whichever appends the system refuses and whatever stands in
    their way: after any calls, the lines of a session are in the global file, in the same order, and
    each was handed in for the session. A further call without an id that can name a file adds to no
    file of a session, and a further write that does not fail adds its line to all of its destinations. -/
theorem session_lines_sublist (uses : ∀ used ∈ project.log, used.directory = log.directory)
    (new : ∀ path, log.Holds path → project.files.content path = "") (made : List Submission) :
    let project' := ((log.submitAll made).run project).2
    (∀ id, isSafeId id = true →
      (Text.lines (project'.files.content (log.sessionPath id))).Sublist
        (Text.lines (project'.files.content log.globalPath)) ∧
      (Text.lines (project'.files.content (log.sessionPath id))).Sublist
        ((made.filter (·.session = some id)).map (·.event.line))) ∧
    (Text.lines (project'.files.content log.globalPath)).Sublist (made.map (·.event.line)) ∧
    (∀ s : Submission, (∀ id ∈ s.session, isSafeId id = false) → ∀ path, path ≠ log.globalPath →
      ((log.submit s).run project').2.files.content path = project'.files.content path) ∧
    ∀ e session, ((log.submit (.write e session)).run project').1 = .ok () →
      ∀ path ∈ log.destinations session, ((log.submit (.write e session)).run project').2.files.content path =
        project'.files.content path ++ (e.line ++ "\n") := by
  have none : log.Consistent project.files [] :=
    ⟨[], .slnil, new _ .global, fun id safe => ⟨[], .slnil, nofun, new _ (.session safe)⟩⟩
  obtain ⟨⟨kept, part, global, sessions⟩, same⟩ := consistent_submitAll none uses made
  have lines (submissions : List Submission) :
      Text.lines (Event.fileText (submissions.map Submission.event)) =
        submissions.map (·.event.line) := by
    rw [Event.lines_fileText, List.map_map]
    rfl
  intro project'
  refine ⟨fun id safe => ?_, ?_, fun s unable path other => ?_,
    fun e session succeeds path destination => submit_write_succeeds succeeds destination⟩
  · obtain ⟨own, inside, theirs, content⟩ := sessions id safe
    have mine : own.filter (·.session = some id) = own :=
      List.filter_eq_self.mpr fun s member => decide_eq_true (theirs s member)
    rw [content, global, lines, lines]
    refine ⟨inside.map _, ?_⟩
    rw [← mine]
    exact ((inside.trans part).filter _).map _
  · rw [global, lines]
    exact part.map _
  · exact submit_without_session (same ▸ uses) unable other

theorem session_lines_sublist_of_refusal :
    let first : Event := ⟨.info, .variableAssigned, "first", [("name", .text "x")], none, "now", 1⟩
    let second : Event := { first with message := "second" }
    let log : EventLog := ⟨["project"], 100⟩
    let project : Project := ⟨⟨[], [false, true]⟩, some ⟨["project"], 7⟩, "now"⟩
    let made : List Submission := [.write first (some "s"), .write second (some "s")]
    let files := ((log.submitAll made).run project).2.files
    (∀ used ∈ project.log, used.directory = log.directory) ∧
    (∀ path, log.Holds path → project.files.content path = "") ∧
    Text.lines (files.content log.globalPath) = [first.line, second.line] ∧
    Text.lines (files.content (log.sessionPath "s")) = [second.line] ∧
    (Text.lines (files.content (log.sessionPath "s"))).Sublist
      (Text.lines (files.content log.globalPath)) := by
  intro first second
  clear_value first second
  intro log project made files
  have uses : ∀ used ∈ project.log, used.directory = log.directory := by
    rintro used ⟨⟩
    rfl
  have new : ∀ path, log.Holds path → project.files.content path = "" :=
    fun path _ => Files.content_empty path
  have after : files = ⟨[(["project"], .directory), (["project", "logs"], .directory),
      (log.globalPath, .file (first.line ++ "\n" ++ (second.line ++ "\n"))),
      (["project", "logs", "sessions"], .directory),
      (log.sessionPath "s", .file (second.line ++ "\n"))], []⟩ := rfl
  have global : files.content log.globalPath = first.line ++ "\n" ++ (second.line ++ "\n") := by
    rw [after]
    rfl
  have own : files.content (log.sessionPath "s") = second.line ++ "\n" := by
    rw [after]
    rfl
  refine ⟨uses, new, ?_, ?_, ((session_lines_sublist uses new made).1 "s" (by decide)).1⟩
  · exact (congrArg Text.lines global).trans (Event.lines_fileText [first, second])
  · exact (congrArg Text.lines own).trans (Event.lines_fileText [second])

end EventLog

end Reckoner
