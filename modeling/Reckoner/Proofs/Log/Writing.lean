import Reckoner.Log.EventLog
import Reckoner.Proofs.Files

namespace Reckoner

/-- The text of a file that has one line for every event. -/
def Event.fileText (events : List Event) : String := String.join (events.map fun e => e.line ++ "\n")

namespace Event

theorem fileText_cons (e : Event) (events : List Event) :
    fileText (e :: events) = e.line ++ "\n" ++ fileText events := by
  rw [fileText, List.map_cons, String.join_cons]
  rfl

theorem fileText_append (first second : List Event) :
    fileText (first ++ second) = fileText first ++ fileText second := by
  rw [fileText, List.map_append, String.join_append]
  rfl

end Event

namespace EventLog

variable {log : EventLog} {files : Files} {path : Path}

/-- The files of a log: the global one, and one for every session id that can name a file. -/
inductive Holds (log : EventLog) : Path → Prop
  | global : log.Holds log.globalPath
  | session {id : String} (safe : isSafeId id = true) : log.Holds (log.sessionPath id)

/-- The files in which an event goes that is written for a session or for none. -/
def destinations (log : EventLog) : Option String → List Path
  | some id => if isSafeId id then [log.globalPath, log.sessionPath id] else [log.globalPath]
  | none => [log.globalPath]

theorem globalPath_ne_sessionPath (log : EventLog) (id : String) : log.globalPath ≠ log.sessionPath id := by
  intro same
  have lengths := congrArg List.length same
  simp [globalPath, sessionPath] at lengths

theorem sessionPath_inj {id id' : String} : log.sessionPath id = log.sessionPath id' ↔ id = id' := by
  simp [sessionPath]

theorem globalPath_mem_destinations (log : EventLog) (session : Option String) :
    log.globalPath ∈ log.destinations session := by
  unfold destinations
  split
  · split <;> exact List.mem_cons_self
  · exact List.mem_cons_self

theorem sessionPath_mem_destinations {id : String} (safe : isSafeId id = true)
    {session : Option String} :
    log.sessionPath id ∈ log.destinations session ↔ session = some id := by
  have apart := (log.globalPath_ne_sessionPath id).symm
  rcases session with _ | other
  · simp [destinations, apart]
  · by_cases able : isSafeId other = true
    · simp [destinations, able, apart, sessionPath_inj, eq_comm]
    · have different : other ≠ id := fun same => able (same ▸ safe)
      simp [destinations, able, apart, different]

theorem Holds.apart {p q : Path} (first : log.Holds p) (second : log.Holds q) :
    q ∉ Files.ancestry p.dropLast := by
  intro member
  have beginning := (Files.mem_ancestry.mp member).2
  have bound := beginning.length_le
  cases first with
  | global =>
    cases second <;> simp only [globalPath, sessionPath, List.length_append, List.length_cons,
      List.length_nil, List.length_dropLast] at bound <;> omega
  | session =>
    cases second with
    | session => simp [sessionPath] at bound
    | global =>
      have same := beginning.eq_of_length (by simp [globalPath, sessionPath])
      simp [globalPath, sessionPath, List.dropLast_append_of_ne_nil] at same

/-- A log whose writes succeed: all of its files can be written, and the system refuses nothing. -/
structure Open (log : EventLog) (files : Files) : Prop where
  takes : ∀ path, log.Holds path → files.Takes path
  willing : files.Willing

theorem Holds.inner (holds : log.Holds path) : Files.Inner path := by
  cases holds <;> constructor <;> intro same <;> have lengths := congrArg List.length same <;>
    simp [globalPath, sessionPath, logsPath] at lengths

theorem open_empty (log : EventLog) : log.Open .empty := by
  refine ⟨fun path holds => ⟨fun p _ content found => ?_, fun found => ?_⟩, nofun⟩
  · rw [Files.node?_empty] at found
    split at found <;> cases found
  · have inner := holds.inner
    rw [Files.node?_empty, if_neg (by simp [inner.1, inner.2])] at found
    cases found

theorem append_open (opened : log.Open files) (holds : log.Holds path) (added : String) :
    ∃ files', (Files.append path added).outcome files = (.ok (), files') ∧ log.Open files' ∧
      ∀ other, log.Holds other → files'.content other =
        files.content other ++ if other = path then added else "" := by
  obtain ⟨files', ran, willing, nodes⟩ :=
    Files.append_outcome (opened.takes path holds) opened.willing added
  refine ⟨files', ran, ⟨fun other holds' => ⟨?_, ?_⟩, willing⟩, fun other holds' => ?_⟩
  · intro p member text
    have different : p ≠ path := fun same => holds'.apart holds (same ▸ member)
    rw [nodes, if_neg different]
    split
    · nofun
    · exact (opened.takes other holds').passable p member text
  · rw [nodes]
    split
    · nofun
    · rw [if_neg (holds.apart holds')]
      exact (opened.takes other holds').noDirectory
  · unfold Files.content Files.text?
    rw [nodes]
    by_cases same : other = path
    · rw [if_pos same, if_pos same, same]
      rfl
    · rw [if_neg same, if_neg same, if_neg (holds.apart holds'), String.append_empty]

theorem write_outcome (opened : log.Open files) (e : Event) (session : Option String) :
    ∃ files', (log.write e session).outcome files = (.ok (), files') ∧ log.Open files' ∧
      ∀ path, log.Holds path → files'.content path =
        files.content path ++ if path ∈ log.destinations session then e.line ++ "\n" else "" := by
  obtain ⟨files₁, first, opened₁, contents₁⟩ := append_open opened .global (e.line ++ "\n")
  unfold write
  rw [FileAction.outcome_bind_of_ok first]
  rcases session with _ | id
  · exact ⟨files₁, rfl, opened₁, fun path holds => by
      simpa only [destinations, List.mem_singleton] using contents₁ path holds⟩
  · by_cases safe : isSafeId id = true
    · obtain ⟨files₂, second, opened₂, contents₂⟩ :=
        append_open opened₁ (.session safe) (e.line ++ "\n")
      have different := log.globalPath_ne_sessionPath id
      simp only [destinations, safe, if_true, List.mem_cons, List.not_mem_nil, or_false]
      refine ⟨files₂, second, opened₂, fun path holds => ?_⟩
      rw [contents₂ path holds, contents₁ path holds]
      by_cases global : path = log.globalPath
      · simp [global, different]
      · simp [global]
    · simp only [destinations, safe, Bool.false_eq_true, if_false, List.mem_singleton]
      exact ⟨files₁, rfl, opened₁, contents₁⟩

/-- Writes events, each for its session or for none, one after the other. -/
def writeAll (log : EventLog) (written : List (Event × Option String)) : FileAction Unit :=
  written.forM fun w => log.write w.1 w.2

theorem writeAll_outcome (opened : log.Open files) (written : List (Event × Option String)) :
    ∃ files', (log.writeAll written).outcome files = (.ok (), files') ∧ log.Open files' ∧
      ∀ path, log.Holds path → files'.content path = files.content path ++
        Event.fileText ((written.filter fun w => path ∈ log.destinations w.2).map Prod.fst) := by
  induction written generalizing files with
  | nil => exact ⟨files, rfl, opened, fun _ _ => String.append_empty.symm⟩
  | cons w written ih =>
    obtain ⟨files₁, ran, opened₁, contents₁⟩ := write_outcome opened w.1 w.2
    obtain ⟨files', ran', opened', contents'⟩ := ih opened₁
    refine ⟨files', (FileAction.outcome_bind_of_ok ran _).trans ran', opened', fun path holds => ?_⟩
    rw [contents' path holds, contents₁ path holds, String.append_assoc, List.filter_cons]
    by_cases goes : path ∈ log.destinations w.2
    · simp only [goes, if_true, decide_true, List.map_cons, Event.fileText_cons]
    · simp only [goes, if_false, decide_false, Bool.false_eq_true, String.empty_append]

end EventLog

end Reckoner
