import Mathlib.Data.List.Forall2
import Reckoner.Proofs.Json.Printed
import Reckoner.Proofs.Log.Writing
import Reckoner.Proofs.Outcome

namespace Reckoner

namespace Text

theorem linesFrom_printed {cs : List Char} (printed : ∀ c ∈ cs, Printed c) (line rest : List Char) :
    linesFrom line (cs ++ '\n' :: rest) = (line.reverse ++ cs) :: linesFrom [] rest := by
  induction cs generalizing line with
  | nil =>
    rw [List.append_nil]
    cases line <;> rfl
  | cons c cs ih =>
    obtain ⟨first, others⟩ := List.forall_mem_cons.mp printed
    have inside : linesFrom line (c :: (cs ++ '\n' :: rest)) =
        linesFrom (c :: line) (cs ++ '\n' :: rest) := by
      rw [linesFrom]
      · rw [first.not_line_end]
        rfl
      · rintro rest' rfl
        exact absurd first (by decide)
    rw [List.cons_append, inside, ih others, List.reverse_cons, List.append_assoc]
    rfl

theorem strip_of_ends {c d : Char} (first : isBlank c = false) (last : isBlank d = false)
    (cs : List Char) : strip (String.ofList (c :: cs ++ [d])) = String.ofList (c :: cs ++ [d]) := by
  rw [strip, trimWhile, String.toList_ofList, List.cons_append,
    List.dropWhile_cons_of_neg (by simp [first])]
  simp only [List.reverse_cons, List.reverse_append, List.reverse_nil, List.nil_append,
    List.cons_append]
  rw [List.dropWhile_cons_of_neg (by simp [last])]
  simp

end Text

namespace Event

/-- An event with a context of plain data. -/
def plain (e : Event) : Bool := (Json.object e.context).plain

/-- An event in whose context every object has its keys only once. -/
def keyed (e : Event) : Bool := (Json.object e.context).keyed

theorem keyed_of_plain {e : Event} (isPlain : e.plain = true) : e.keyed = true :=
  Json.keyed_of_plain isPlain

theorem toJson_distinct (e : Event) : (e.toJson.entries.map Prod.fst).Nodup := by
  simp [toJson, Json.entries]

theorem toJson_keyed {e : Event} (isKeyed : e.keyed = true) : e.toJson.keyed = true := by
  refine Json.keyed_object.mpr ⟨e.toJson_distinct, ?_⟩
  obtain ⟨level, type, message, context, code, time, version⟩ := e
  have inside : (Json.object context).keyed = true := isKeyed
  cases code <;> simp only [Json.keyedEntries, inside] <;> rfl

theorem line_printed (e : Event) : ∀ c ∈ e.line.toList, Printed c := by
  rw [line, Json.print, String.toList_ofList]
  exact Json.chars_printed e.toJson.sorted

theorem line_ends (e : Event) : ∃ cs, e.line = String.ofList ('\x7b' :: cs ++ ['\x7d']) := ⟨_, rfl⟩

theorem read?_line {e : Event} (isKeyed : e.keyed = true) :
    Json.read? (Text.strip e.line) = some e.toJson.sorted := by
  obtain ⟨cs, ends⟩ := e.line_ends
  rw [ends, Text.strip_of_ends (by decide) (by decide), ← ends]
  exact Json.read?_print (Json.keyed_sorted (toJson_keyed isKeyed))

theorem lines_fileText (events : List Event) : Text.lines (fileText events) = events.map line := by
  have all : Text.linesFrom [] (fileText events).toList = events.map fun e => e.line.toList := by
    induction events with
    | nil => rfl
    | cons e events ih =>
      rw [fileText_cons, String.toList_append, String.toList_append, List.append_assoc]
      exact (Text.linesFrom_printed e.line_printed [] _).trans (congrArg (e.line.toList :: ·) ih)
  rw [Text.lines, all, List.map_map]
  refine List.map_congr_left fun e _ => ?_
  exact String.ofList_toList

theorem parse_lines {events : List Event} (areKeyed : ∀ e ∈ events, e.keyed = true) :
    EventLog.parse (fileText events) = events.map fun e => e.toJson.sorted := by
  rw [EventLog.parse, lines_fileText]
  induction events with
  | nil => rfl
  | cons e events ih =>
    obtain ⟨first, others⟩ := List.forall_mem_cons.mp areKeyed
    simp only [List.map_cons, List.filterMap_cons, read?_line first, ih others]

theorem parse_fileText {events : List Event} (arePlain : ∀ e ∈ events, e.plain = true) :
    EventLog.parse (fileText events) = events.map fun e => e.toJson.sorted :=
  parse_lines fun e member => keyed_of_plain (arePlain e member)

theorem fileText_size {events others : List Event} (part : events.Sublist others) :
    (fileText events).utf8ByteSize ≤ (fileText others).utf8ByteSize := by
  induction part with
  | slnil => exact Nat.le_refl _
  | cons e _ ih =>
    simp only [fileText_cons, String.utf8ByteSize_append]
    omega
  | cons_cons e _ ih =>
    simp only [fileText_cons, String.utf8ByteSize_append]
    omega

end Event

/-- Whether an event passes a filter, which is off where its text is empty. -/
def EventFilter.admits (filter : EventFilter) (e : Event) : Bool :=
  (filter.level.isEmpty || e.level.name == filter.level) &&
  (filter.type.isEmpty || e.type.name == filter.type) &&
  (filter.session.isEmpty ||
    (e.context.lookup "session_id").bind Json.text? == some filter.session)

namespace EventLog

variable {log : EventLog} {files : Files}

theorem filterM_of_ok {α β ε : Type} {f : α → β} {passes : β → Except ε Bool} {p : α → Bool}
    {as : List α} (decided : ∀ a ∈ as, passes (f a) = .ok (p a)) :
    (as.map f).filterM passes = .ok ((as.filter p).map f) := by
  have collected (kept : List β) : (as.map f).filterAuxM passes kept =
      .ok (((as.filter p).map f).reverse ++ kept) := by
    induction as generalizing kept with
    | nil => rfl
    | cons a as ih =>
      obtain ⟨first, others⟩ := List.forall_mem_cons.mp decided
      rw [List.map_cons, List.filterAuxM, first]
      show (as.map f).filterAuxM passes (cond (p a) (f a :: kept) kept) = _
      rw [ih others, List.filter_cons]
      cases p a <;> simp
  show ((as.map f).filterAuxM passes [] >>= fun kept => pure kept.reverse) = _
  rw [collected, List.append_nil]
  show Except.ok _ = _
  rw [List.reverse_reverse]

theorem select_of_ok {α : Type} {f : α → Json} (value : String)
    {passes : String → Json → Except ReadFault Bool} {p : α → Bool} {as : List α}
    (decided : ∀ a ∈ as, passes value (f a) = .ok (p a)) :
    select value passes (as.map f) = .ok ((as.filter fun a => value.isEmpty || p a).map f) := by
  unfold select
  cases value.isEmpty with
  | true => simp
  | false =>
    simp only [Bool.false_eq_true, if_false, Bool.false_or]
    exact filterM_of_ok decided

theorem hasText_sorted {es : List (String × Json)} (distinct : (es.map Prod.fst).Nodup)
    (key value : String) :
    hasText key value (Json.object es).sorted =
      .ok ((es.lookup key).bind Json.text? == some value) := by
  show Except.ok (((Json.object es).sorted.get? key).bind Json.text? == some value) = _
  rw [Json.get?_sorted distinct, Option.bind_map]
  simp only [Function.comp_def, Json.text?_sorted]

theorem inSession_sorted {e : Event} (isPlain : e.plain = true) (id : String) :
    inSession id e.toJson.sorted =
      .ok ((e.context.lookup "session_id").bind Json.text? == some id) := by
  show hasText "session_id" id ((e.toJson.sorted.get? "context").getD (.object [])) = _
  have found : e.toJson.sorted.get? "context" = some (Json.object e.context).sorted :=
    Json.get?_sorted e.toJson_distinct "context"
  rw [found]
  exact hasText_sorted (Json.keyed_object.mp (Event.keyed_of_plain isPlain)).1 "session_id" id

theorem tail_empty (tailBytes : Int) : tail tailBytes "" = "" := by
  unfold tail
  split <;> rfl

theorem eventsIn_tail (opened : log.Open files) {path : Path} (holds : log.Holds path) :
    log.eventsIn files path = .ok (parse (tail log.tailBytes (files.content path))) := by
  have noDirectory := (opened.takes path holds).noDirectory
  unfold Files.content Files.text? eventsIn
  rcases found : files.node? path with _ | content | _
  · exact congrArg (fun s => Except.ok (parse s)) (tail_empty log.tailBytes).symm
  · rfl
  · exact absurd found noDirectory

theorem eventsIn_content (opened : log.Open files) {path : Path} (holds : log.Holds path)
    (small : (files.content path).utf8ByteSize ≤ log.tailBytes) :
    log.eventsIn files path = .ok (parse (files.content path)) := by
  rw [eventsIn_tail opened holds, tail, if_pos small]

/-- Data that says what the events say, one for each of them. -/
def Records (events : List Event) (read : List Json) : Prop :=
  List.Forall₂ (fun e j => Json.Same e.toJson j) events read

theorem records_sorted (events : List Event) : Records events (events.map fun e => e.toJson.sorted) := by
  induction events with
  | nil => exact .nil
  | cons e events ih => exact .cons (Json.same_sorted e.toJson) ih

theorem select_levels (value : String) (events : List Event) :
    select value (hasText "level") (events.map fun e => e.toJson.sorted) =
      .ok ((events.filter fun e => value.isEmpty || e.level.name == value).map
        fun e => e.toJson.sorted) :=
  select_of_ok value fun e _ => hasText_sorted e.toJson_distinct "level" value

theorem select_types (value : String) (events : List Event) :
    select value (hasText "event_type") (events.map fun e => e.toJson.sorted) =
      .ok ((events.filter fun e => value.isEmpty || e.type.name == value).map
        fun e => e.toJson.sorted) :=
  select_of_ok value fun e _ => hasText_sorted e.toJson_distinct "event_type" value

theorem select_sessions (value : String) {events : List Event}
    (arePlain : ∀ e ∈ events, e.plain = true) :
    select value inSession (events.map fun e => e.toJson.sorted) =
      .ok ((events.filter fun e => value.isEmpty ||
        (e.context.lookup "session_id").bind Json.text? == some value).map
          fun e => e.toJson.sorted) :=
  select_of_ok value fun e member => inSession_sorted (arePlain e member) value

theorem takeLimit_forward {limit : Int} (forward : 0 ≤ limit) (read : List Json) :
    takeLimit limit read = read.take (min limit maxLimit).toNat := by
  have forward : 0 ≤ min limit maxLimit := Int.le_min.mpr ⟨forward, by decide⟩
  rw [takeLimit, if_pos forward]

theorem readGlobal_of_events {events : List Event} (arePlain : ∀ e ∈ events, e.plain = true)
    (there : log.eventsIn files log.globalPath = .ok (events.map fun e => e.toJson.sorted))
    {filter : EventFilter} (forward : 0 ≤ filter.limit) :
    log.readGlobal files filter = .ok (((events.filter filter.admits).reverse.take
      (min filter.limit maxLimit).toNat).map fun e => e.toJson.sorted) := by
  refine bind_eq_ok.mpr ⟨_, there, bind_eq_ok.mpr ⟨_, select_levels filter.level events,
    bind_eq_ok.mpr ⟨_, select_types filter.type _,
      bind_eq_ok.mpr ⟨_, select_sessions filter.session ?_, ?_⟩⟩⟩⟩
  · exact fun e member => arePlain e (List.mem_of_mem_filter (List.mem_of_mem_filter member))
  -- the three filters, one behind the other, are one
  · have admitted : filter.admits = fun e => ((filter.session.isEmpty ||
        (e.context.lookup "session_id").bind Json.text? == some filter.session) &&
        (filter.type.isEmpty || e.type.name == filter.type) &&
        (filter.level.isEmpty || e.level.name == filter.level)) := by
      funext e
      rw [EventFilter.admits, Bool.and_assoc, Bool.and_comm, Bool.and_comm (filter.type.isEmpty || _)]
    show Except.ok (takeLimit filter.limit _) = _
    rw [takeLimit_forward forward, List.filter_filter, List.filter_filter, ← List.map_reverse,
      ← List.map_take, admitted]

/-- Over any sequence of writes to a log that is empty before, of events whose contexts are plain data,
    whatever texts they hold: all of them succeed, and the global file has one line for each event. If
    this file is not too large, reading it gives the latest events that pass the filter, as many as the
    limit and not more than 2000, the last one first; and reading a session gives the events that were
    written for it, in order. -/
theorem read_written (opened : log.Open files) (new : ∀ path, log.Holds path → files.content path = "")
    {written : List (Event × Option String)} (arePlain : ∀ w ∈ written, w.1.plain = true)
    (small : (Event.fileText (written.map Prod.fst)).utf8ByteSize ≤ log.tailBytes) :
    ∃ files', (log.writeAll written).outcome files = (.ok (), files') ∧
      files'.content log.globalPath = Event.fileText (written.map Prod.fst) ∧
      Text.lines (files'.content log.globalPath) = written.map (·.1.line) ∧
      (∀ filter : EventFilter, 0 ≤ filter.limit → ∃ read, log.readGlobal files' filter = .ok read ∧
        Records (((written.map Prod.fst).filter filter.admits).reverse.take
          (min filter.limit 2000).toNat) read) ∧
      ∀ id, isSafeId id = true → ∃ read, log.readSession files' id = .ok read ∧
        Records ((written.filter (·.2 = some id)).map Prod.fst) read := by
  have plainAll : ∀ e ∈ written.map Prod.fst, e.plain = true := List.forall_mem_map.mpr arePlain
  obtain ⟨files', ran, opened', contents⟩ := writeAll_outcome opened written
  have global : files'.content log.globalPath = Event.fileText (written.map Prod.fst) := by
    rw [contents _ .global, new _ .global, String.empty_append]
    simp [globalPath_mem_destinations]
  refine ⟨files', ran, global, ?_, fun filter forward => ?_, fun id safe => ?_⟩
  · rw [global, Event.lines_fileText, List.map_map]
    rfl
  · have there := eventsIn_content opened' .global (global ▸ small)
    rw [global, Event.parse_fileText plainAll] at there
    exact ⟨_, readGlobal_of_events plainAll there forward, records_sorted _⟩
  · have own : files'.content (log.sessionPath id) =
        Event.fileText ((written.filter (·.2 = some id)).map Prod.fst) := by
      rw [contents _ (.session safe), new _ (.session safe), String.empty_append]
      simp only [sessionPath_mem_destinations safe]
    -- the file of a session is a part of the global one, so it is not too large either
    have part : (written.filter (·.2 = some id)).Sublist written := List.filter_sublist
    have fits := Int.le_trans (Int.ofNat_le.mpr (Event.fileText_size (part.map Prod.fst))) small
    have there := eventsIn_content opened' (.session safe) (own ▸ fits)
    have plainOwn : ∀ e ∈ (written.filter (·.2 = some id)).map Prod.fst, e.plain = true :=
      List.forall_mem_map.mpr fun w member => arePlain w (List.mem_of_mem_filter member)
    rw [own, Event.parse_fileText plainOwn] at there
    refine ⟨_, ?_, records_sorted _⟩
    rw [readSession, if_pos safe]
    exact there

theorem read_written_of_three :
    let first : Event := ⟨.error, .formulaEvalFailed, "\"\u2028\r\n\\u0041",
      [("session_id", .text "s-1"), ("formula", .list [.integer (-9223372036854775808), .null,
        .object [("b", .bool true), ("a", .text "😀")]])], some "\t\u0085", "now", 1⟩
    let second : Event := ⟨.info, .variableAssigned, "\x0b\x0c\x1c", [("name", .text "x\x7f")], none,
      "later", 1⟩
    let written := [(first, some "s-1"), (second, none), (second, some "../x")]
    let log : EventLog := ⟨["project"], (Event.fileText (written.map Prod.fst)).utf8ByteSize⟩
    (∀ w ∈ written, w.1.plain = true) ∧
    ∃ files', (log.writeAll written).outcome .empty = (.ok (), files') ∧
      Text.lines (files'.content log.globalPath) = [first.line, second.line, second.line] ∧
      (∃ read, log.readGlobal files' ⟨"info", "", "", 1⟩ = .ok read ∧ Records [second] read) ∧
      ∃ read, log.readSession files' "s-1" = .ok read ∧ Records [first] read := by
  intro first second written log
  have arePlain : ∀ w ∈ written, w.1.plain = true := by decide
  obtain ⟨files', ran, -, lines, global, session⟩ :=
    read_written log.open_empty (fun path _ => Files.content_empty path) arePlain (Int.le_refl _)
  exact ⟨arePlain, files', ran, lines, global ⟨"info", "", "", 1⟩ (by decide), session "s-1" (by decide)⟩

end EventLog

end Reckoner
