import Reckoner.Proofs.Log.Reading

namespace Reckoner

namespace Event

def latestWithin (budget : Nat) : List Event → List Event
  | [] => []
  | e :: events =>
    if (fileText (e :: events)).utf8ByteSize ≤ budget then e :: events else latestWithin budget events

variable {budget : Nat} {e : Event} {events : List Event}

theorem latestWithin_of_le (fits : (fileText events).utf8ByteSize ≤ budget) :
    latestWithin budget events = events := by
  cases events with
  | nil => rfl
  | cons e events => exact if_pos fits

theorem latestWithin_of_lt (large : budget < (fileText (e :: events)).utf8ByteSize) :
    latestWithin budget (e :: events) = latestWithin budget events :=
  if_neg (Nat.not_le.mpr large)

theorem suffix_latestWithin_iff {ending : List Event} :
    ending <:+ latestWithin budget events ↔ ending <:+ events ∧ (fileText ending).utf8ByteSize ≤ budget := by
  induction events with
  | nil =>
    refine ⟨fun part => ?_, And.left⟩
    cases List.suffix_nil.mp part
    exact ⟨part, Nat.zero_le _⟩
  | cons e events ih =>
    rw [latestWithin]
    split
    · rename_i fits
      exact ⟨fun part => ⟨part, Nat.le_trans (fileText_size part.sublist) fits⟩, And.left⟩
    · rename_i large
      rw [ih, List.suffix_cons_iff]
      refine and_congr_left fun fits => ⟨.inr, fun part => part.resolve_left ?_⟩
      rintro rfl
      exact large fits

theorem size_cons (e : Event) (events : List Event) : (fileText (e :: events)).utf8ByteSize =
    e.line.utf8ByteSize + 1 + (fileText events).utf8ByteSize := by
  rw [fileText_cons, String.utf8ByteSize_append, String.utf8ByteSize_append]
  rfl

theorem size_lt_cons (e : Event) (events : List Event) :
    (fileText events).utf8ByteSize + 1 < (fileText (e :: events)).utf8ByteSize := by
  obtain ⟨cs, ends⟩ := e.line_ends
  have visible : 0 < e.line.utf8ByteSize := by
    rw [ends, String.ofList_append, String.utf8ByteSize_append]
    exact Nat.lt_add_left _ (by decide)
  rw [size_cons]
  omega

theorem latestWithin_pred (budget : Nat) (events : List Event) : latestWithin (budget - 1) events =
    if (fileText (latestWithin budget events)).utf8ByteSize = budget then (latestWithin budget events).tail
    else latestWithin budget events := by
  induction events with
  | nil => exact (ite_self _).symm
  | cons e events ih =>
    have size := size_cons e events
    rcases Nat.lt_trichotomy (fileText (e :: events)).utf8ByteSize budget with below | exact | above
    · rw [latestWithin_of_le (Nat.le_of_lt below), latestWithin_of_le (Nat.le_sub_one_of_lt below),
        if_neg (Nat.ne_of_lt below)]
    · rw [latestWithin_of_le (Nat.le_of_eq exact), if_pos exact, List.tail_cons,
        latestWithin_of_lt (by omega), latestWithin_of_le (by omega)]
    · rw [latestWithin_of_lt above, latestWithin_of_lt (by omega), ih]

end Event

namespace EventLog

theorem utf8Size_of_low {c : Char} (low : c.toNat ≤ 127) : c.utf8Size = 1 := by
  have within : c.val ≤ 127 := UInt32.le_iff_toNat_le.mpr low
  exact if_pos within

theorem utf8ByteSize_of_low {cs : List Char} (low : ∀ c ∈ cs, c.toNat ≤ 127) :
    (String.ofList cs).utf8ByteSize = cs.length := by
  induction cs with
  | nil => rfl
  | cons c cs ih =>
    obtain ⟨first, others⟩ := List.forall_mem_cons.mp low
    have split : String.ofList (c :: cs) = String.singleton c ++ String.ofList cs := by
      rw [String.singleton_eq_ofList, ← String.ofList_append]
      rfl
    rw [split, String.utf8ByteSize_append, String.utf8ByteSize_singleton, utf8Size_of_low first, ih others,
      List.length_cons, Nat.add_comm]

theorem lastBytes_of_low {cs : List Char} (low : ∀ c ∈ cs, c.toNat ≤ 127) (budget : Nat) (kept : List Char) :
    lastBytes budget cs kept = (cs.take budget).reverse ++ kept := by
  induction cs generalizing budget kept with
  | nil =>
    rw [lastBytes, List.take_nil]
    rfl
  | cons c cs ih =>
    obtain ⟨first, others⟩ := List.forall_mem_cons.mp low
    rw [lastBytes, utf8Size_of_low first]
    cases budget with
    | zero => rfl
    | succ budget =>
      rw [if_pos (by omega), Nat.add_sub_cancel, ih others, List.take_succ_cons, List.reverse_cons,
        List.append_assoc]
      rfl

def fileChars (events : List Event) : List Char := events.flatMap fun e => e.line.toList ++ ['\n']

theorem fileText_eq (events : List Event) : Event.fileText events = String.ofList (fileChars events) := by
  induction events with
  | nil => rfl
  | cons e events ih =>
    have chars : fileChars (e :: events) = e.line.toList ++ ['\n'] ++ fileChars events := List.flatMap_cons
    rw [Event.fileText_cons, ih, chars, String.ofList_append, String.ofList_append, String.ofList_toList]

theorem fileChars_low (events : List Event) : ∀ c ∈ fileChars events, c.toNat ≤ 127 := by
  intro c member
  obtain ⟨e, -, inside⟩ := List.mem_flatMap.mp member
  rcases List.mem_append.mp inside with printed | feed
  · exact Nat.le_succ_of_le (e.line_printed c printed).2
  · rw [List.mem_singleton.mp feed]
    decide

theorem fileText_size_eq (events : List Event) :
    (Event.fileText events).utf8ByteSize = (fileChars events).length := by
  rw [fileText_eq, utf8ByteSize_of_low (fileChars_low events)]

theorem dropFragment_line {line : List Char} (printed : ∀ c ∈ line, Printed c) (rest : List Char) :
    dropFragment (line ++ '\n' :: rest) = rest := by
  have inside : ∀ c ∈ line, (c != '\n') = true := by
    intro c member
    refine bne_iff_ne.mpr ?_
    rintro rfl
    exact absurd (printed _ member) (by decide)
  have ends : (line ++ '\n' :: rest).contains '\n' = true := by simp
  rw [dropFragment, if_pos ends, List.dropWhile_append_of_pos inside]
  rfl

/-- Wherever a window begins, what follows its first line is the latest events that have fewer bytes. -/
theorem dropFragment_drop (events : List Event) (skipped : Nat) :
    dropFragment ((fileChars events).drop skipped) =
      fileChars (Event.latestWithin ((fileChars events).length - skipped - 1) events) := by
  induction events generalizing skipped with
  | nil => simp [fileChars, dropFragment, Event.latestWithin]
  | cons e events ih =>
    have chars : fileChars (e :: events) = e.line.toList ++ '\n' :: fileChars events := by
      rw [fileChars, List.flatMap_cons, List.append_assoc]
      rfl
    have size : (Event.fileText (e :: events)).utf8ByteSize =
        e.line.toList.length + 1 + (fileChars events).length := by
      rw [fileText_size_eq, chars, List.length_append, List.length_cons]
      omega
    have length : (fileChars (e :: events)).length = e.line.toList.length + 1 + (fileChars events).length := by
      rw [← fileText_size_eq, size]
    have rest := fileText_size_eq events
    rw [Event.latestWithin_of_lt (by omega), length, chars]
    by_cases within : skipped ≤ e.line.toList.length
    · rw [List.drop_append_of_le_length within, Event.latestWithin_of_le (by omega)]
      exact dropFragment_line (fun c member => e.line_printed c (List.mem_of_mem_drop member)) _
    · obtain ⟨n, rfl⟩ : ∃ n, skipped = e.line.toList.length + 1 + n :=
        ⟨skipped - e.line.toList.length - 1, by omega⟩
      have behind : (e.line.toList ++ '\n' :: fileChars events).drop (e.line.toList.length + 1 + n) =
          (fileChars events).drop n := by
        rw [Nat.add_assoc, ← List.drop_drop, List.drop_left, Nat.add_comm 1 n]
        rfl
      rw [behind, ih]
      congr 2
      omega

def remaining (budget : Nat) (events : List Event) : List Event :=
  let window := Event.latestWithin budget events
  if (Event.fileText window).utf8ByteSize = budget ∧ window.length < events.length then window.tail
  else window

theorem remaining_suffix (budget : Nat) (events : List Event) : remaining budget events <:+ events := by
  have part : Event.latestWithin budget events <:+ events :=
    (Event.suffix_latestWithin_iff.mp List.suffix_rfl).1
  unfold remaining
  dsimp only
  split
  · exact (List.tail_suffix _).trans part
  · exact part

theorem length_latestWithin {budget : Nat} {events : List Event}
    (large : budget < (Event.fileText events).utf8ByteSize) :
    (Event.latestWithin budget events).length < events.length := by
  obtain ⟨part, fits⟩ := Event.suffix_latestWithin_iff.mp (List.suffix_refl (Event.latestWithin budget events))
  refine Nat.lt_of_le_of_ne part.length_le fun same => ?_
  rw [part.eq_of_length same] at fits
  omega

theorem tail_of_events (events : List Event) (budget : Nat) :
    tail budget (Event.fileText events) = Event.fileText (remaining budget events) := by
  by_cases fits : (Event.fileText events).utf8ByteSize ≤ budget
  · rw [tail, if_pos (Int.ofNat_le.mpr fits), remaining, Event.latestWithin_of_le fits,
      if_neg fun begins => Nat.lt_irrefl _ begins.2]
  · have large := Nat.lt_of_not_le fits
    have bytes := large
    rw [fileText_size_eq] at bytes
    rw [tail, if_neg (by omega), fileText_eq events, String.toList_ofList,
      lastBytes_of_low (fun c member => fileChars_low events c (List.mem_reverse.mp member)), List.append_nil,
      List.take_reverse, List.reverse_reverse, dropFragment_drop, ← fileText_eq]
    have place : (fileChars events).length - ((fileChars events).length - (budget : Int).toNat) - 1 =
        budget - 1 := by omega
    rw [place, Event.latestWithin_pred, remaining]
    simp only [length_latestWithin large, and_true]

variable {log : EventLog} {files : Files}

theorem readGlobal_tail (opened : log.Open files) {events : List Event} (few : events.length ≤ 2000)
    (areKeyed : ∀ e ∈ events, e.keyed = true)
    (remain : tail log.tailBytes (files.content log.globalPath) = Event.fileText events) :
    log.readGlobal files ⟨"", "", "", 2000⟩ = .ok (events.reverse.map fun e => e.toJson.sorted) := by
  have there := eventsIn_tail opened .global
  rw [remain, Event.parse_lines areKeyed] at there
  rw [readGlobal, there]
  show Except.ok (takeLimit 2000 _) = _
  rw [takeLimit_forward (by decide), ← List.map_reverse, ← List.map_take, List.take_of_length_le]
  rw [List.length_reverse]
  exact few

theorem global_of_writeAll (opened : log.Open files) (new : files.content log.globalPath = "")
    (written : List (Event × Option String)) :
    ∃ files', (log.writeAll written).outcome files = (.ok (), files') ∧ log.Open files' ∧
      files'.content log.globalPath = Event.fileText (written.map Prod.fst) := by
  obtain ⟨files', ran, opened', contents⟩ := writeAll_outcome opened written
  refine ⟨files', ran, opened', ?_⟩
  rw [contents _ .global, new, String.empty_append]
  simp [globalPath_mem_destinations]

/-- Over at most 2000 writes to a log that is empty before, of any events with data in which no object
    has a key twice: an unfiltered read gives the latest events whose lines, with their line ends, lie
    within the last bytes that reads take, the last one first, and no part of a line. Only where these
    bytes begin with the line of an event, and not at the beginning of the file, this event is missing. -/
theorem read_window (opened : log.Open files) (new : files.content log.globalPath = "")
    {written : List (Event × Option String)} (areKeyed : ∀ w ∈ written, w.1.keyed = true)
    (few : written.length ≤ 2000) (budget : 0 ≤ log.tailBytes) :
    ∃ files' window read, (log.writeAll written).outcome files = (.ok (), files') ∧
      files'.content log.globalPath = Event.fileText (written.map Prod.fst) ∧
      (∀ ending, ending <:+ window ↔ ending <:+ written.map Prod.fst ∧
        (Event.fileText ending).utf8ByteSize ≤ log.tailBytes) ∧
      log.readGlobal files' ⟨"", "", "", 2000⟩ = .ok read ∧
      Records (if (Event.fileText window).utf8ByteSize = log.tailBytes ∧ window.length < written.length
        then window.tail else window).reverse read := by
  obtain ⟨files', ran, opened', global⟩ := global_of_writeAll opened new written
  have keyed : ∀ e ∈ written.map Prod.fst, e.keyed = true := List.forall_mem_map.mpr areKeyed
  have number : (written.map Prod.fst).length ≤ 2000 := by rwa [List.length_map]
  have length : written.length = (written.map Prod.fst).length := (List.length_map _).symm
  rw [length]
  generalize written.map Prod.fst = events at global keyed number
  obtain ⟨n, bytes⟩ := Int.eq_ofNat_of_zero_le budget
  have remain := tail_of_events events n
  rw [← global, ← bytes] at remain
  have part : remaining n events <:+ events := remaining_suffix n events
  have read := readGlobal_tail opened' (Nat.le_trans part.length_le number)
    (fun e member => keyed e (part.mem member)) remain
  refine ⟨files', Event.latestWithin n events, _, ran, global, fun ending => ?_, read, ?_⟩
  · rw [bytes, Int.ofNat_le]
    exact Event.suffix_latestWithin_iff
  · rw [bytes]
    simp only [Int.ofNat_inj]
    exact records_sorted _

theorem read_window_of_line_end :
    let first : Event := ⟨.info, .variableAssigned, "first", [("name", .text "x")], none, "now", 1⟩
    let second : Event := ⟨.error, .formulaEvalFailed, "\u2028", [("values", .list [.double Binary64.nan,
      .double (Binary64.infinity true),
      .double (Float.ofBits 0x8000000000000000), .double (Float.ofBits 0x3FB999999999999A)])],
      some "\n", "later", 1⟩
    let third : Event := { first with message := "third" }
    let written := [(first, none), (second, some "s"), (third, none)]
    let log : EventLog := ⟨["project"], (Event.fileText [second, third]).utf8ByteSize + 1⟩
    (∀ w ∈ written, w.1.keyed = true) ∧
    ∃ files' read, (log.writeAll written).outcome .empty = (.ok (), files') ∧
      log.readGlobal files' ⟨"", "", "", 2000⟩ = .ok read ∧ Records [third, second] read := by
  intro first second third written log
  have areKeyed : ∀ w ∈ written, w.1.keyed = true := by decide
  obtain ⟨files', window, read, ran, -, inside, result, records⟩ :=
    read_window log.open_empty (Files.content_empty _) areKeyed (by decide) (Int.natCast_nonneg _)
  have whole : window = [second, third] := by
    have within : [second, third] <:+ window :=
      (inside _).mpr ⟨List.suffix_cons first _, Int.ofNat_le.mpr (Nat.le_succ _)⟩
    obtain ⟨part, fits⟩ := (inside window).mp List.suffix_rfl
    rcases List.suffix_cons_iff.mp part with all | others
    · have larger := Int.ofNat_le.mp (all ▸ fits)
      exact absurd (Event.size_lt_cons first [second, third]) (Nat.not_lt.mpr larger)
    · exact (within.eq_of_length_le others.length_le).symm
  rw [if_neg, whole] at records
  · exact ⟨areKeyed, files', read, ran, result, records⟩
  · rw [whole]
    exact fun begins => Nat.succ_ne_self _ (Int.ofNat_inj.mp begins.1).symm

/-- The last bytes are the whole line of the second event, and this event is not read. -/
theorem first_line_dropped :
    let first : Event :=
      ⟨.info, .formulaEvaluated, "a", [], none, "2000-01-02T03:04:05.000001Z", 1⟩
    let second : Event := { first with message := "b" }
    let log : EventLog := ⟨["project"], (second.line ++ "\n").utf8ByteSize⟩
    ∃ files', (log.writeAll [(first, none), (second, none)]).outcome .empty = (.ok (), files') ∧
      files'.content log.globalPath = first.line ++ "\n" ++ (second.line ++ "\n") ∧
      log.readGlobal files' ⟨"", "", "", 2000⟩ = .ok [] := by
  intro first second log
  obtain ⟨files', ran, opened, global⟩ :=
    global_of_writeAll log.open_empty (Files.content_empty _) [(first, none), (second, none)]
  rw [List.map_cons, List.map_singleton] at global
  have window : Event.latestWithin (Event.fileText [second]).utf8ByteSize [first, second] = [second] := by
    rw [Event.latestWithin_of_lt (Nat.lt_of_succ_lt (Event.size_lt_cons first [second])),
      Event.latestWithin_of_le (Nat.le_refl _)]
  have nothing : remaining (Event.fileText [second]).utf8ByteSize [first, second] = [] := by
    rw [remaining, window]
    exact if_pos ⟨rfl, by decide⟩
  have remain := tail_of_events [first, second] (Event.fileText [second]).utf8ByteSize
  rw [nothing, ← global] at remain
  have keyed : ∀ e ∈ ([] : List Event), e.keyed = true := nofun
  exact ⟨files', ran, global, readGlobal_tail opened (by decide) keyed remain⟩

end EventLog

end Reckoner
