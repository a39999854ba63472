import Mathlib.Data.List.Basic
import Reckoner.Proofs.Scanning.Reach

namespace Reckoner.Token

/-- From one position to another a text has white space only. -/
def Blank (text : String) (p q : Nat) : Prop :=
  ∀ i, p ≤ i → i < q → ∃ c, text.toList[i]? = some c ∧ isSpace c = true

section

variable (preferDecimal : Bool) (text : String) (p : Nat)

theorem blank_before : Blank text p (scan preferDecimal text p).position := by
  intro i low high
  rw [position_eq] at high
  obtain ⟨k, rfl⟩ := Nat.exists_eq_add_of_le low
  have inside : k < ((text.toList.drop p).takeWhile isSpace).length := Nat.lt_of_add_lt_add_left high
  refine ⟨((text.toList.drop p).takeWhile isSpace)[k], ?_, ?_⟩
  · rw [← List.getElem?_drop, (List.takeWhile_prefix isSpace).getElem inside]
    exact List.getElem?_eq_getElem _
  · exact List.all_eq_true.mp List.all_takeWhile _ (List.getElem_mem inside)

variable {p}

theorem read_behind_blanks {ws : List Char} (blank : ∀ c ∈ ws, isSpace c = true) (cs : List Char) :
    read preferDecimal p (ws ++ cs) = read preferDecimal (p + ws.length) cs := by
  unfold read
  rw [List.takeWhile_append_of_pos blank, List.dropWhile_append_of_pos blank, List.length_append,
    Nat.add_assoc]

theorem list_behind_blanks {ws : List Char} (blank : ∀ c ∈ ws, isSpace c = true) (cs : List Char) :
    list preferDecimal p (ws ++ cs) = list preferDecimal (p + ws.length) cs := by
  rw [list.eq_def, list.eq_def preferDecimal (p + ws.length), read_behind_blanks preferDecimal blank]

end

section

variable {preferDecimal : Bool} {text : String} {p q : Nat}

theorem Blank.split (blank : Blank text p q) (ordered : p ≤ q) :
    ∃ ws, (∀ c ∈ ws, isSpace c = true) ∧ text.toList.drop p = ws ++ text.toList.drop q ∧
      p + ws.length = q := by
  obtain ⟨n, rfl⟩ := Nat.exists_eq_add_of_le ordered
  refine ⟨(text.toList.drop p).take n, fun c member => ?_, ?_, ?_⟩
  · obtain ⟨k, below, rfl⟩ := List.mem_take_iff_getElem.mp member
    obtain ⟨inside, present⟩ := Nat.lt_min.mp below
    obtain ⟨d, here, space⟩ := blank (p + k) (Nat.le_add_right ..) (Nat.add_lt_add_left inside p)
    rw [← List.getElem?_drop, List.getElem?_eq_getElem present] at here
    rwa [Option.some.inj here]
  · rw [← List.drop_drop, List.take_append_drop]
  · rw [List.length_take, List.length_drop]
    cases n with
    | zero => omega
    | succ n =>
      obtain ⟨d, here, -⟩ := blank (p + n) (Nat.le_add_right ..) (Nat.lt_succ_self _)
      have inside := (List.getElem?_eq_some_iff.mp here).1
      omega

theorem Blank.scan (preferDecimal : Bool) (blank : Blank text p q) (ordered : p ≤ q) :
    scan preferDecimal text q = scan preferDecimal text p := by
  obtain ⟨ws, spaces, split, rfl⟩ := blank.split ordered
  unfold Token.scan
  rw [split, read_behind_blanks preferDecimal spaces]

theorem Blank.list (blank : Blank text p q) (ordered : p ≤ q) :
    list preferDecimal q (text.toList.drop q) = list preferDecimal p (text.toList.drop p) := by
  obtain ⟨ws, spaces, split, rfl⟩ := blank.split ordered
  rw [split, list_behind_blanks preferDecimal spaces]

theorem Blank.mono {r s : Nat} (blank : Blank text p q) (low : p ≤ r) (high : s ≤ q) : Blank text r s :=
  fun i above below => blank i (Nat.le_trans low above) (Nat.lt_of_lt_of_le below high)

theorem scan_of_length_le (past : text.toList.length ≤ p) :
    Token.scan preferDecimal text p = ⟨.eof, p, 0⟩ := by
  rw [Token.scan, List.drop_eq_nil_of_le past]
  rfl

theorem length_le_of_eof (none : (Token.scan preferDecimal text p).lexeme = .eof) :
    text.toList.length ≤ (Token.scan preferDecimal text p).position := by
  rcases scan_cases preferDecimal text p with ⟨-, -, past⟩ | ⟨c, cs, -, -, lexeme, -⟩
  · exact past
  · exact absurd (lexeme.symm.trans none) (Lexeme.read_ne_eof preferDecimal c cs)

end

theorem list_drop (preferDecimal : Bool) (text : String) (p : Nat) :
    list preferDecimal p (text.toList.drop p) =
      if (scan preferDecimal text p).lexeme = .eof then []
      else if (scan preferDecimal text p).lexeme.isError then [scan preferDecimal text p]
      else scan preferDecimal text p :: list preferDecimal (scan preferDecimal text p).stop
        (text.toList.drop (scan preferDecimal text p).stop) := by
  have behind : (Grammar.cursorAt preferDecimal text p).here.drop (scan preferDecimal text p).length =
      _ := Grammar.drop_here p _
  rw [list.eq_def]
  unfold stop
  rw [← behind]
  rfl

section

variable {preferDecimal : Bool} {text : String} {p : Nat} {t : Token} {ts : List Token}

theorem cons_of_list (begins : list preferDecimal p (text.toList.drop p) = t :: ts) :
    scan preferDecimal text p = t ∧ t.lexeme ≠ .eof ∧
      ts = if t.lexeme.isError then [] else list preferDecimal t.stop (text.toList.drop t.stop) := by
  rw [list_drop] at begins
  split at begins
  · cases begins
  rename_i more
  split at begins
  · rename_i error
    obtain ⟨rfl, rfl⟩ := List.cons.inj begins
    exact ⟨rfl, more, (if_pos error).symm⟩
  · rename_i valid
    obtain ⟨rfl, rfl⟩ := List.cons.inj begins
    exact ⟨rfl, more, (if_neg valid).symm⟩

theorem eof_of_list (none : list preferDecimal p (text.toList.drop p) = []) :
    (scan preferDecimal text p).lexeme = .eof := by
  rw [list_drop] at none
  split at none
  · rename_i ends
    exact ends
  split at none <;> cases none

/-- Where the last of some tokens stops; without one, where they would begin. -/
def ends (p : Nat) : List Token → Nat
  | [] => p
  | t :: ts => ends t.stop ts

theorem list_behind {behind : List Token}
    (whole : list preferDecimal p (text.toList.drop p) = ts ++ behind)
    (valid : behind = [] → ∀ t ∈ ts.getLast?, t.lexeme.isError = false) :
    list preferDecimal (ends p ts) (text.toList.drop (ends p ts)) = behind := by
  induction ts generalizing p with
  | nil => exact whole
  | cons t ts ih =>
    obtain ⟨-, -, rest⟩ := cons_of_list whole
    cases error : t.lexeme.isError with
    | true =>
      rw [error, if_pos rfl] at rest
      obtain ⟨rfl, rfl⟩ := List.append_eq_nil_iff.mp rest
      exact absurd error (Bool.eq_false_iff.mp (valid rfl t rfl))
    | false =>
      rw [error, if_neg Bool.false_ne_true] at rest
      exact ih rest.symm fun none u last => valid none u (List.mem_getLast?_cons last)

theorem list_ordered (inside : p ≤ text.toList.length)
    (tokens : list preferDecimal p (text.toList.drop p) = ts) :
    p + ts.length ≤ text.toList.length ∧ (∀ t ∈ ts, p ≤ t.position) ∧
      ts.Pairwise fun t u => t.stop ≤ u.position := by
  induction ts generalizing p with
  | nil => exact ⟨inside, List.forall_mem_nil _, .nil⟩
  | cons t ts ih =>
    obtain ⟨rfl, more, rest⟩ := cons_of_list tokens
    have low := le_position preferDecimal text p
    have covers := length_pos_of_ne_eof preferDecimal text p more
    have within := stop_le_length preferDecimal text p inside
    have behind : (scan preferDecimal text p).stop + ts.length ≤ text.toList.length ∧
        (∀ u ∈ ts, (scan preferDecimal text p).stop ≤ u.position) ∧
        ts.Pairwise fun t u => t.stop ≤ u.position := by
      split at rest
      · subst rest
        exact ⟨within, List.forall_mem_nil _, .nil⟩
      · exact ih within rest.symm
    obtain ⟨count, high, apart⟩ := behind
    rw [stop] at count
    refine ⟨?_, List.forall_mem_cons.mpr ⟨low, fun u member => ?_⟩, .cons high apart⟩
    · rw [List.length_cons]
      omega
    · have later := high u member
      rw [stop] at later
      omega

theorem ends_le_length {behind : List Token} (inside : p ≤ text.toList.length)
    (tokens : list preferDecimal p (text.toList.drop p) = ts ++ behind) : ends p ts ≤ text.toList.length := by
  induction ts generalizing p with
  | nil => exact inside
  | cons t ts ih =>
    obtain ⟨rfl, -, rest⟩ := cons_of_list tokens
    have within := stop_le_length preferDecimal text p inside
    split at rest
    · obtain ⟨rfl, -⟩ := List.append_eq_nil_iff.mp rest
      exact within
    · exact ih within rest.symm

end

/-- The tokens of a text are in order, do not overlap and have white space only between them and before
    the first, and behind the last unless it is an error. From every position between the end of the token
    before and its own a token is read, and the characters from its stop on are left. At the end of the text
    nothing is read. -/
theorem tokens_tile (preferDecimal : Bool) (text : String) :
    (all preferDecimal text).length ≤ text.toList.length ∧
    (all preferDecimal text).Pairwise (fun t u => t.stop ≤ u.position) ∧
    (∀ before t behind, all preferDecimal text = before ++ t :: behind →
      0 < t.length ∧ t.stop ≤ text.toList.length ∧
      ends 0 before ≤ t.position ∧ Blank text (ends 0 before) t.position ∧
      ∀ p, ends 0 before ≤ p → p ≤ t.position →
        scan preferDecimal text p = t ∧
        (read preferDecimal p (text.toList.drop p)).2.drop t.length =
          text.toList.drop (t.position + t.length) ∧
        list preferDecimal p (text.toList.drop p) = t :: behind) ∧
    ((∀ t ∈ (all preferDecimal text).getLast?, t.lexeme.isError = false) →
      Blank text (ends 0 (all preferDecimal text)) text.toList.length ∧
      ∀ p, ends 0 (all preferDecimal text) ≤ p → p ≤ text.toList.length →
        scan preferDecimal text p = ⟨.eof, text.toList.length, 0⟩) ∧
    ∀ p, text.toList.length ≤ p → scan preferDecimal text p = ⟨.eof, p, 0⟩ := by
  have inside : 0 ≤ text.toList.length := Nat.zero_le _
  have whole : list preferDecimal 0 (text.toList.drop 0) = all preferDecimal text := rfl
  obtain ⟨count, -, apart⟩ := list_ordered inside whole
  refine ⟨by omega, apart, fun before t behind split => ?_, fun valid => ?_, fun p past => ?_⟩
  · have rest := list_behind (p := 0) split (by simp)
    obtain ⟨rfl, more, -⟩ := cons_of_list rest
    have blank := blank_before preferDecimal text (ends 0 before)
    have low := le_position preferDecimal text (ends 0 before)
    refine ⟨length_pos_of_ne_eof _ _ _ more, stop_le_length _ _ _ (ends_le_length inside split), low, blank,
      fun p above below => ?_⟩
    have between := blank.mono (Nat.le_refl _) below
    have same := between.scan preferDecimal above
    refine ⟨same, ?_, (between.list above).trans rest⟩
    rw [← same]
    exact Grammar.drop_here p _
  · have split := (List.append_nil (all preferDecimal text)).symm
    have none := eof_of_list (list_behind (p := 0) split fun _ => valid)
    have blank : Blank text (ends 0 (all preferDecimal text)) text.toList.length :=
      (blank_before preferDecimal text _).mono (Nat.le_refl _) (length_le_of_eof none)
    refine ⟨blank, fun p above below => ?_⟩
    rw [← (blank.mono above (Nat.le_refl _)).scan preferDecimal below]
    exact scan_of_length_le (Nat.le_refl _)
  · exact scan_of_length_le past

end Reckoner.Token
