import Mathlib
import Reckoner.Proofs.Entries
import Reckoner.Proofs.Json.Doubles
import Reckoner.Proofs.Json.Strings

namespace Reckoner

namespace Json

open Text

mutual

/-- Data without doubles, in which every object has its keys only once. -/
def plain : Json → Bool
  | double _ => false
  | list js => plainItems js
  | object es => decide (es.map Prod.fst).Nodup && plainEntries es
  | _ => true

def plainItems : List Json → Bool
  | [] => true
  | j :: js => plain j && plainItems js

def plainEntries : List (String × Json) → Bool
  | [] => true
  | (_, j) :: es => plain j && plainEntries es

end

mutual

/-- Data in which every object has its keys only once. -/
def keyed : Json → Bool
  | list js => keyedItems js
  | object es => decide (es.map Prod.fst).Nodup && keyedEntries es
  | _ => true

def keyedItems : List Json → Bool
  | [] => true
  | j :: js => keyed j && keyedItems js

def keyedEntries : List (String × Json) → Bool
  | [] => true
  | (_, j) :: es => keyed j && keyedEntries es

end

mutual

theorem keyed_of_plain {j : Json} (isPlain : j.plain = true) : j.keyed = true := by
  cases j with
  | list js => exact keyedItems_of_plain isPlain
  | object es =>
    obtain ⟨distinct, inside⟩ := Bool.and_eq_true_iff.mp isPlain
    exact Bool.and_eq_true_iff.mpr ⟨distinct, keyedEntries_of_plain inside⟩
  | _ => rfl

theorem keyedItems_of_plain {js : List Json} (isPlain : plainItems js = true) : keyedItems js = true := by
  match js with
  | [] => rfl
  | j :: js =>
    obtain ⟨first, others⟩ := Bool.and_eq_true_iff.mp isPlain
    exact Bool.and_eq_true_iff.mpr ⟨keyed_of_plain first, keyedItems_of_plain others⟩

theorem keyedEntries_of_plain {es : List (String × Json)} (isPlain : plainEntries es = true) :
    keyedEntries es = true := by
  match es with
  | [] => rfl
  | (key, j) :: es =>
    obtain ⟨first, others⟩ := Bool.and_eq_true_iff.mp isPlain
    exact Bool.and_eq_true_iff.mpr ⟨keyed_of_plain first, keyedEntries_of_plain others⟩

end

theorem skipBlanks_of_not_blank {c : Char} (other : isBlank c = false) (cs : List Char) :
    skipBlanks (c :: cs) = c :: cs := List.dropWhile_cons_of_neg (by simp [other])

theorem value?_blank (fuel : Nat) (cs : List Char) : value? fuel (' ' :: cs) = value? fuel cs := by
  cases fuel <;> rfl

theorem items?_blank (fuel : Nat) (cs : List Char) : items? fuel (' ' :: cs) = items? fuel cs := by
  cases fuel with
  | zero => rfl
  | succ fuel => rw [items?, items?, value?_blank]

theorem entries?_blank (fuel : Nat) (cs : List Char) : entries? fuel (' ' :: cs) = entries? fuel cs := by
  cases fuel <;> rfl

theorem chars_cons (j : Json) : ∃ c cs, j.chars = c :: cs ∧ isBlank c = false ∧ c ≠ ']' := by
  have number {cs : List Char} (begins : BeginsNumber cs) :
      ∃ c ds, cs = c :: ds ∧ isBlank c = false ∧ c ≠ ']' := by
    obtain ⟨c, ds, head, blank, other⟩ := begins.head
    exact ⟨c, ds, head, blank, other ']' rfl (by decide)⟩
  cases j with
  | null | text | list | object => exact ⟨_, _, rfl, rfl, by decide⟩
  | bool b => cases b <;> exact ⟨_, _, rfl, rfl, by decide⟩
  | integer n => exact number (beginsNumber_intChars n)
  | double x =>
    rw [chars, doubleChars]
    rcases parts : Binary64.parts x with _ | s | ⟨s, m, q⟩
    · exact ⟨_, _, rfl, rfl, by decide⟩
    · cases s <;> exact ⟨_, _, rfl, rfl, by decide⟩
    · exact number (number?_finite parts .nil).1

variable {fuel : Nat} {rest behind : List Char}

theorem value?_number {cs : List Char} {j : Json} (begins : BeginsNumber cs)
    (read : number? cs = some (j, rest)) : value? (fuel + 1) cs = some (j, rest) := by
  have named := begins.name?_eq_none
  obtain ⟨c, ds, rfl, blank, other⟩ := begins.head
  rw [value?, skipBlanks_of_not_blank blank]
  split
  · rename_i same
    exact absurd (List.cons.inj same).1 (other _ rfl (by decide))
  · rename_i same
    exact absurd (List.cons.inj same).1 (other _ rfl (by decide))
  · rename_i same
    exact absurd (List.cons.inj same).1 (other _ rfl (by decide))
  · rw [named, read]
    rfl

theorem value?_integer (n : Int) (delimited : Delimited rest) :
    value? (fuel + 1) (intChars n ++ rest) = some (integer n, rest) :=
  value?_number ((beginsNumber_intChars n).append rest) (number?_intChars n delimited)

theorem value?_double (x : Float) (delimited : Delimited rest) :
    value? (fuel + 1) (doubleChars x ++ rest) = some (double x, rest) := by
  unfold doubleChars
  rcases parts : Binary64.parts x with _ | s | ⟨s, m, q⟩
  · rw [← Binary64.nan_of_parts parts]
    rfl
  · rw [← Binary64.infinity_of_parts parts]
    cases s <;> rfl
  · obtain ⟨begins, read⟩ := number?_finite parts delimited
    exact value?_number (begins.append rest) read

theorem value?_text (s : String) : value? (fuel + 1) (stringChars s ++ rest) = some (text s, rest) := by
  rw [stringChars, List.append_assoc, List.cons_append, List.singleton_append]
  show (string? _).map (fun r => (text r.1, r.2)) = _
  rw [string?_charTexts]
  rfl

theorem itemChars_cons (j : Json) (js : List Json) :
    ∃ c cs, itemChars (j :: js) = c :: cs ∧ isBlank c = false ∧ c ≠ ']' := by
  obtain ⟨c, cs, head, facts⟩ := j.chars_cons
  cases js with
  | nil => exact ⟨c, cs, head, facts⟩
  | cons j' js =>
    refine ⟨c, cs ++ ',' :: ' ' :: itemChars (j' :: js), ?_, facts⟩
    rw [itemChars, head]
    · rfl
    · nofun

theorem value?_bracket {c : Char} {cs : List Char} (blank : isBlank c = false) (other : c ≠ ']') :
    value? (fuel + 1) ('[' :: c :: cs) =
      (items? fuel (c :: cs)).map fun (r : List Json × List Char) => (list r.1, r.2) := by
  have bracket : isBlank '[' = false := rfl
  simp only [value?, skipBlanks_of_not_blank bracket, skipBlanks_of_not_blank blank]
  split
  · rename_i same
    exact absurd (List.cons.inj same).1 other
  · rfl

theorem value?_list {j : Json} {js : List Json}
    (read : items? fuel (itemChars (j :: js) ++ ']' :: rest) = some (j :: js, rest)) :
    value? (fuel + 1) (chars (list (j :: js)) ++ rest) = some (list (j :: js), rest) := by
  obtain ⟨c, cs, head, blank, other⟩ := itemChars_cons j js
  rw [head, List.cons_append] at read
  rw [chars, List.append_assoc, List.cons_append, List.singleton_append, head, List.cons_append]
  rw [value?_bracket blank other, read]
  rfl

theorem entryChars_cons (k : String) (j : Json) (es : List (String × Json)) :
    ∃ cs, entryChars ((k, j) :: es) = '"' :: cs := by
  cases es with
  | nil => exact ⟨_, rfl⟩
  | cons e es =>
    rw [entryChars]
    · exact ⟨_, rfl⟩
    · nofun

theorem value?_object {es : List (String × Json)} (nonempty : es ≠ [])
    (distinct : (es.map Prod.fst).Nodup)
    (read : entries? fuel (entryChars es ++ '\x7d' :: rest) = some (es, rest)) :
    value? (fuel + 1) (chars (object es) ++ rest) = some (object es, rest) := by
  have kept : Entries.update [] es = es := Entries.update_of_nodup distinct
  obtain ⟨⟨k, j⟩, es, rfl⟩ := List.exists_cons_of_ne_nil nonempty
  obtain ⟨cs, head⟩ := entryChars_cons k j es
  rw [head, List.cons_append] at read
  rw [chars, List.append_assoc, List.cons_append, List.singleton_append, head, List.cons_append]
  show (entries? fuel _).map (fun r => (object (Entries.update [] r.1), r.2)) = _
  rw [read, Option.map_some, kept]

variable {j : Json} {cs : List Char}

theorem items?_last (read : value? fuel cs = some (j, ']' :: rest)) :
    items? (fuel + 1) cs = some ([j], rest) := by
  rw [items?, read]
  rfl

theorem items?_cons {js : List Json} (read : value? fuel cs = some (j, ',' :: ' ' :: rest))
    (others : items? fuel rest = some (js, behind)) :
    items? (fuel + 1) cs = some (j :: js, behind) := by
  rw [← items?_blank] at others
  rw [items?, read]
  show ((items? fuel (' ' :: rest)).bind fun r => some (j :: r.1, r.2)) = _
  rw [others]
  rfl

theorem entries?_key (k : String) (cs : List Char) :
    entries? (fuel + 1) (stringChars k ++ ':' :: ' ' :: cs) = (value? fuel cs).bind fun r =>
      match skipBlanks r.2 with
      | '\x7d' :: rest => some ([(k, r.1)], rest)
      | ',' :: rest => (entries? fuel rest).bind fun es => some ((k, r.1) :: es.1, es.2)
      | _ => none := by
  rw [← value?_blank, stringChars, List.append_assoc, List.cons_append, List.singleton_append]
  show ((string? _).bind fun r => _) = _
  rw [string?_charTexts]
  rfl

theorem entries?_last (k : String) (read : value? fuel cs = some (j, '\x7d' :: rest)) :
    entries? (fuel + 1) (stringChars k ++ ':' :: ' ' :: cs) = some ([(k, j)], rest) := by
  rw [entries?_key, read]
  rfl

theorem entries?_cons (k : String) {es : List (String × Json)}
    (read : value? fuel cs = some (j, ',' :: ' ' :: rest))
    (others : entries? fuel rest = some (es, behind)) :
    entries? (fuel + 1) (stringChars k ++ ':' :: ' ' :: cs) = some ((k, j) :: es, behind) := by
  rw [← entries?_blank] at others
  rw [entries?_key, read]
  show ((entries? fuel (' ' :: rest)).bind fun es => some ((k, j) :: es.1, es.2)) = _
  rw [others]
  rfl

mutual

-- Every level of nesting costs two units of fuel and is written with two brackets at least, so twice the
-- length is enough.
theorem value?_chars (j : Json) (isKeyed : j.keyed = true) {rest : List Char}
    (delimited : Delimited rest) {fuel : Nat} (enough : 2 * j.chars.length ≤ fuel) :
    value? fuel (j.chars ++ rest) = some (j, rest) := by
  obtain ⟨c, cs, head, -⟩ := j.chars_cons
  obtain ⟨fuel, rfl⟩ : ∃ n, fuel = n + 1 :=
    ⟨fuel - 1, by simp only [head, List.length_cons] at enough; omega⟩
  clear head
  cases j with
  | null => rfl
  | bool b => cases b <;> rfl
  | double x => exact value?_double x delimited
  | integer n => exact value?_integer n delimited
  | text s => exact value?_text s
  | list js =>
    cases js with
    | nil => rfl
    | cons j js =>
      have isKeyed : keyedItems (j :: js) = true := isKeyed
      simp only [chars, List.length_append, List.length_cons, List.length_nil] at enough
      exact value?_list (items?_itemChars (j :: js) nofun isKeyed rest (by omega))
  | object es =>
    by_cases nonempty : es = []
    · subst nonempty
      rfl
    · have isKeyed : decide (es.map Prod.fst).Nodup && keyedEntries es := isKeyed
      rw [Bool.and_eq_true, decide_eq_true_iff] at isKeyed
      simp only [chars, List.length_append, List.length_cons, List.length_nil] at enough
      exact value?_object nonempty isKeyed.1
        (entries?_entryChars es nonempty isKeyed.2 rest (by omega))

theorem items?_itemChars (js : List Json) (nonempty : js ≠ []) (isKeyed : keyedItems js = true)
    (rest : List Char) {fuel : Nat} (enough : 2 * (itemChars js).length + 1 ≤ fuel) :
    items? fuel (itemChars js ++ ']' :: rest) = some (js, rest) := by
  obtain ⟨fuel, rfl⟩ : ∃ n, fuel = n + 1 := ⟨fuel - 1, by omega⟩
  match js with
  | [] => exact absurd rfl nonempty
  | [j] =>
    have isKeyed : j.keyed = true := (Bool.and_eq_true_iff.mp isKeyed).1
    exact items?_last (value?_chars j isKeyed (.bracket _) (by simp only [itemChars] at enough; omega))
  | j :: j' :: js =>
    obtain ⟨first, others⟩ := Bool.and_eq_true_iff.mp isKeyed
    rw [itemChars] at enough ⊢
    · simp only [List.length_append, List.length_cons] at enough
      rw [List.append_assoc]
      exact items?_cons (value?_chars j first (.comma _) (by omega))
        (items?_itemChars (j' :: js) nofun others rest (by omega))
    all_goals nofun

theorem entries?_entryChars (es : List (String × Json)) (nonempty : es ≠ [])
    (isKeyed : keyedEntries es = true) (rest : List Char) {fuel : Nat}
    (enough : 2 * (entryChars es).length + 1 ≤ fuel) :
    entries? fuel (entryChars es ++ '\x7d' :: rest) = some (es, rest) := by
  obtain ⟨fuel, rfl⟩ : ∃ n, fuel = n + 1 := ⟨fuel - 1, by omega⟩
  match es with
  | [] => exact absurd rfl nonempty
  | [(k, j)] =>
    have isKeyed : j.keyed = true := (Bool.and_eq_true_iff.mp isKeyed).1
    simp only [entryChars, List.length_append, List.length_cons] at enough
    rw [entryChars, List.append_assoc]
    exact entries?_last k (value?_chars j isKeyed (.brace _) (by omega))
  | (k, j) :: e :: es =>
    obtain ⟨first, others⟩ := Bool.and_eq_true_iff.mp isKeyed
    rw [entryChars] at enough ⊢
    · simp only [List.length_append, List.length_cons] at enough
      simp only [List.append_assoc, List.cons_append]
      exact entries?_cons k (value?_chars j first (.comma _) (by omega))
        (entries?_entryChars (e :: es) nofun others rest (by omega))
    all_goals nofun

end

/-- Reading inverts printing. -/
theorem read?_print {j : Json} (isKeyed : j.keyed = true) : read? j.print = some j := by
  have read : value? (2 * j.chars.length + 2) (j.chars ++ []) = some (j, []) :=
    value?_chars j isKeyed .nil (by omega)
  rw [List.append_nil] at read
  rw [read?, print, String.toList_ofList, read]
  rfl

end Json

end Reckoner
