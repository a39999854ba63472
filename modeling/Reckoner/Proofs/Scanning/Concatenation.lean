import Mathlib
import Reckoner.Proofs.Scanning.Cut
import Reckoner.Proofs.Scanning.Tiling

namespace Reckoner

open Text

namespace Token

/-- A token that stands further right. -/
def shifted (n : Nat) (t : Token) : Token := { t with position := t.position + n }

variable (preferDecimal : Bool)

theorem read_shifted (p n : Nat) (cs : List Char) : read preferDecimal (p + n) cs =
    ((read preferDecimal p cs).1.shifted n, (read preferDecimal p cs).2) := by
  unfold read
  rw [Nat.add_right_comm]
  split <;> rfl

theorem list_shifted (p n : Nat) (cs : List Char) :
    list preferDecimal (p + n) cs = (list preferDecimal p cs).map (shifted n) := by
  fun_induction list preferDecimal p cs with
  | case1 p cs next none =>
    rw [list.eq_def, read_shifted]
    exact dif_pos none
  | case2 p cs next more error =>
    rw [list.eq_def, read_shifted]
    exact (dif_neg more).trans (if_pos error)
  | case3 p cs next more valid ih =>
    have stop : (next.1.shifted n).stop = next.1.stop + n := Nat.add_right_comm ..
    rw [list.eq_def, read_shifted, List.map_cons, ← ih, ← stop]
    exact (dif_neg more).trans (if_neg valid)

variable {preferDecimal} {text text' : String} {p : Nat} {ts : List Token}

theorem list_of_cut (cut : Cut text.toList.length text.toList text'.toList)
    (inside : p ≤ text.toList.length) (tokens : list preferDecimal p (text.toList.drop p) = ts)
    (valid : ∀ t ∈ ts, t.lexeme.isError = false) : list preferDecimal p (text'.toList.drop p) =
      ts ++ list preferDecimal (ends p ts) (text'.toList.drop (ends p ts)) := by
  induction ts generalizing p with
  | nil => rfl
  | cons t ts ih =>
    obtain ⟨valid, others⟩ := List.forall_mem_cons.mp valid
    obtain ⟨rfl, more, rest⟩ := cons_of_list tokens
    have within := stop_le_length preferDecimal text p inside
    have kept := scan_of_cut cut more within
    rw [valid, if_neg Bool.false_ne_true] at rest
    rw [list_drop, kept, if_neg more, valid, if_neg Bool.false_ne_true, ih within rest.symm others]
    rfl

theorem blank_append {a w b : String} (rest : Blank a p a.toList.length)
    (spaces : ∀ c ∈ w.toList, isSpace c = true) :
    Blank (a ++ w ++ b) p (a.toList.length + w.toList.length) := by
  intro i low high
  rw [String.toList_append, String.toList_append, List.getElem?_append_left (by simpa using high)]
  by_cases first : i < a.toList.length
  · rw [List.getElem?_append_left first]
    exact rest i low first
  · have second : i - a.toList.length < w.toList.length := by omega
    rw [List.getElem?_append_right (Nat.le_of_not_lt first), List.getElem?_eq_getElem second]
    exact ⟨_, rfl, spaces _ (List.getElem_mem second)⟩

theorem cut_append {a w : String} (some : w ≠ "") (spaces : ∀ c ∈ w.toList, isSpace c = true) (b : String) :
    Cut a.toList.length a.toList (a ++ w ++ b).toList := by
  obtain ⟨c, cs, first⟩ := List.exists_cons_of_ne_nil (mt String.toList_eq_nil_iff.mp some)
  rw [first] at spaces
  have cut := Cut.of_take (isBlank_of_isSpace (spaces c List.mem_cons_self)) (cs ++ b.toList)
    (Nat.le_refl a.toList.length)
  rwa [List.take_length, ← List.cons_append, ← first, ← List.append_assoc, ← String.toList_append,
    ← String.toList_append] at cut

/-- Where white space follows a text without errors, the tokens behind it are those of the other text. -/
theorem all_append (preferDecimal : Bool) (a w b : String) (some : w ≠ "")
    (spaces : ∀ c ∈ w.toList, isSpace c = true)
    (valid : ∀ t ∈ all preferDecimal a, t.lexeme.isError = false) :
    all preferDecimal (a ++ w ++ b) =
      all preferDecimal a ++ (all preferDecimal b).map (shifted (a.length + w.length)) := by
  have none : list preferDecimal (ends 0 (all preferDecimal a))
      (a.toList.drop (ends 0 (all preferDecimal a))) = [] :=
    list_behind (List.append_nil _).symm fun _ t last => valid t (List.mem_of_getLast? last)
  have within : ends 0 (all preferDecimal a) ≤ a.toList.length :=
    ends_le_length (Nat.zero_le _) (List.append_nil (list preferDecimal 0 (a.toList.drop 0))).symm
  have rest : Blank a (ends 0 (all preferDecimal a)) a.toList.length :=
    (blank_before preferDecimal a _).mono (Nat.le_refl _) (length_le_of_eof (eof_of_list none))
  have behind : (a ++ w ++ b).toList.drop (a.toList.length + w.toList.length) = b.toList := by
    rw [String.toList_append, String.toList_append, ← List.length_append, List.drop_left]
  calc all preferDecimal (a ++ w ++ b)
      = all preferDecimal a ++ list preferDecimal (ends 0 (all preferDecimal a))
          ((a ++ w ++ b).toList.drop (ends 0 (all preferDecimal a))) :=
        list_of_cut (cut_append some spaces b) (Nat.zero_le _) rfl valid
    _ = all preferDecimal a ++ list preferDecimal (0 + (a.toList.length + w.toList.length)) b.toList := by
        rw [← (blank_append rest spaces).list (by omega), behind, Nat.zero_add]
    _ = all preferDecimal a ++ (all preferDecimal b).map (shifted (a.length + w.length)) := by
        rw [list_shifted, String.length_toList, String.length_toList]
        rfl

theorem all_append_behind_comma :
    all false "1," = [⟨.number (.integer 1), 0, 1⟩, ⟨.symbol .comma, 1, 1⟩] ∧
      all false ("1," ++ " " ++ "2") =
        [⟨.number (.integer 1), 0, 1⟩, ⟨.symbol .comma, 1, 1⟩, ⟨.number (.integer 2), 3, 1⟩] := by
  have left : all false "1," = [⟨.number (.integer 1), 0, 1⟩, ⟨.symbol .comma, 1, 1⟩] := by cbv
  have right : all false "2" = [⟨.number (.integer 2), 0, 1⟩] := by cbv
  have valid : ∀ t ∈ all false "1,", t.lexeme.isError = false := by
    rw [left]
    decide
  refine ⟨left, ?_⟩
  rw [all_append false "1," " " "2" (by simp) (by simp [isSpace]) valid, left, right]
  rfl

end Token

end Reckoner
