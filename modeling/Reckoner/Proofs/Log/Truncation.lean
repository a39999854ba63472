import Reckoner.Log.Event

namespace Reckoner

namespace Json

/-- A step into data: to the value of an entry or to an item. -/
inductive Step
  | entry (i : Nat)
  | item (i : Nat)

def at? : List Step → Json → Option Json
  | [], j => some j
  | .entry i :: path, object es => es[i]?.bind fun e => at? path e.2
  | .item i :: path, list js => js[i]?.bind (at? path)
  | _, _ => none

/-- Whether a way never leads through a list that is an item of a list. -/
def Step.reaches : List Step → Bool
  | .item _ :: .item _ :: _ => false
  | _ :: path => reaches path
  | [] => true

end Json

namespace Context

open Json

/-- A text that is not too long, or the beginning of one that is, with a mark behind it. -/
inductive Shortened : String → String → Prop
  | short {s : String} (few : s.length ≤ 256) : Shortened s s
  | long {s : String} (many : 256 < s.length) :
      Shortened s (String.ofList (s.toList.take 256) ++ "...[truncated]")

/-- The same kind of data with the same keys or as many items; a text may have been shortened. -/
inductive Kept (shortened : Bool) : Json → Json → Prop
  | null : Kept shortened .null .null
  | bool (b : Bool) : Kept shortened (.bool b) (.bool b)
  | integer (n : Int) : Kept shortened (.integer n) (.integer n)
  | double (x : Float) : Kept shortened (.double x) (.double x)
  | text {s s' : String} (cut : if shortened then Shortened s s' else s' = s) :
      Kept shortened (.text s) (.text s')
  | list {js js' : List Json} (items : js'.length = js.length) : Kept shortened (.list js) (.list js')
  | object {es es' : List (String × Json)} (keys : es'.map Prod.fst = es.map Prod.fst) :
      Kept shortened (.object es) (.object es')

theorem cutText_shortened (s : String) : Shortened s (cutText s) := by
  unfold cutText
  split
  · exact .short ‹_›
  · exact .long (Nat.lt_of_not_le ‹_›)

theorem length_cut (s : String) (many : 256 < s.length) :
    (String.ofList (s.toList.take 256) ++ "...[truncated]").length = 270 := by
  have mark : "...[truncated]".length = 14 := by decide
  rw [String.length_append, mark, String.length_ofList, List.length_take, String.length_toList]
  omega

theorem Shortened.length_le {s s' : String} (shortened : Shortened s s') : s'.length ≤ 270 := by
  cases shortened with
  | short few => omega
  | long many => exact Nat.le_of_eq (length_cut s many)

theorem cutText_cutText (s : String) : cutText (cutText s) = cutText s := by
  unfold cutText maxTextLength
  by_cases few : s.length ≤ 256
  · rw [if_pos few, if_pos few]
  · have many : 256 < s.length := Nat.lt_of_not_le few
    have again : ¬ (String.ofList (s.toList.take 256) ++ "...[truncated]").length ≤ 256 := by
      rw [length_cut s many]
      decide
    have beginning : (s.toList.take 256).length = 256 := by
      rw [List.length_take, String.length_toList]
      omega
    rw [if_neg few, if_neg again, String.toList_append, String.toList_ofList, List.take_append_of_le_length
      (Nat.le_of_eq beginning.symm), List.take_take, Nat.min_self]

def truncateItem : Json → Json
  | .object es => .object (truncate es)
  | .text s => .text (cutText s)
  | j => j

theorem truncate_eq_map (es : List (String × Json)) :
    truncate es = es.map fun e => (e.1, truncateEntry e.2) := by
  induction es with
  | nil => rfl
  | cons e es ih => rw [truncate, ih, List.map_cons]

theorem truncateItems_eq_map (js : List Json) : truncateItems js = js.map truncateItem := by
  induction js with
  | nil => rfl
  | cons j js ih => cases j <;> rw [truncateItems, ih, List.map_cons] <;> first | rfl | nofun

mutual

theorem truncate_truncate (es : List (String × Json)) : truncate (truncate es) = truncate es := by
  match es with
  | [] => rfl
  | (k, j) :: es => rw [truncate, truncate, truncateEntry_truncateEntry j, truncate_truncate es]

theorem truncateEntry_truncateEntry (j : Json) : truncateEntry (truncateEntry j) = truncateEntry j := by
  cases j with
  | list js => rw [truncateEntry, truncateEntry, truncateItems_truncateItems js]
  | object es => rw [truncateEntry, truncateEntry, truncate_truncate es]
  | text s => rw [truncateEntry, truncateEntry, cutText_cutText]
  | _ => rfl

theorem truncateItems_truncateItems (js : List Json) :
    truncateItems (truncateItems js) = truncateItems js := by
  match js with
  | [] => rfl
  | .object es :: js => simp only [truncateItems, truncate_truncate es, truncateItems_truncateItems js]
  | .text s :: js => simp only [truncateItems, cutText_cutText, truncateItems_truncateItems js]
  | .null :: js | .bool _ :: js | .integer _ :: js | .double _ :: js | .list _ :: js =>
    simp only [truncateItems, truncateItems_truncateItems js]

end

theorem Kept.refl (j : Json) : Kept false j j := by
  cases j <;> constructor <;> rfl

theorem keys_truncate (es : List (String × Json)) : (truncate es).map Prod.fst = es.map Prod.fst := by
  rw [truncate_eq_map, List.map_map]
  rfl

theorem truncateEntry_kept (j : Json) : Kept true j (truncateEntry j) := by
  cases j with
  | text s => exact .text (cutText_shortened s)
  | list js => exact .list (by rw [truncateItems_eq_map, List.length_map])
  | object es => exact .object (keys_truncate es)
  | _ => constructor

theorem truncateItem_kept (j : Json) : Kept true j (truncateItem j) := by
  cases j with
  | text s => exact .text (cutText_shortened s)
  | list js => exact .list rfl
  | object es => exact .object (keys_truncate es)
  | _ => constructor

theorem getElem?_truncate (es : List (String × Json)) (n : Nat) :
    (truncate es)[n]? = es[n]?.map fun e => (e.1, truncateEntry e.2) := by
  rw [truncate_eq_map, List.getElem?_map]

theorem getElem?_truncateItems (js : List Json) (n : Nat) :
    (truncateItems js)[n]? = js[n]?.map truncateItem := by
  rw [truncateItems_eq_map, List.getElem?_map]

theorem reaches_entry (n : Nat) (path : List Step) :
    Step.reaches (.entry n :: path) = Step.reaches path := by
  simp only [Step.reaches]

theorem reaches_item_entry (m n : Nat) (path : List Step) :
    Step.reaches (.item m :: .entry n :: path) = Step.reaches path := by
  simp only [Step.reaches]

/-- What stands at a place, if anything, is of the kind that stood there. -/
abbrev KeptAt (path : List Step) (shortened : Bool) (j j' : Json) : Prop :=
  Option.Rel (Kept shortened) (at? path j) (at? path j')

theorem KeptAt.refl (path : List Step) (j : Json) : KeptAt path false j j := by
  unfold KeptAt
  cases at? path j with
  | none => exact .none
  | some found => exact .some (Kept.refl found)

mutual

theorem truncateEntry_keptAt (path : List Step) (j : Json) :
    KeptAt path (Step.reaches path) j (truncateEntry j) := by
  match path with
  | [] => exact .some (truncateEntry_kept j)
  | .entry n :: path =>
    cases j with
    | object es => exact truncate_keptAt n path es
    | _ => exact .none
  | .item n :: path =>
    cases j with
    | list js =>
      simp only [KeptAt, truncateEntry, at?, getElem?_truncateItems]
      cases js[n]? with
      | none => exact .none
      | some j => exact truncateItem_keptAt n path j
    | _ => exact .none

theorem truncate_keptAt (n : Nat) (path : List Step) (es : List (String × Json)) :
    KeptAt (.entry n :: path) (Step.reaches (.entry n :: path)) (.object es) (.object (truncate es)) := by
  simp only [KeptAt, reaches_entry, at?, getElem?_truncate]
  cases es[n]? with
  | none => exact .none
  | some e => exact truncateEntry_keptAt path e.2

theorem truncateItem_keptAt (m : Nat) (path : List Step) (j : Json) :
    KeptAt path (Step.reaches (.item m :: path)) j (truncateItem j) := by
  match path with
  | [] => exact .some (truncateItem_kept j)
  | .entry n :: path =>
    cases j with
    | object es =>
      rw [reaches_item_entry, ← reaches_entry n]
      exact truncate_keptAt n path es
    | _ => exact .none
  | .item n :: path =>
    -- no text lies this way but in a list among the items of a list
    cases j with
    | list js => exact KeptAt.refl _ _
    | _ => exact .none

end

theorem object_keptAt (path : List Step) (c : Context) :
    KeptAt path (Step.reaches path) (.object c) (.object (truncate c)) :=
  truncateEntry_keptAt path (.object c)

theorem length_text_at {path : List Step} {j j' : Json} {s : String} (kept : KeptAt path true j j')
    (found : at? path j' = some (.text s)) : s.length ≤ 270 := by
  unfold KeptAt at kept
  rw [found] at kept
  generalize at? path j = old at kept
  cases kept with
  | some kept =>
    cases kept with
    | text cut => exact Shortened.length_le cut

/-- At every place there is the data that was there, with the same keys and items, and every text is cut
    that is not in a list among the items of a list. Cutting again changes nothing. -/
theorem truncate_cuts_reached (c : Context) :
    (∀ path, KeptAt path (Step.reaches path) (.object c) (.object (truncate c))) ∧
    (∀ path s, Step.reaches path = true → at? path (.object (truncate c)) = some (.text s) →
      s.length ≤ 270) ∧
    truncate (truncate c) = truncate c := by
  refine ⟨fun path => object_keptAt path c, ?_, truncate_truncate c⟩
  intro path s reached found
  have kept := object_keptAt path c
  rw [reached] at kept
  exact length_text_at kept found

/-- A list among the items of a list keeps its long texts. -/
theorem inner_list_keeps_text :
    (String.ofList (List.replicate 271 'x')).length = 271 ∧
    truncate [("a", .list [.list [.text (String.ofList (List.replicate 271 'x'))]])] =
      [("a", .list [.list [.text (String.ofList (List.replicate 271 'x'))]])] := by
  constructor
  · rw [String.length_ofList, List.length_replicate]
  · rfl

end Context

end Reckoner
