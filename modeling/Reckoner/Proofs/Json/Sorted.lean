import Reckoner.Proofs.Json.RoundTrip

namespace Reckoner.Json

mutual

/-- The same data, but for the order of the entries of objects. -/
inductive Same : Json → Json → Prop
  | refl (j : Json) : Same j j
  | list {js js' : List Json} (items : SameItems js js') : Same (list js) (list js')
  | object {es es' reordered : List (String × Json)} (entries : SameEntries es es')
      (order : es'.Perm reordered) : Same (object es) (object reordered)

inductive SameItems : List Json → List Json → Prop
  | nil : SameItems [] []
  | cons {j j' : Json} {js js' : List Json} (first : Same j j') (others : SameItems js js') :
      SameItems (j :: js) (j' :: js')

inductive SameEntries : List (String × Json) → List (String × Json) → Prop
  | nil : SameEntries [] []
  | cons (key : String) {j j' : Json} {es es' : List (String × Json)} (first : Same j j')
      (others : SameEntries es es') : SameEntries ((key, j) :: es) ((key, j') :: es')

end

mutual

theorem same_sorted (j : Json) : Same j j.sorted := by
  cases j with
  | list js => exact .list (same_sortedItems js)
  | object es => exact .object (same_sortedEntries es) (List.mergeSort_perm _ _).symm
  | _ => exact .refl _

theorem same_sortedItems (js : List Json) : SameItems js (sortedItems js) := by
  match js with
  | [] => exact .nil
  | j :: js => exact .cons (same_sorted j) (same_sortedItems js)

theorem same_sortedEntries (es : List (String × Json)) : SameEntries es (sortedEntries es) := by
  match es with
  | [] => exact .nil
  | (key, j) :: es => exact .cons key (same_sorted j) (same_sortedEntries es)

end

theorem keys_sortedEntries (es : List (String × Json)) :
    (sortedEntries es).map Prod.fst = es.map Prod.fst := by
  induction es with
  | nil => rfl
  | cons e es ih => exact congrArg (e.1 :: ·) ih

theorem keyedEntries_iff {es : List (String × Json)} :
    keyedEntries es = true ↔ ∀ e ∈ es, e.2.keyed = true := by
  induction es with
  | nil => simp [keyedEntries]
  | cons e es ih => rw [keyedEntries, Bool.and_eq_true, ih, List.forall_mem_cons]

theorem keyed_object {es : List (String × Json)} :
    (object es).keyed = true ↔ (es.map Prod.fst).Nodup ∧ keyedEntries es = true := by
  rw [keyed, Bool.and_eq_true, decide_eq_true_iff]

mutual

theorem keyed_sorted {j : Json} (isKeyed : j.keyed = true) : j.sorted.keyed = true := by
  cases j with
  | list js => exact keyed_sortedItems isKeyed
  | object es =>
    obtain ⟨distinct, inside⟩ := keyed_object.mp isKeyed
    have order : (Entries.sorted (sortedEntries es)).Perm (sortedEntries es) := List.mergeSort_perm _ _
    refine keyed_object.mpr ⟨?_, ?_⟩
    · rw [(order.map Prod.fst).nodup_iff, keys_sortedEntries]
      exact distinct
    · refine keyedEntries_iff.mpr fun e member => ?_
      exact keyedEntries_iff.mp (keyed_sortedEntries inside) e (order.mem_iff.mp member)
  | _ => exact isKeyed

theorem keyed_sortedItems {js : List Json} (isKeyed : keyedItems js = true) :
    keyedItems (sortedItems js) = true := by
  match js with
  | [] => rfl
  | j :: js =>
    obtain ⟨first, others⟩ := Bool.and_eq_true_iff.mp isKeyed
    exact Bool.and_eq_true_iff.mpr ⟨keyed_sorted first, keyed_sortedItems others⟩

theorem keyed_sortedEntries {es : List (String × Json)} (isKeyed : keyedEntries es = true) :
    keyedEntries (sortedEntries es) = true := by
  match es with
  | [] => rfl
  | (key, j) :: es =>
    obtain ⟨first, others⟩ := Bool.and_eq_true_iff.mp isKeyed
    exact Bool.and_eq_true_iff.mpr ⟨keyed_sorted first, keyed_sortedEntries others⟩

end

theorem lookup_sortedEntries (key : String) (es : List (String × Json)) :
    (sortedEntries es).lookup key = (es.lookup key).map sorted := by
  induction es with
  | nil => rfl
  | cons e es ih =>
    obtain ⟨k, j⟩ := e
    rw [sortedEntries, Entries.lookup_cons, Entries.lookup_cons, ih]
    split <;> rfl

theorem get?_sorted {es : List (String × Json)} (distinct : (es.map Prod.fst).Nodup) (key : String) :
    (object es).sorted.get? key = (es.lookup key).map sorted := by
  rw [← lookup_sortedEntries]
  exact Entries.lookup_sorted ((keys_sortedEntries es).symm ▸ distinct) key

theorem text?_sorted (j : Json) : j.sorted.text? = j.text? := by
  cases j <;> rfl

end Reckoner.Json
