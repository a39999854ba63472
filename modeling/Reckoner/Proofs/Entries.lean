import Reckoner.Entries

namespace Reckoner.Entries

variable {α : Type} {entries : List (String × α)}

theorem lookup_cons (other name : String) (value : α) (entries : List (String × α)) :
    ((name, value) :: entries).lookup other =
      if other = name then some value else entries.lookup other := by
  by_cases same : other = name
  · simp [same]
  · simp [List.lookup_cons, same, beq_eq_false_iff_ne.mpr same]

theorem lookup_put (name other : String) (value : α) (entries : List (String × α)) :
    (put name value entries).lookup other =
      if other = name then some value else entries.lookup other := by
  induction entries with
  | nil => exact lookup_cons other name value []
  | cons e rest ih =>
    obtain ⟨n, v⟩ := e
    by_cases bound : n = name
    · subst bound
      simp only [put, ↓reduceIte, lookup_cons]
      split <;> rfl
    · simp only [put, if_neg bound, lookup_cons, ih]
      split
      · rename_i same
        rw [if_neg (same ▸ bound)]
      · rfl

theorem put_put (name : String) (value value' : α) (entries : List (String × α)) :
    put name value' (put name value entries) = put name value' entries := by
  induction entries with
  | nil => simp [put]
  | cons e rest ih => by_cases bound : e.1 = name <;> simp [put, bound, ih]

theorem lookup_erase (name other : String) (entries : List (String × α)) :
    (erase name entries).lookup other = if other = name then none else entries.lookup other := by
  induction entries with
  | nil => simp [erase]
  | cons e rest ih =>
    obtain ⟨n, v⟩ := e
    simp only [erase, List.filter_cons] at ih ⊢
    by_cases bound : n = name
    · simp only [bound, ne_eq, not_true_eq_false, decide_false, Bool.false_eq_true, ↓reduceIte, ih,
        lookup_cons]
      split <;> rfl
    · simp only [bound, ne_eq, not_false_eq_true, decide_true, ↓reduceIte, lookup_cons, ih]
      split
      · rename_i same
        rw [if_neg (same ▸ bound)]
      · rfl

theorem mem_of_lookup {name : String} {value : α} (found : entries.lookup name = some value) :
    (name, value) ∈ entries := by
  obtain ⟨before, behind, rfl, -⟩ := List.lookup_eq_some_iff.mp found
  simp

theorem mem_put {name : String} {value : α} {e : String × α} (member : e ∈ put name value entries) :
    e = (name, value) ∨ e ∈ entries := by
  induction entries with
  | nil => exact .inl (List.mem_singleton.mp member)
  | cons d rest ih =>
    unfold put at member
    split at member
    · rcases List.mem_cons.mp member with same | behind
      · exact .inl same
      · exact .inr (List.mem_cons_of_mem _ behind)
    · rcases List.mem_cons.mp member with same | behind
      · exact .inr (same ▸ List.mem_cons_self ..)
      · exact (ih behind).imp_right (List.mem_cons_of_mem _)

theorem mem_update {new : List (String × α)} {e : String × α} (member : e ∈ update entries new) :
    e ∈ entries ∨ e ∈ new := by
  induction new generalizing entries with
  | nil => exact .inl member
  | cons d new ih =>
    rcases ih member with inside | inside
    · rcases mem_put inside with rfl | before
      · exact .inr (List.mem_cons_self ..)
      · exact .inl before
    · exact .inr (List.mem_cons_of_mem _ inside)

theorem put_of_new {name : String} (new : name ∉ entries.map Prod.fst) (value : α) :
    put name value entries = entries ++ [(name, value)] := by
  induction entries with
  | nil => rfl
  | cons e rest ih =>
    simp only [List.map_cons, List.mem_cons, not_or] at new
    rw [put, if_neg (Ne.symm new.1), ih new.2]
    rfl

theorem update_of_nodup {new : List (String × α)}
    (distinct : ((entries ++ new).map Prod.fst).Nodup) : update entries new = entries ++ new := by
  induction new generalizing entries with
  | nil => exact (List.append_nil _).symm
  | cons e new ih =>
    have fresh : e.1 ∉ entries.map Prod.fst := by
      rw [List.map_append, List.nodup_append] at distinct
      intro member
      exact distinct.2.2 e.1 member e.1 List.mem_cons_self rfl
    have moved : entries ++ e :: new = entries ++ [e] ++ new := List.append_cons entries e new
    rw [moved] at distinct ⊢
    rw [update, List.foldl_cons, put_of_new fresh]
    exact ih distinct

theorem lookup_of_perm {other : List (String × α)} (reordered : entries.Perm other)
    (distinct : (entries.map Prod.fst).Nodup) (name : String) :
    entries.lookup name = other.lookup name := by
  induction reordered with
  | nil => rfl
  | cons e _ ih =>
    rw [lookup_cons, lookup_cons, ih (List.nodup_cons.mp distinct).2]
  | swap d e rest =>
    obtain ⟨m, u⟩ := d
    obtain ⟨n, v⟩ := e
    have apart : n ≠ m := by
      rintro rfl
      exact (List.nodup_cons.mp distinct).1 List.mem_cons_self
    simp only [lookup_cons]
    by_cases first : name = m
    · simp [first, apart.symm]
    · simp [first]
  | trans first _ ih ih' =>
    exact (ih distinct).trans (ih' ((first.map Prod.fst).nodup_iff.mp distinct))

theorem lookup_sorted (distinct : (entries.map Prod.fst).Nodup) (name : String) :
    (sorted entries).lookup name = entries.lookup name :=
  (lookup_of_perm (List.mergeSort_perm entries _).symm distinct name).symm

end Reckoner.Entries
