namespace Reckoner

variable {ε δ α β : Type}

theorem bind_eq_ok {x : Except ε α} {f : α → Except ε β} {b : β} :
    x >>= f = .ok b ↔ ∃ a, x = .ok a ∧ f a = .ok b := by
  cases x <;> simp [bind, Except.bind]

theorem bind_of_error {x : Except ε α} {f : α → Except ε β} {e : ε} (failed : x = .error e) :
    x >>= f = .error e := by
  rw [failed]
  rfl

theorem eq_ok_of_toOption {x : Except ε α} {a : α} (found : x.toOption = some a) : x = .ok a := by
  cases x <;> cases found
  rfl

def Ends (good : α → Prop) (bad : ε → Prop) : Except ε α → Prop
  | .ok a => good a
  | .error e => bad e

namespace Ends

variable {good : α → Prop} {fine : β → Prop} {bad : ε → Prop} {worse : δ → Prop}

theorem of_ok {x : Except ε α} {a : α} (ends : Ends good bad x) (ran : x = .ok a) : good a := by
  subst ran
  exact ends

theorem of_error {x : Except ε α} {e : ε} (ends : Ends good bad x) (failed : x = .error e) :
    bad e := by
  subst failed
  exact ends

theorem bind {x : Except ε α} {f : α → Except ε β} (first : Ends good bad x)
    (second : ∀ a, good a → Ends fine bad (f a)) : Ends fine bad (x >>= f) := by
  cases x with
  | ok a => exact second a first
  | error e => exact first

theorem map {x : Except ε α} {f : α → β} (first : Ends good bad x)
    (mapped : ∀ a, good a → fine (f a)) : Ends fine bad (x.map f) := by
  cases x with
  | ok a => exact mapped a first
  | error e => exact first

theorem mapError {x : Except ε α} {f : ε → δ} (first : Ends good bad x)
    (mapped : ∀ e, bad e → worse (f e)) : Ends good worse (x.mapError f) := by
  cases x with
  | ok a => exact first
  | error e => exact mapped e first

theorem mono {x : Except ε α} {better : α → Prop} (ends : Ends good bad x)
    (weaker : ∀ a, good a → better a) : Ends better bad x := by
  cases x with
  | ok a => exact weaker a ends
  | error e => exact ends

theorem weaken {x : Except ε α} {more : ε → Prop} (ends : Ends good bad x)
    (weaker : ∀ e, bad e → more e) : Ends good more x := by
  cases x with
  | ok a => exact ends
  | error e => exact weaker e ends

theorem ite {condition : Prop} [Decidable condition] {x y : Except ε α}
    (positive : condition → Ends good bad x) (negative : ¬ condition → Ends good bad y) :
    Ends good bad (if condition then x else y) := by
  split
  · exact positive ‹_›
  · exact negative ‹_›

theorem always (x : Except ε α) : Ends (fun _ => True) (fun _ => True) x := by
  cases x <;> trivial

theorem after {x : Except ε α} {f : α → Except ε β} (second : ∀ a, Ends fine (fun _ => True) (f a)) :
    Ends fine (fun _ => True) (x >>= f) := by
  apply (always x).bind
  intro a _
  exact second a

end Ends

end Reckoner
