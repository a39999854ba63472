import Reckoner.Proofs.Evaluation.Outcome

namespace Reckoner

variable {ε σ τ α β γ δ : Type}

/-- Two computations come to related results or to the same error. -/
def Agree (results : α → β → Prop) : Except ε α → Except ε β → Prop
  | .ok a, .ok b => results a b
  | .error e, .error e' => e = e'
  | _, _ => False

namespace Agree

variable {results : α → β → Prop} {further : γ → δ → Prop}

theorem of_eq {x : Except ε α} {results : α → α → Prop} (reflexive : ∀ a, results a a) :
    Agree results x x := by
  cases x with
  | ok a => exact reflexive a
  | error e => rfl

theorem eq {x y : Except ε α} (agree : Agree Eq x y) : x = y := by
  cases x <;> cases y <;> cases agree <;> rfl

theorem bind {x : Except ε α} {y : Except ε β} {f : α → Except ε γ} {g : β → Except ε δ}
    (first : Agree results x y) (second : ∀ a b, results a b → Agree further (f a) (g b)) :
    Agree further (x >>= f) (y >>= g) := by
  cases x <;> cases y
  · exact first
  · cases first
  · cases first
  · exact second _ _ first

end Agree

def Run.AgreesAt (results : α → β → Prop) (x : Run σ α) (y : Run σ β) (s : σ) : Prop :=
  Agree results (x.outcome s).1 (y.outcome s).1 ∧ (x.outcome s).2 = (y.outcome s).2

theorem Run.AgreesAt.after {results : β → γ → Prop} {x : Run σ α} {f : α → Run σ β} {g : α → Run σ γ}
    {s : σ} (second : ∀ a s', x.outcome s = (.ok a, s') → (f a).AgreesAt results (g a) s') :
    (x >>= f).AgreesAt results (x >>= g) s := by
  unfold AgreesAt
  rw [outcome_bind, outcome_bind]
  cases ran : x.outcome s with
  | mk result s' =>
    cases result with
    | error e => exact ⟨rfl, rfl⟩
    | ok a => exact second a s' ran

def Run.Agrees (states : σ → τ → Prop) (results : α → β → Prop) (x : Run σ α) (y : Run τ β) : Prop :=
  ∀ s t, states s t →
    Agree results (x.outcome s).1 (y.outcome t).1 ∧ states (x.outcome s).2 (y.outcome t).2

theorem Run.Agrees.atState {results : α → β → Prop} {x : Run σ α} {y : Run σ β}
    (agrees : x.Agrees Eq results y) (s : σ) : x.AgreesAt results y s := agrees s s rfl

namespace Run.Agrees

variable {states : σ → τ → Prop} {results : α → β → Prop} {further : γ → δ → Prop}

theorem lift {x : Except Error α} {y : Except Error β} (agree : Agree results x y) :
    Agrees states results (liftM x) (liftM y) := by
  intro s t related
  rw [outcome_lift, outcome_lift]
  exact ⟨agree, related⟩

theorem of_eq {x : Run σ α} {results : α → α → Prop} (reflexive : ∀ a, results a a) :
    Agrees Eq results x x := by
  rintro s _ rfl
  exact ⟨.of_eq reflexive, rfl⟩

theorem pure {a : α} {b : β} (related : results a b) :
    Agrees states results (pure a) (pure b) :=
  lift (x := .ok a) (y := .ok b) related

theorem bind {x : Run σ α} {y : Run τ β} {f : α → Run σ γ} {g : β → Run τ δ}
    (first : Agrees states results x y)
    (second : ∀ a b, results a b → Agrees states further (f a) (g b)) :
    Agrees states further (x >>= f) (y >>= g) := by
  intro s t related
  have both := first s t related
  rw [outcome_bind, outcome_bind]
  revert both
  rcases x.outcome s with ⟨_ | a, s'⟩ <;> rcases y.outcome t with ⟨_ | b, t'⟩ <;>
    rintro ⟨agree, left⟩
  · exact ⟨agree, left⟩
  · cases agree
  · cases agree
  · exact second a b agree s' t' left

end Run.Agrees

end Reckoner
