import Reckoner.Machine

namespace Reckoner.Run

variable {σ α β : Type}

/-- What comes of an action in a state, and the state that it leaves. -/
def outcome (x : Run σ α) (s : σ) : Except Error α × σ := x.run s

theorem ext {x y : Run σ α} (same : ∀ s, x.outcome s = y.outcome s) : x = y := funext same

@[simp] theorem outcome_pure (a : α) (s : σ) : (pure a : Run σ α).outcome s = (.ok a, s) := rfl

@[simp] theorem outcome_lift (x : Except Error α) (s : σ) :
    (liftM x : Run σ α).outcome s = (x, s) := by
  cases x <;> rfl

theorem outcome_lift_eq_ok {x : Except Error α} {a : α} {s s' : σ} :
    (liftM x : Run σ α).outcome s = (.ok a, s') ↔ x = .ok a ∧ s = s' := by
  rw [outcome_lift, Prod.mk.injEq]

theorem outcome_bind (x : Run σ α) (f : α → Run σ β) (s : σ) :
    (x >>= f).outcome s = match x.outcome s with
      | (.ok a, s') => (f a).outcome s'
      | (.error e, s') => (.error e, s') := by
  show (do let a ← x.run; _ : StateM σ _) s = _
  simp only [outcome, bind, ExceptT.run, StateT.bind]
  rcases x s with ⟨_ | _, _⟩ <;> rfl

theorem outcome_bind_of_ok {x : Run σ α} {a : α} {s s' : σ} (ran : x.outcome s = (.ok a, s'))
    (f : α → Run σ β) : (x >>= f).outcome s = (f a).outcome s' := by
  rw [outcome_bind, ran]

theorem outcome_bind_of_error {x : Run σ α} {e : Error} {s s' : σ}
    (ran : x.outcome s = (.error e, s')) (f : α → Run σ β) :
    (x >>= f).outcome s = (.error e, s') := by
  rw [outcome_bind, ran]

theorem outcome_bind_eq_ok {x : Run σ α} {f : α → Run σ β} {b : β} {s s'' : σ} :
    (x >>= f).outcome s = (.ok b, s'') ↔
      ∃ a s', x.outcome s = (.ok a, s') ∧ (f a).outcome s' = (.ok b, s'') := by
  rw [outcome_bind]
  rcases x.outcome s with ⟨_ | a, s'⟩
  · simp
  · exact ⟨fun ran => ⟨a, s', rfl, ran⟩, fun ⟨_, _, same, ran⟩ => by cases same; exact ran⟩

theorem outcome_bind_lift_eq_ok {x : Except Error α} {f : α → Run σ β} {b : β} {s s' : σ} :
    ((liftM x : Run σ α) >>= f).outcome s = (.ok b, s') ↔
      ∃ a, x = .ok a ∧ (f a).outcome s = (.ok b, s') := by
  cases x with
  | error e => simp [outcome_bind]
  | ok a => simp [outcome_bind]

@[simp] theorem lift_ok (a : α) : (liftM (Except.ok a : Except Error α) : Run σ α) = pure a := rfl

theorem lift_bind (x : Except Error α) (f : α → Except Error β) :
    (liftM (x >>= f) : Run σ β) = (liftM x : Run σ α) >>= fun a => liftM (f a) := by
  cases x <;> rfl

theorem bind_congr {x : Run σ α} {f g : α → Run σ β}
    (same : ∀ s a s', x.outcome s = (.ok a, s') → f a = g a) : x >>= f = x >>= g := by
  apply ext
  intro s
  cases ran : x.outcome s with
  | mk result s' =>
    cases result with
    | error e => rw [outcome_bind_of_error ran, outcome_bind_of_error ran]
    | ok a => rw [outcome_bind_of_ok ran, outcome_bind_of_ok ran, same s a s' ran]

end Reckoner.Run
