import Reckoner.Session

namespace Reckoner.Session

variable {α β : Type}

/-- What comes of an action of a session, the session after it, and where it has run. -/
def outcome (x : Action α) (s : Session) (project : Project) :
    (Except Error α × Session) × Project :=
  (s.perform x).run project

theorem outcome_bind (x : Action α) (f : α → Action β) (s : Session) (project : Project) :
    outcome (x >>= f) s project = match outcome x s project with
      | ((.ok a, s'), project') => outcome (f a) s' project'
      | ((.error e, s'), project') => ((.error e, s'), project') := by
  show StateT.run (StateT.run (ExceptT.run (x >>= f)) s) project = _
  simp only [outcome, perform, bind, ExceptT.bind, ExceptT.run, ExceptT.mk, StateT.bind, StateT.run]
  rcases x s project with ⟨⟨_ | _, _⟩, _⟩ <;> rfl

theorem outcome_tryCatch (x : Action α) (handle : Error → Action α) (s : Session)
    (project : Project) :
    outcome (tryCatch x handle) s project = match outcome x s project with
      | ((.ok a, s'), project') => ((.ok a, s'), project')
      | ((.error e, s'), project') => outcome (handle e) s' project' := by
  show StateT.run (StateT.run (ExceptT.run (tryCatch x handle)) s) project = _
  simp only [outcome, perform, tryCatch, tryCatchThe, MonadExceptOf.tryCatch, ExceptT.tryCatch,
    ExceptT.run, ExceptT.mk, bind, StateT.bind, StateT.run]
  rcases x s project with ⟨⟨_ | _, _⟩, _⟩ <;> rfl

theorem outcome_lift (x : Except Error α) (s : Session) (project : Project) :
    outcome (liftM x) s project = ((x, s), project) := by
  cases x <;> rfl

end Reckoner.Session
