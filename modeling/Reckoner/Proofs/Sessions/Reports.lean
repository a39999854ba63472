import Reckoner.Proofs.Sessions.Outcome

namespace Reckoner

/-- An event without its time, and the session in whose file it goes. -/
structure Report where
  level : Level
  type : EventType
  message : String
  context : Context
  errorCode : Option String
  session : Option String

def Report.event (r : Report) (now : String) : Event :=
  ⟨r.level, r.type, r.message, r.context, r.errorCode, now, 1⟩

def Project.reported (p : Project) (r : Report) : Project :=
  ((Project.report r.level r.type r.message r.context r.errorCode r.session).run p).2

namespace Session

variable {α β : Type} {s s' s'' : Session} {reports reports' : List Report}

def Reports (x : Action α) (s : Session) (result : Except Error α) (s' : Session)
    (reports : List Report) : Prop :=
  ∀ project, outcome x s project = ((result, s'), reports.foldl Project.reported project)

namespace Reports

theorem lift (x : Except Error α) (s : Session) : Reports (liftM x) s x s [] :=
  fun project => outcome_lift x s project

theorem pure (a : α) (s : Session) : Reports (pure a) s (.ok a) s [] := lift (.ok a) s

theorem throw (e : Error) (s : Session) : Reports (throw e : Action α) s (.error e) s [] :=
  lift (.error e) s

theorem bind {x : Action α} {f : α → Action β} {a : α} {result : Except Error β}
    (first : Reports x s (.ok a) s' reports) (second : Reports (f a) s' result s'' reports') :
    Reports (x >>= f) s result s'' (reports ++ reports') := by
  intro project
  rw [outcome_bind, first project]
  dsimp only
  rw [second, List.foldl_append]

theorem bind_silent {x : Action α} {f : α → Action β} {a : α} {result : Except Error β}
    (first : Reports x s (.ok a) s' reports) (second : Reports (f a) s' result s'' []) :
    Reports (x >>= f) s result s'' reports := by
  have both := first.bind second
  rwa [List.append_nil] at both

theorem bind_error {x : Action α} {e : Error} (first : Reports x s (.error e) s' reports)
    (f : α → Action β) : Reports (x >>= f) s (.error e) s' reports := by
  intro project
  rw [outcome_bind, first project]

theorem lift_ok {x : Except Error α} {f : α → Action β} {a : α} {result : Except Error β}
    (succeeded : x = .ok a) (next : Reports (f a) s result s' reports) :
    Reports (liftM x >>= f) s result s' reports := by
  subst succeeded
  exact bind (lift _ s) next

theorem lift_error {x : Except Error α} {e : Error} (failed : x = .error e) (s : Session)
    (f : α → Action β) : Reports (liftM x >>= f) s (.error e) s [] :=
  bind_error (failed ▸ lift x s) f

theorem handle_ok {x : Action α} {a : α} (first : Reports x s (.ok a) s' reports)
    (handle : Error → Action α) : Reports (tryCatch x handle) s (.ok a) s' reports := by
  intro project
  rw [outcome_tryCatch, first project]

theorem handle_error {x : Action α} {handle : Error → Action α} {e : Error}
    {result : Except Error α} (first : Reports x s (.error e) s' reports)
    (handled : Reports (handle e) s' result s'' reports') :
    Reports (tryCatch x handle) s result s'' (reports ++ reports') := by
  intro project
  rw [outcome_tryCatch, first project]
  dsimp only
  rw [handled, List.foldl_append]

theorem read {f : Session → Action α} {result : Except Error α}
    (next : Reports (f s) s result s' reports) :
    Reports (getThe Session >>= f) s result s' reports := next

theorem write (s s' : Session) : Reports (set s') s (.ok ()) s' [] := fun _ => rfl

theorem modify (f : Session → Session) (s : Session) :
    Reports (modifyThe Session f) s (.ok ()) (f s) [] := fun _ => rfl

theorem inProject {action : InProject Unit}
    (run : ∀ project, (action.run project).2 = reports.foldl Project.reported project)
    (s : Session) : Reports (Session.inProject action) s (.ok ()) s reports :=
  fun project => congrArg (((.ok (), s) : Except Error Unit × Session), ·) (run project)

theorem report (r : Report) (s : Session) :
    Reports (Session.inProject
      (Project.report r.level r.type r.message r.context r.errorCode r.session)) s (.ok ()) s [r] :=
  fun _ => rfl

end Reports

end Session

end Reckoner
