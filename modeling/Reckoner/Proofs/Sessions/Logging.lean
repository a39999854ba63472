import Reckoner.Proofs.Sessions.Presets

namespace Reckoner.Session

variable {α β : Type}

def Reporting (x : Action α) : Prop :=
  ∀ s, ∃ result s' reports, Reports x s result s' reports

namespace Reporting

theorem lift (x : Except Error α) : Reporting (liftM x) := fun s => ⟨x, s, [], .lift x s⟩

theorem pure (a : α) : Reporting (pure a) := fun s => ⟨.ok a, s, [], .pure a s⟩

theorem throw (e : Error) : Reporting (throw e : Action α) := fun s => ⟨.error e, s, [], .throw e s⟩

theorem bind {x : Action α} {f : α → Action β} (first : Reporting x) (next : ∀ a, Reporting (f a)) :
    Reporting (x >>= f) := by
  intro s
  obtain ⟨result, s', reports, ran⟩ := first s
  cases result with
  | error e => exact ⟨.error e, s', reports, ran.bind_error f⟩
  | ok a =>
    obtain ⟨result', s'', reports', ran'⟩ := next a s'
    exact ⟨result', s'', reports ++ reports', ran.bind ran'⟩

theorem map {x : Action α} (f : α → β) (ran : Reporting x) : Reporting (f <$> x) := by
  rw [map_eq_pure_bind]
  exact ran.bind fun a => pure (f a)

theorem discard {x : Action α} (ran : Reporting x) : Reporting (Functor.discard x) := by
  have same : Functor.discard x = x >>= fun _ => Pure.pure () := map_eq_pure_bind _ x
  rw [same]
  exact ran.bind fun _ => pure ()

theorem forM {f : α → Action Unit} (each : ∀ a, Reporting (f a)) (items : List α) :
    Reporting (items.forM f) := by
  induction items with
  | nil => exact pure ()
  | cons a items ih => exact (each a).bind fun _ => ih

end Reporting

theorem inEnvironment_reporting (action : Run Environment α) : Reporting (inEnvironment action) :=
  fun s => ⟨_, _, _, inEnvironment_reports action s⟩

theorem run_reporting (text : String) : Reporting (run text) :=
  fun s => ⟨_, _, _, run_reports text s⟩

theorem assign_reporting (name text : String) : Reporting (assign name text) := by
  have compiled : Reporting (compile text) := fun s => ⟨_, _, _, compile_reports text s⟩
  apply compiled.bind
  intro f
  apply (Reporting.lift f.check).bind
  intro _
  apply (inEnvironment_reporting (f.evaluate Environment.host)).bind
  intro v
  exact (inEnvironment_reporting (Environment.host.set name (.ofValue v))).bind fun _ => .pure v

theorem start_reporting : Reporting start := by
  intro s
  obtain ⟨reports, ran⟩ := start_reports s
  exact ⟨.ok (), s, reports, ran⟩

theorem startPresets_reporting (config : Config) : Reporting (startPresets config) := by
  apply start_reporting.bind
  intro _
  split
  · refine Reporting.forM (fun preset => ?_) _
    obtain ⟨name, v⟩ := preset
    exact (assign_reporting name v.display).discard
  · split
    · exact .throw .badKind
    · exact .pure ()

/-- What is done in a session: a text is run, or a variable is assigned the value of a text. -/
inductive Operation
  | run (text : String)
  | assign (name text : String)

def Operation.action : Operation → Action (Entry ⊕ Value)
  | run text => Sum.inl <$> Session.run text
  | assign name text => Sum.inr <$> Session.assign name text

theorem Operation.action_reporting (op : Operation) : Reporting op.action := by
  cases op with
  | run text => exact (run_reporting text).map _
  | assign name text => exact (assign_reporting name text).map _

/-- What an operation came to, and the session after it. -/
structure Step where
  result : Except Error (Entry ⊕ Value)
  after : Session

def steps : List Operation → Session → InProject (List Step)
  | [], _ => return []
  | op :: ops, s => do
    let (result, s') ← s.perform op.action
    return ⟨result, s'⟩ :: (← steps ops s')

/-- How a session begins: in a given environment, or as a configuration asks for. -/
inductive Construction
  | given (environment : Environment) (preferDecimal : Bool) (outputBase historySize : Int)
  | configured (config : Config)

namespace Construction

def session (id : String) : Construction → Except Error Session
  | given environment preferDecimal outputBase historySize =>
    .ok (create environment preferDecimal outputBase historySize id)
  | configured config => Session.configured config id

def opening : Construction → Action Unit
  | given .. => start
  | configured config => startPresets config

/-- A session from its construction on: the session that is constructed and the steps in it, or the error
    that keeps it from being constructed. -/
def live (c : Construction) (id : String) (ops : List Operation) :
    InProject (Except Error (Session × List Step)) := do
  match c.session id with
  | .error e => return .error e
  | .ok s =>
    match ← s.perform c.opening with
    | (.error e, _) => return .error e
    | (.ok (), s) => return .ok (s, ← steps ops s)

theorem opening_reporting (c : Construction) : Reporting c.opening := by
  cases c with
  | given => exact start_reporting
  | configured config => exact startPresets_reporting config

end Construction

theorem Reporting.same {x : Action α} (ran : Reporting x) (s : Session) (project project' : Project) :
    ∃ result s' left left', (s.perform x).run project = ((result, s'), left) ∧
      (s.perform x).run project' = ((result, s'), left') := by
  obtain ⟨result, s', reports, ran⟩ := ran s
  exact ⟨result, s', _, _, ran project, ran project'⟩

theorem steps_same (ops : List Operation) (s : Session) (project project' : Project) :
    ((steps ops s).run project).1 = ((steps ops s).run project').1 := by
  induction ops generalizing s project project' with
  | nil => rfl
  | cons op ops ih =>
    obtain ⟨result, s', left, left', ran, ran'⟩ := op.action_reporting.same s project project'
    rw [steps, StateT.run_bind, StateT.run_bind, ran, ran']
    exact congrArg (⟨result, s'⟩ :: ·) (ih s' left left')

/-- In any two projects, with a log or without, and whatever comes of the appends to it, a session and
    every operation in it come to the same: what is returned or the error, the history and the variables
    after it, and all else that the session holds. -/
theorem live_ignores_log (c : Construction) (id : String) (ops : List Operation)
    (project project' : Project) :
    ((c.live id ops).run project).1 = ((c.live id ops).run project').1 := by
  unfold Construction.live
  cases c.session id with
  | error e => rfl
  | ok s =>
    obtain ⟨result, s', left, left', ran, ran'⟩ := c.opening_reporting.same s project project'
    rw [StateT.run_bind, StateT.run_bind, ran, ran']
    cases result with
    | error e => rfl
    | ok u => exact congrArg (fun made => Except.ok (s', made)) (steps_same ops s' left left')

end Reckoner.Session
