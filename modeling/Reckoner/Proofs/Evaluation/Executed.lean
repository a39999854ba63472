import Reckoner.Proofs.Evaluation.Writes

namespace Reckoner

abbrev Notice := String × HostValue

/-- What listeners are told of an access. -/
def Access.notice? : Access → Option Notice
  | .set name value => some (name, value)
  | .delete name => some (name, .none)
  | _ => none

/-- The listener that was told, and what. -/
def Occurrence.notice? : Occurrence → Option (String × Notice)
  | .notified listener name value => some (listener, name, value)
  | .called .. => none

namespace Machine

variable {σ : Type}

def executed (host : Host σ) (preferDecimal : Bool) :
    List Instruction → Stack → σ → List (Instruction × Stack)
  | [], _, _ => []
  | i :: code, stack, s =>
    match (step host preferDecimal i stack).outcome s with
    | (.ok stack', s') => (i, stack) :: executed host preferDecimal code stack' s'
    | (.error _, _) => []

variable {host : Host σ} {preferDecimal : Bool} {code : List Instruction} {stack found : Stack} {s : σ}

theorem step_of_executed {i : Instruction} (member : (i, found) ∈ executed host preferDecimal code stack s) :
    ∃ s' stack' s'', (step host preferDecimal i found).outcome s' = (.ok stack', s'') := by
  induction code generalizing stack s with
  | nil => cases member
  | cons j code ih =>
    unfold executed at member
    split at member
    · rename_i stack' s' ran
      rcases List.mem_cons.mp member with same | behind
      · cases same
        exact ⟨s, stack', s', ran⟩
      · exact ih behind
    · cases member

theorem items_of_executed_store {name : String}
    (member : (.store name, found) ∈ executed host preferDecimal code stack s) :
    ∃ v items, found.items = v :: items := by
  obtain ⟨s', stack', s'', ran⟩ := step_of_executed member
  rcases found with ⟨capacity, _ | ⟨v, items⟩⟩
  · cases congrArg Prod.fst ran
  · exact ⟨v, items, rfl⟩

def change? : Instruction × Stack → Option Access
  | (.store name, stack) => stack.items.head?.map fun v => .set name (.ofValue v)
  | (.delete name, _) => some (.delete name)
  | _ => none

end Machine

namespace Environment

/-- What a listener was told in a journal. -/
def told (listener : String) (journal : List Occurrence) : List Notice :=
  (journal.filterMap Occurrence.notice?).filterMap fun t => if t.1 = listener then some t.2 else none

theorem told_append (listener : String) (journal occurred : List Occurrence) :
    told listener (journal ++ occurred) = told listener journal ++ told listener occurred := by
  simp only [told, List.filterMap_append]

theorem told_notified (listener recipient name : String) (value : HostValue) :
    told listener [.notified recipient name value] =
      if recipient = listener then [(name, value)] else [] := by
  by_cases own : recipient = listener <;> simp [told, Occurrence.notice?, own]

variable {env env' env'' : Environment} {changes changes' : List Access}

/-- The environment that changes of variables make of another, where every listener is told of each of
    them. -/
structure Changed (changes : List Access) (env env' : Environment) : Prop where
  bindings : env'.bindings = changes.foldl Access.write env.bindings
  library : env'.library = env.library
  listeners : env'.listeners = env.listeners
  journal : ∃ occurred, env'.journal = env.journal ++ occurred ∧
    occurred.filterMap Occurrence.notice? =
      (changes.filterMap Access.notice?).flatMap fun n => env.listeners.map (·, n)

namespace Changed

theorem refl (env : Environment) : Changed [] env env :=
  ⟨rfl, rfl, rfl, [], (List.append_nil _).symm, rfl⟩

theorem trans (first : Changed changes env env') (second : Changed changes' env' env'') :
    Changed (changes ++ changes') env env'' := by
  obtain ⟨bindings, library, listeners, occurred, journal, told⟩ := first
  obtain ⟨bindings', library', listeners', occurred', journal', told'⟩ := second
  refine ⟨?_, library'.trans library, listeners'.trans listeners, occurred ++ occurred', ?_, ?_⟩
  · rw [bindings', bindings, List.foldl_append]
  · rw [journal', journal, List.append_assoc]
  · rw [List.filterMap_append, told, told', listeners, List.filterMap_append, List.flatMap_append]

theorem set (env : Environment) (name : String) (value : HostValue) :
    Changed [.set name value] env (env.set name value) := by
  refine ⟨rfl, rfl, rfl, _, rfl, ?_⟩
  simp [Access.notice?, Occurrence.notice?, List.filterMap_map, Function.comp_def]

theorem delete (env : Environment) (name : String) :
    Changed [.delete name] env (env.delete name) := by
  refine ⟨rfl, rfl, rfl, _, rfl, ?_⟩
  simp [Access.notice?, Occurrence.notice?, List.filterMap_map, Function.comp_def]

theorem invoke (env : Environment) (name : String) (args : List HostValue) :
    Changed [] env ((host.invoke name args).outcome env).2 := by
  rw [outcome_invoke]
  rcases env.member? name with _ | v | f
  · exact refl env
  · exact refl env
  · dsimp only
    rw [outcome_call]
    rcases f.accept args with e | _
    · exact refl env
    · dsimp only
      unfold record
      split
      · exact ⟨rfl, rfl, rfl, _, rfl, rfl⟩
      · exact refl env

theorem told {changes : List Access} {env env' : Environment} (changed : Changed changes env env')
    (listener : String) :
    Environment.told listener env'.journal = Environment.told listener env.journal ++
      (changes.filterMap Access.notice?).flatMap (List.replicate (env.listeners.count listener)) := by
  obtain ⟨-, -, -, occurred, journal, notices⟩ := changed
  rw [journal, told_append, Environment.told, Environment.told, notices, List.filterMap_flatMap]
  congr 2
  funext n
  rw [List.filterMap_map]
  -- a listener that is registered several times is told as often
  induction env.listeners with
  | nil => rfl
  | cons other listeners ih =>
    rw [List.filterMap_cons, ih]
    by_cases same : other = listener
    · subst same
      rw [List.count_cons_self, List.replicate_succ, Function.comp_apply, if_pos rfl]
    · rw [List.count_cons_of_ne same, Function.comp_apply, if_neg same]

end Changed

end Environment

def Run.Silent {α : Type} (x : Run Environment α) : Prop :=
  ∀ env, Environment.Changed [] env (x.outcome env).2

namespace Run.Silent

variable {α β : Type}

theorem lift (x : Except Error α) : (liftM x : Run Environment α).Silent := by
  intro env
  rw [outcome_lift]
  exact .refl env

theorem bind {x : Run Environment α} {f : α → Run Environment β} (first : x.Silent)
    (second : ∀ a, (f a).Silent) : (x >>= f).Silent := by
  intro env
  have effect := first env
  rw [outcome_bind]
  revert effect
  rcases x.outcome env with ⟨_ | a, env'⟩ <;> intro effect
  · exact effect
  · exact effect.trans (second a env')

end Run.Silent

namespace Machine

open Environment

variable (preferDecimal : Bool)

theorem step_silent {i : Instruction} (keeps : ∀ stack, change? (i, stack) = none) (stack : Stack) :
    (step host preferDecimal i stack).Silent := by
  cases i with
  | pushConstant v => exact .lift _
  | pushVariable name =>
    have got : (host.get name).Silent := fun env => .refl env
    exact got.bind fun _ => (Run.Silent.lift _).bind fun _ => .lift _
  | store name => cases keeps ⟨0, [.empty]⟩
  | delete name => cases keeps stack
  | call name count =>
    have invoked (args : List HostValue) : (host.invoke name args).Silent :=
      fun env => .invoke env name args
    exact (Run.Silent.lift _).bind fun _ => (invoked _).bind fun _ =>
      (Run.Silent.lift _).bind fun _ => .lift _
  | unary op => exact (Run.Silent.lift _).bind fun _ => (Run.Silent.lift _).bind fun _ => .lift _
  | binary op => exact .lift _
  | word op => exact .lift _
  | unknown text => exact .lift (.error _)

/-- An instruction that succeeds makes its change, and one that fails makes none. -/
theorem step_changed (i : Instruction) (stack : Stack) (env : Environment) :
    Changed (match ((step host preferDecimal i stack).outcome env).1 with
      | .ok _ => (change? (i, stack)).toList
      | .error _ => []) env ((step host preferDecimal i stack).outcome env).2 := by
  by_cases keeps : ∀ stack, change? (i, stack) = none
  · have silent := step_silent preferDecimal keeps stack env
    rw [keeps stack]
    split <;> exact silent
  · cases i with
    | store name =>
      rcases stack with ⟨capacity, _ | ⟨v, items⟩⟩
      · exact .refl env
      · exact .set env name (.ofValue v)
    | delete name => exact .delete env name
    | _ => exact absurd (fun _ => rfl) keeps

/-- The changes that a program makes in an environment. -/
def changes (code : List Instruction) (stack : Stack) (env : Environment) : List Access :=
  (executed host preferDecimal code stack env).filterMap change?

theorem exec_changed (code : List Instruction) (stack : Stack) (env : Environment) :
    Changed (changes preferDecimal code stack env) env
      ((exec host preferDecimal code stack).outcome env).2 := by
  unfold changes
  induction code generalizing stack env with
  | nil => exact .refl env
  | cons i code ih =>
    have first := step_changed preferDecimal i stack env
    rw [exec, Run.outcome_bind, executed]
    revert first
    rcases (step host preferDecimal i stack).outcome env with ⟨_ | stack', env'⟩ <;> intro first
    · exact first
    · have both := first.trans (ih stack' env')
      rw [List.filterMap_cons]
      revert both
      cases change? (i, stack) <;> exact id

end Machine

/-- The changes that the evaluation of a formula makes in an environment: none if it has not compiled. -/
def Formula.changes (f : Formula) (env : Environment) : List Access :=
  match f.outcome with
  | .ok p => Machine.changes f.preferDecimal p.code (.empty p.depth) env
  | .error _ => []

theorem Formula.evaluate_changed (f : Formula) (env : Environment) :
    Environment.Changed (f.changes env) env ((f.evaluate Environment.host).outcome env).2 := by
  unfold Formula.changes Formula.evaluate Formula.program
  cases f.outcome with
  | error fault => exact .refl env
  | ok p =>
    have executed := Machine.exec_changed f.preferDecimal p.code (.empty p.depth) env
    show Environment.Changed _ env ((Machine.run Environment.host f.preferDecimal p).outcome env).2
    unfold Machine.run
    rw [Run.outcome_bind]
    revert executed
    rcases (Machine.exec Environment.host f.preferDecimal p.code _).outcome env with
      ⟨_ | stack, env'⟩ <;> intro executed
    · exact executed
    · dsimp only
      rw [Run.outcome_lift]
      exact executed

end Reckoner
