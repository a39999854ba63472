import Reckoner.Proofs.Evaluation.Executed
import Reckoner.Proofs.Sessions.Reports

namespace Reckoner

def Formula.report (f : Formula) : Report :=
  match f.outcome with
  | .ok p =>
    ⟨.info, .formulaCompiled, "Formula compiled",
      [("formula", .text f.source), ("max_stack", .integer p.depth)], none, none⟩
  | .error e =>
    ⟨.warning, .formulaCompileFailed, e.fault.message,
      [("formula", .text f.source), ("position", .integer e.position), ("length", .integer e.length)],
      some (Error.parse e).code, none⟩

def Formula.assign {σ : Type} (f : Formula) (host : Host σ) (name : String) : Run σ Value := do
  let v ← f.evaluate host
  host.set name (.ofValue v)
  return v

namespace Session

variable {α : Type} {s : Session}

def Comes (x : Action α) (s : Session) (result : Except Error α) (s' : Session) : Prop :=
  ∀ project, ∃ project', outcome x s project = ((result, s'), project')

theorem format_succeeds (supported : s.outputBase ∈ Value.supportedBases) (v : Value) :
    ∃ formatted, s.format v = .ok formatted := by
  cases v with
  | empty | decimal | double => exact ⟨_, rfl⟩
  | integer n =>
    simp only [format, Value.format, Value.tag, if_true, if_neg (not_not_intro supported)]
    exact ⟨_, rfl⟩

def settled (s : Session) (environment : Environment) : Session :=
  { s with environment := { environment with journal := [] } }

def changeReport (id : String) (n : Notice) : Report :=
  ⟨.info, .variableAssigned,
    "Variable " ++ n.1 ++ " " ++ (if n.2.isNone then "deleted" else "assigned"),
    [("name", .text n.1), ("value", .text n.2.display), ("session_id", .text id)], none, some id⟩

def changeReports (id : String) (notices : List Notice) : List Report :=
  (notices.filter fun n => n.1 ≠ answerVariable).map (changeReport id)

theorem changeReports_append (id : String) (notices later : List Notice) :
    changeReports id (notices ++ later) = changeReports id notices ++ changeReports id later := by
  rw [changeReports, List.filter_append, List.map_append]
  rfl

def failureReports (id text : String) (e : Error) : List Report :=
  if e.isEngine then
    [⟨.error, .formulaEvalFailed, e.message, [("formula", .text text), ("session_id", .text id)],
      some e.code, some id⟩]
  else []

def entryReport (id : String) (entry : Entry) : Report :=
  ⟨.info, .formulaEvaluated, "Formula evaluated",
    [("formula", .text entry.text), ("session_id", .text id), ("result", .text entry.formatted),
      ("tag", .text entry.value.tag.name)], none, some id⟩

theorem compile_reports (text : String) (s : Session) :
    Reports (compile text) s (.ok (Formula.compile s.preferDecimal text s.nesting)) s
      [(Formula.compile s.preferDecimal text s.nesting).report] := by
  apply Reports.read
  refine Reports.bind_silent (a := ()) ?_ (.pure _ s)
  unfold Formula.report
  simp only [Formula.compile]
  rcases Expr.ofText s.preferDecimal text s.nesting with e | e
  · exact .report ⟨_, _, _, _, _, _⟩ s
  · exact .report ⟨_, _, _, _, _, _⟩ s

theorem reportChange_run (id : String) (n : Notice) (project : Project) :
    (reportChange id n.1 n.2).run project =
      ((), (changeReports id [n]).foldl Project.reported project) := by
  unfold reportChange changeReports
  by_cases answer : n.1 = answerVariable
  · simp only [answer, ne_eq, not_true_eq_false, if_false, decide_false, List.filter_cons,
      Bool.false_eq_true, List.filter_nil]
    rfl
  · simp only [answer, ne_eq, not_false_eq_true, if_true, decide_true, List.filter_cons,
      List.filter_nil]
    rfl

theorem reportAll_run (id : String) (journal : List Occurrence) (project : Project) :
    (journal.forM fun
        | .notified recipient name value => do if recipient = listener then reportChange id name value
        | .called .. => pure () : InProject Unit).run project =
      ((), (changeReports id (Environment.told listener journal)).foldl Project.reported project) := by
  induction journal generalizing project with
  | nil => rfl
  | cons occurrence journal ih =>
    rw [List.forM, StateT.run_bind]
    have both := Environment.told_append listener [occurrence] journal
    rw [List.singleton_append] at both
    rw [both, changeReports_append, List.foldl_append]
    cases occurrence with
    | called label args => exact ih project
    | notified recipient name value =>
      rw [Environment.told_notified]
      dsimp only
      by_cases own : recipient = listener
      · rw [if_pos own, if_pos own, reportChange_run id (name, value)]
        exact ih _
      · rw [if_neg own, if_neg own]
        exact ih project

theorem inEnvironment_reports (action : Run Environment α) (s : Session) :
    Reports (inEnvironment action) s (action.outcome s.environment).1
      (s.settled (action.outcome s.environment).2)
      (changeReports s.id (Environment.told listener (action.outcome s.environment).2.journal)) := by
  have changed (s : Session) : Reports reportChanges s (.ok ()) (s.settled s.environment)
      (changeReports s.id (Environment.told listener s.environment.journal)) :=
    .read ((Reports.inProject (fun project => congrArg Prod.snd (reportAll_run s.id _ project)) s).bind_silent
      (.modify _ _))
  apply Reports.read
  refine (Reports.write s { s with environment := (action.outcome s.environment).2 }).bind ?_
  exact (changed _).bind_silent (.lift _ _)

theorem reportFailure_reports (text : String) (e : Error) (s : Session) :
    Reports (reportFailure text e) s (.ok ()) s (failureReports s.id text e) := by
  apply Reports.read
  unfold failureReports
  split
  · exact .report ⟨_, _, _, _, _, _⟩ s
  · exact .pure _ s

def answered (s : Session) (v : Value) : Session :=
  s.settled (s.environment.set answerVariable (.ofValue v))

def withEntry (s : Session) (entry : Entry) : Session :=
  { s with history := lastEntries s.historySize (s.history ++ [entry]) }

def concluded (s : Session) (text : String) (v : Value) : Except Error Entry × Session :=
  match s.format v with
  | .ok formatted => (.ok ⟨text, v, formatted⟩, (s.answered v).withEntry ⟨text, v, formatted⟩)
  | .error e => (.error e, s.answered v)

def advanced (s : Session) (text : String) : Except Error Entry × Session :=
  let f := Formula.compile s.preferDecimal text s.nesting
  match f.outcome with
  | .error fault => (.error (.parse fault), s)
  | .ok _ =>
    match (f.evaluate Environment.host).outcome s.environment with
    | (.error e, environment) => (.error e, s.settled environment)
    | (.ok v, environment) => (s.settled environment).concluded text v

/-- The ways in which running a text can end, with what it comes to and the session that it leaves. -/
inductive Ended (s : Session) (text : String) : Except Error Entry → Session → Prop
  | uncompiled {fault : ParseError}
      (compiled : (Formula.compile s.preferDecimal text s.nesting).outcome = .error fault) :
      Ended s text (.error (.parse fault)) s
  | unevaluated {p : Program} {e : Error} {environment : Environment}
      (compiled : (Formula.compile s.preferDecimal text s.nesting).outcome = .ok p)
      (evaluated : ((Formula.compile s.preferDecimal text s.nesting).evaluate Environment.host).outcome
        s.environment = (.error e, environment)) :
      Ended s text (.error e) (s.settled environment)
  | unshown {p : Program} {v : Value} {e : Error} {environment : Environment}
      (compiled : (Formula.compile s.preferDecimal text s.nesting).outcome = .ok p)
      (evaluated : ((Formula.compile s.preferDecimal text s.nesting).evaluate Environment.host).outcome
        s.environment = (.ok v, environment))
      (shown : s.format v = .error e) :
      Ended s text (.error e) ((s.settled environment).answered v)
  | returned {p : Program} {v : Value} {formatted : String} {environment : Environment}
      (compiled : (Formula.compile s.preferDecimal text s.nesting).outcome = .ok p)
      (evaluated : ((Formula.compile s.preferDecimal text s.nesting).evaluate Environment.host).outcome
        s.environment = (.ok v, environment))
      (shown : s.format v = .ok formatted) :
      Ended s text (.ok ⟨text, v, formatted⟩)
        (((s.settled environment).answered v).withEntry ⟨text, v, formatted⟩)

theorem advanced_ended (s : Session) (text : String) :
    Ended s text (s.advanced text).1 (s.advanced text).2 := by
  unfold advanced
  dsimp only
  split
  · exact .uncompiled ‹_›
  · rename_i compiled
    split
    · exact .unevaluated compiled ‹_›
    · rename_i v environment evaluated
      unfold concluded
      split
      · exact .returned compiled evaluated ‹_›
      · exact .unshown compiled evaluated ‹_›

def conclusionReports (s : Session) (text : String) : Except Error Value → List Report
  | .error e => failureReports s.id text e
  | .ok v =>
    match s.format v with
    | .ok formatted => [entryReport s.id ⟨text, v, formatted⟩]
    | .error _ => []

def runReports (s : Session) (text : String) : List Report :=
  let f := Formula.compile s.preferDecimal text s.nesting
  f.report :: match f.outcome with
    | .error _ => []
    | .ok _ =>
      let evaluated := (f.evaluate Environment.host).outcome s.environment
      changeReports s.id (Environment.told listener evaluated.2.journal) ++
        s.conclusionReports text evaluated.1

theorem setAnswer_reports (v : Value) (s : Session) (reported : s.environment.journal = []) :
    Reports (setVariable answerVariable (.ofValue v)) s (.ok ()) (s.answered v) [] := by
  have set := inEnvironment_reports (Environment.host.set answerVariable (.ofValue v)) s
  have heard := (Environment.Changed.set s.environment answerVariable (.ofValue v)).told listener
  have silent : changeReports s.id
      (Environment.told listener (s.environment.set answerVariable (.ofValue v)).journal) = [] := by
    rw [heard, reported, changeReports, List.map_eq_nil_iff, List.filter_eq_nil_iff]
    intro n member
    obtain ⟨-, rfl⟩ := List.mem_replicate.mp (by simpa [Access.notice?, Environment.told] using member)
    simp
  rw [← silent]
  exact set

theorem run_reports (text : String) (s : Session) :
    Reports (run text) s (s.advanced text).1 (s.advanced text).2 (s.runReports text) := by
  unfold advanced runReports
  dsimp only
  apply (compile_reports text s).bind
  unfold Formula.check
  cases compiled : (Formula.compile s.preferDecimal text s.nesting).outcome with
  | error fault => exact .lift_error rfl s _
  | ok p =>
    apply Reports.lift_ok rfl
    have evaluated := inEnvironment_reports ((Formula.compile s.preferDecimal text s.nesting).evaluate
      Environment.host) s
    rcases ran : ((Formula.compile s.preferDecimal text s.nesting).evaluate Environment.host).outcome
      s.environment with ⟨e | v, environment⟩ <;> rw [ran] at evaluated <;> dsimp only at evaluated ⊢
    · refine (evaluated.handle_error ?_).bind_error _
      exact (reportFailure_reports text e _).bind_silent (.throw e _)
    -- the changes of the formula have been reported, so the journal is empty when `ans` is set
    · refine (evaluated.handle_ok _).bind ?_
      refine Reports.bind (setAnswer_reports v (s.settled environment) rfl) (.read ?_)
      unfold concluded
      have same : s.format v = (s.settled environment).format v := rfl
      rw [same]
      cases formatted : (s.settled environment).format v with
      | error e => exact .lift_error formatted ((s.settled environment).answered v) _
      | ok shown =>
        refine .lift_ok formatted ((Reports.write _ _).bind ?_)
        exact (Reports.report (entryReport s.id ⟨text, v, shown⟩) _).bind_silent (.pure _ _)

theorem assign_reports (name : String) {text : String} {p : Program}
    (compiled : (Formula.compile s.preferDecimal text s.nesting).outcome = .ok p) :
    let f := Formula.compile s.preferDecimal text s.nesting
    let assigned := (f.assign Environment.host name).outcome s.environment
    Reports (assign name text) s assigned.1 (s.settled assigned.2)
      (f.report :: changeReports s.id (Environment.told listener assigned.2.journal)) := by
  intro f assigned
  have checked : f.check = .ok () := by
    rw [Formula.check, compiled]
  have evaluated := inEnvironment_reports (f.evaluate Environment.host) s
  apply (compile_reports text s).bind
  apply Reports.lift_ok checked
  simp only [assigned, Formula.assign]
  rcases ran : (f.evaluate Environment.host).outcome s.environment with ⟨e | v, environment⟩ <;>
    rw [ran] at evaluated
  · rw [Run.outcome_bind_of_error ran]
    exact evaluated.bind_error _
  · have set : Reports (setVariable name (.ofValue v)) (s.settled environment) (.ok ())
        (s.settled (environment.set name (.ofValue v))) _ :=
      inEnvironment_reports (Environment.host.set name (.ofValue v)) (s.settled environment)
    -- the changes of the formula are reported before the variable is set
    have told : Environment.told listener (environment.set name (.ofValue v)).journal =
        Environment.told listener environment.journal ++ Environment.told listener
          ((s.settled environment).environment.set name (.ofValue v)).journal := by
      rw [Environment.set, Environment.notify, Environment.told_append]
      rfl
    rw [Run.outcome_bind_of_ok ran]
    show Reports _ s (.ok v) (s.settled (environment.set name (.ofValue v)))
      (changeReports s.id (Environment.told listener (environment.set name (.ofValue v)).journal))
    rw [told, changeReports_append]
    exact evaluated.bind (set.bind_silent (.pure v _))

theorem run_comes (text : String) (s : Session) :
    Comes (run text) s (s.advanced text).1 (s.advanced text).2 :=
  fun project => ⟨_, run_reports text s project⟩

end Session

end Reckoner
