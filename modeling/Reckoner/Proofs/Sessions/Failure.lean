import Mathlib
import Reckoner.Proofs.Evaluation.Compiled
import Reckoner.Proofs.Evaluation.Tree
import Reckoner.Proofs.Sessions.Run

namespace Reckoner.Session

variable {s s' : Session}

theorem format_eq_error {v : Value} {e : Error} (failed : s.format v = .error e) :
    ∃ n, v = .integer n ∧ s.outputBase ∉ Value.supportedBases ∧
      e = .badValue (.unsupportedBase s.outputBase) := by
  cases v with
  | empty | decimal | double => cases failed
  | integer n =>
    simp only [format, Value.format, Value.tag, if_true] at failed
    split at failed
    · cases failed
      exact ⟨n, rfl, ‹_›, rfl⟩
    · cases failed

/-- Whatever makes a run fail, the history stays, and the variables are as the assignments and the
    deletions that the formula has carried out leave them: listeners are passive, so none makes a run fail.
    The exception is a whole number in a base that is not supported: it is `ans` when the run fails to
    show it. -/
theorem failed_run_keeps_history {text : String} {e : Error} {project project' : Project}
    (failed : (s.perform (run text)).run project = ((.error e, s'), project')) :
    let f := Formula.compile s.preferDecimal text s.nesting
    let formulaLeft := (f.changes s.environment).foldl Access.write s.environment.bindings
    s'.history = s.history ∧
    (s'.environment.bindings = formulaLeft ∨
      ∃ n, ((f.evaluate Environment.host).outcome s.environment).1 = .ok (.integer n) ∧
        s.outputBase ∉ Value.supportedBases ∧ e = .badValue (.unsupportedBase s.outputBase) ∧
        s'.environment.bindings = Entries.put answerVariable (.integer n) formulaLeft) := by
  intro f formulaLeft
  have advanced : s.advanced text = (.error e, s') :=
    congrArg Prod.fst ((run_reports text s project).symm.trans failed)
  have ended := s.advanced_ended text
  rw [advanced] at ended
  have unchanged {fault : ParseError} (compiled : f.outcome = .error fault) :
      formulaLeft = s.environment.bindings := by
    simp only [formulaLeft, Formula.changes, compiled, List.foldl_nil]
  have left : ((f.evaluate Environment.host).outcome s.environment).2.bindings = formulaLeft :=
    (f.evaluate_changed s.environment).bindings
  cases ended with
  | uncompiled compiled => exact ⟨rfl, .inl (unchanged compiled).symm⟩
  | unevaluated compiled evaluated =>
    rw [evaluated] at left
    exact ⟨rfl, .inl left⟩
  | unshown compiled evaluated shown =>
    obtain ⟨n, rfl, unsupported, rfl⟩ := format_eq_error shown
    rw [evaluated] at left
    exact ⟨rfl, .inr ⟨n, congrArg Prod.fst evaluated, unsupported, rfl, congrArg (Entries.put _ _) left⟩⟩

theorem failed_run_keeps_history_of_division :
    let s := create .standard true 10 100 "1"
    ∃ s' project', (s.perform (run "(x=2)/0")).run default = ((.error .zeroDivision, s'), project') ∧
      s'.history = [] ∧ s'.environment.bindings = [("x", .integer 2)] := by
  intro s
  have parsed : Expr.ofText true "(x=2)/0" = .ok (.binary (.number .divide)
      (.assign "x" (.constant (.integer 2))) (.constant (.integer 0))) := by cbv
  have compiled := Formula.compile_of_parsed parsed
  have evaluated : ((Formula.compile true "(x=2)/0").evaluate Environment.host).outcome s.environment =
      (.error .zeroDivision, s.environment.set "x" (.integer 2)) := by
    rw [Formula.evaluate_of_compile compiled, Expr.run_program]
    rfl
  have advanced : s.advanced "(x=2)/0" =
      (.error .zeroDivision, s.settled (s.environment.set "x" (.integer 2))) := by
    have preferred : s.preferDecimal = true := rfl
    have limit : s.nesting = usualNesting := rfl
    unfold advanced
    simp only [preferred, limit, compiled, evaluated]
  have changed : (Formula.compile true "(x=2)/0").changes s.environment = [.set "x" (.integer 2)] := by
    rw [Formula.changes, compiled]
    rfl
  have ran := run_reports "(x=2)/0" s default
  rw [advanced] at ran
  obtain ⟨kept, left | ⟨n, -, unsupported, -⟩⟩ := failed_run_keeps_history ran
  · exact ⟨_, _, ran, kept, left.trans (congrArg (List.foldl Access.write []) changed)⟩
  · exact absurd (by decide) unsupported

/-- A formula that changes no variable fails in base 7, and its result is `ans`. -/
theorem unshown_result_becomes_answer :
    let s := create .standard false 7 100 "1"
    (Formula.compile false "1+1").changes s.environment = [] ∧
    ∃ s' project', (s.perform (run "1+1")).run default =
        ((.error (.badValue (.unsupportedBase 7)), s'), project') ∧
      s'.history = [] ∧ s'.environment.bindings = [("ans", .integer 2)] := by
  intro s
  have parsed : Expr.ofText false "1+1" = .ok (.binary (.number .add) (.constant (.integer 1))
      (.constant (.integer 1))) := by cbv
  have compiled := Formula.compile_of_parsed parsed
  have evaluated : ((Formula.compile false "1+1").evaluate Environment.host).outcome s.environment =
      (.ok (.integer 2), s.environment) := by
    rw [Formula.evaluate_of_compile compiled, Expr.run_program]
    rfl
  have advanced : s.advanced "1+1" = (.error (.badValue (.unsupportedBase 7)),
      (s.settled s.environment).answered (.integer 2)) := by
    have mode : s.preferDecimal = false := rfl
    have limit : s.nesting = usualNesting := rfl
    unfold advanced
    simp only [mode, limit, compiled, evaluated]
    rfl
  have ran := run_reports "1+1" s default
  rw [advanced] at ran
  refine ⟨?_, _, _, ran, rfl, rfl⟩
  rw [Formula.changes, compiled]
  rfl

end Reckoner.Session
