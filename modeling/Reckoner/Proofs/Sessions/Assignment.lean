import Reckoner.Proofs.Postorder
import Reckoner.Proofs.Pushdown.Assignment
import Reckoner.Proofs.Pushdown.Nesting
import Reckoner.Proofs.Sessions.Run

namespace Reckoner

variable {nesting : Nat} {preferDecimal : Bool} {name before behind text : String} {e : Expr}

theorem Expr.program_assign (name : String) (e : Expr) :
    (assign name e).program = ⟨e.program.code ++ [.store name], e.program.depth⟩ := by
  have code : (assign name e).code = e.code ++ [.store name] := by
    rw [code_eq_postorder, code_eq_postorder, postorder]
  rw [program, code]
  rfl

theorem Formula.evaluate_assignment {p : Program}
    (compiled : (compile preferDecimal text nesting).outcome = .ok p) {text' : String}
    (assigns : (compile preferDecimal text' nesting).outcome = .ok ⟨p.code ++ [.store name], p.depth⟩)
    {σ : Type} (host : Host σ) :
    (compile preferDecimal text' nesting).evaluate host =
      (compile preferDecimal text nesting).assign host name := by
  obtain ⟨e, -, rfl⟩ := program_of_compile compiled
  rw [← Expr.program_assign] at assigns
  rw [assign, evaluate_of_compile assigns, evaluate_of_compile compiled, Expr.run_program,
    Expr.run_program, Expr.evaluate]

namespace Session

/-- Behind a name and an equals sign, a text that nests one level below the limit compiles to its own
    program with a store behind it, of the same depth. With every host this formula does what evaluating
    the text and setting the name does, and in every session the assignment of the text comes to the result
    of this formula, leaves the environment that it leaves, and reports the changes that it makes. -/
theorem assign_as_formula (identifier : isIdentifier name = true)
    (blank : ∀ c ∈ before.toList, isSpace c = true) (blank' : ∀ c ∈ behind.toList, isSpace c = true)
    (within : Expr.ofText preferDecimal text nesting = .ok e) :
    let f := Formula.compile preferDecimal text (nesting + 1)
    let assignment :=
      Formula.compile preferDecimal (assignmentText name before behind text) (nesting + 1)
    ∃ p, f.outcome = .ok p ∧ assignment.outcome = .ok ⟨p.code ++ [.store name], p.depth⟩ ∧
      (∀ (σ : Type) (host : Host σ), assignment.evaluate host = do
        let v ← f.evaluate host
        host.set name (.ofValue v)
        return v) ∧
      ∀ s : Session, s.preferDecimal = preferDecimal → s.nesting = nesting + 1 →
        let evaluated := (assignment.evaluate Environment.host).outcome s.environment
        Reports (assign name text) s evaluated.1 (s.settled evaluated.2)
          (f.report :: changeReports s.id (Environment.told listener evaluated.2.journal)) := by
  intro f assignment
  have parsed : Expr.ofText preferDecimal text (nesting + 1) = .ok e :=
    Expr.ofText_more_nesting (Nat.le_succ nesting) within
  have compiled : f.outcome = .ok e.program := Formula.compile_of_parsed parsed
  have assigns : assignment.outcome = .ok ⟨e.program.code ++ [.store name], e.program.depth⟩ := by
    rw [← Expr.program_assign]
    exact Formula.compile_of_parsed (Pushdown.ofText_assignment identifier blank blank' within)
  have evaluates {σ : Type} (host : Host σ) : assignment.evaluate host = f.assign host name :=
    Formula.evaluate_assignment compiled assigns host
  refine ⟨_, compiled, assigns, fun σ host => evaluates host, ?_⟩
  intro s preferred limit evaluated
  subst preferred
  simp only [evaluated, evaluates]
  simp only [f, ← limit] at compiled ⊢
  exact assign_reports name compiled

theorem assign_as_formula_of_mask :
    let s := create .standard false 10 100 "1"
    let assignment := Formula.compile false "mask = 6&3|a" usualNesting
    isIdentifier "mask" = true ∧ (∀ c ∈ " ".toList, isSpace c = true) ∧
    (∃ e, Expr.ofText false "6&3|a" (usualNesting - 1) = .ok e) ∧
    ∃ p, (Formula.compile false "6&3|a" usualNesting).outcome = .ok p ∧
      assignment.outcome = .ok ⟨p.code ++ [.store "mask"], p.depth⟩ ∧
      let evaluated := (assignment.evaluate Environment.host).outcome s.environment
      Reports (assign "mask" "6&3|a") s evaluated.1 (s.settled evaluated.2)
        ((Formula.compile false "6&3|a" usualNesting).report ::
          changeReports s.id (Environment.told listener evaluated.2.journal)) := by
  intro s assignment
  have identifier : isIdentifier "mask" = true := by decide
  have blank : ∀ c ∈ " ".toList, isSpace c = true := by simp [isSpace]
  have within : Expr.ofText false "6&3|a" (usualNesting - 1) =
      .ok (.binary (.word .bitOr) (.binary (.word .bitAnd) (.constant (.integer 6))
        (.constant (.integer 3))) (.read "a")) := by cbv
  have same : assignmentText "mask" " " " " "6&3|a" = "mask = 6&3|a" := by decide
  obtain ⟨p, compiled, assigns, -, reports⟩ := assign_as_formula identifier blank blank within
  rw [same] at assigns reports
  exact ⟨identifier, blank, ⟨_, within⟩, p, compiled, assigns, reports s rfl rfl⟩

end Session

end Reckoner
