import Reckoner.Formula
import Reckoner.Proofs.Evaluation.Tree

namespace Reckoner.Formula

variable {σ : Type} {nesting : Nat} {preferDecimal : Bool} {text : String} {p : Program}
  {fault : ParseError}

theorem program_of_compile (compiled : (compile preferDecimal text nesting).outcome = .ok p) :
    ∃ e, Expr.ofText preferDecimal text nesting = .ok e ∧ p = e.program := by
  simp only [compile] at compiled
  cases parsed : Expr.ofText preferDecimal text nesting with
  | error fault =>
    rw [parsed] at compiled
    cases compiled
  | ok e =>
    rw [parsed] at compiled
    cases compiled
    exact ⟨e, rfl, rfl⟩

theorem compile_of_parsed {e : Expr} (parsed : Expr.ofText preferDecimal text nesting = .ok e) :
    (compile preferDecimal text nesting).outcome = .ok e.program := by
  rw [compile, parsed]
  rfl

theorem evaluate_of_compile (compiled : (compile preferDecimal text nesting).outcome = .ok p)
    (host : Host σ) :
    (compile preferDecimal text nesting).evaluate host = Machine.run host preferDecimal p := by
  rw [evaluate, program, compiled]
  rfl

end Reckoner.Formula
