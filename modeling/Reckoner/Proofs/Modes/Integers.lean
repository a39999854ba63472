import Reckoner.Environment
import Reckoner.Proofs.Evaluation.Compiled
import Reckoner.Proofs.Modes.Compilation
import Reckoner.Proofs.Modes.Evaluation

namespace Reckoner.Formula

/-- A text with no constants but whole ones compiles to the same program in both modes. A run of it in
    one mode that keeps nothing but whole numbers of 64 bits on the stack, up to its end or its error,
    and takes nothing from the host that only one mode converts, has the same outcome and makes the same
    accesses in the other mode. -/
theorem integers_ignore_mode {nesting : Nat} {preferDecimal : Bool} {text : String} {p : Program}
    (compiled : (compile preferDecimal text nesting).outcome = .ok p)
    (constants : ∀ v, .pushConstant v ∈ p.code → v.tag = .integer) :
    (compile (!preferDecimal) text nesting).outcome = .ok p ∧
    ∀ {σ : Type} (host : Host σ) (s : σ),
      (∀ c, Machine.Steps host preferDecimal ⟨p.code, .empty p.depth, s⟩ c →
        (∀ v ∈ c.stack.items, v.Whole) ∧ ∀ h, Machine.Takes host c h → h.Convertible) →
      ((compile (!preferDecimal) text nesting).evaluate host).outcome s =
        ((compile preferDecimal text nesting).evaluate host).outcome s ∧
      ((compile (!preferDecimal) text nesting).evaluate host.recorded).outcome (s, []) =
        ((compile preferDecimal text nesting).evaluate host.recorded).outcome (s, []) := by
  obtain ⟨e, parsed, rfl⟩ := program_of_compile compiled
  have whole : e.Whole := by
    rw [Expr.Whole, ← e.code_eq_postorder]
    exact constants
  have compiled' := compile_of_parsed (Expr.ofText_modes parsed whole)
  refine ⟨compiled', fun {σ} host s keeps => ?_⟩
  rw [evaluate_of_compile compiled, evaluate_of_compile compiled', evaluate_of_compile compiled,
    evaluate_of_compile compiled']
  refine ⟨Machine.run_modes host preferDecimal keeps, Machine.run_modes host.recorded preferDecimal ?_⟩
  intro c steps
  obtain ⟨whole, convertible⟩ := keeps _ (steps.of_recorded)
  exact ⟨whole, fun h takes => convertible h takes.of_recorded⟩

theorem integers_ignore_mode_behind_comma :
    let env := Environment.ofLibrary [] [("a", .integer 3), ("f", .integer 7)]
    let code : List Instruction := [.pushVariable "a", .pushConstant (.integer 5), .call "f" 2]
    (compile true "f(a,5)").outcome = .ok ⟨code, 2⟩ ∧
      (compile false "f(a,5)").outcome = .ok ⟨code, 2⟩ ∧
      ((compile false "f(a,5)").evaluate Environment.host).outcome env =
        ((compile true "f(a,5)").evaluate Environment.host).outcome env := by
  intro env code
  have parsed : Expr.ofText true "f(a,5)" = .ok (.call "f" [.read "a", .constant (.integer 5)]) := by
    cbv
  have compiled : (compile true "f(a,5)").outcome = .ok ⟨code, 2⟩ := compile_of_parsed parsed
  have constants (v : Value) (member : .pushConstant v ∈ code) : v.tag = .integer := by
    obtain rfl : v = .integer 5 := by simpa [code] using member
    rfl
  obtain ⟨compiled', evaluated⟩ := integers_ignore_mode compiled constants
  refine ⟨compiled, compiled', (evaluated Environment.host env ?_).1⟩
  intro c steps
  cases steps with
  | refl =>
    refine ⟨List.forall_mem_nil _, ?_⟩
    rintro h (⟨got⟩ | _)
    cases got
    trivial
  | next ran rest =>
    cases ran
    cases rest with
    | refl => exact ⟨List.forall_mem_cons.mpr ⟨rfl, List.forall_mem_nil _⟩, fun h takes => by cases takes⟩
    | next ran rest =>
      cases ran
      cases rest with
      | refl =>
        refine ⟨List.forall_mem_cons.mpr ⟨rfl, List.forall_mem_cons.mpr ⟨rfl, List.forall_mem_nil _⟩⟩, ?_⟩
        rintro h (_ | ⟨popped, invoked⟩)
        cases popped
        cases invoked
        trivial
      | next ran rest =>
        cases ran
        cases rest
        exact ⟨List.forall_mem_cons.mpr ⟨rfl, List.forall_mem_nil _⟩, fun h takes => by cases takes⟩

/-- A whole number beyond 64 bits, which a host can tag as one, is added as a double, but it has no
    decimal. -/
theorem beyond_word_heeds_mode :
    let env := Environment.ofLibrary [] [("a", .tagged (.integer (10 ^ 30)))]
    ∃ p x, (compile true "a+1").outcome = .ok p ∧ (compile false "a+1").outcome = .ok p ∧
      (∀ v, .pushConstant v ∈ p.code → v.tag = .integer) ∧
      (∀ c, Machine.Steps Environment.host true ⟨p.code, .empty p.depth, env⟩ c →
        ∀ v ∈ c.stack.items, v.tag = .empty ∨ v.tag = .integer) ∧
      ((compile true "a+1").evaluate Environment.host).outcome env =
        (.error (.decimal .overflow), env) ∧
      ((compile false "a+1").evaluate Environment.host).outcome env = (.ok (.double x), env) := by
  intro env
  have parsed (b : Bool) : Expr.ofText b "a+1" =
      .ok (.binary (.number .add) (.read "a") (.constant (.integer 1))) := by
    cases b <;> cbv
  have compiled (b : Bool) := compile_of_parsed (parsed b)
  have evaluated (b : Bool) : ((compile b "a+1").evaluate Environment.host).outcome env =
      (BinaryOp.add.apply b (.integer (10 ^ 30)) (.integer 1), env) := by
    rw [evaluate_of_compile (compiled b), Expr.run_program, ← Run.outcome_lift]
    rfl
  have wide (b : Bool) : BinaryOp.add.apply b (.integer (10 ^ 30)) (.integer 1) =
      BinaryOp.add.applyWide b (.integer (10 ^ 30)) (.integer 1) := rfl
  have refused : BinaryOp.add.apply true (.integer (10 ^ 30)) (.integer 1) =
      .error (.decimal .overflow) := by
    have power : ((10 : Int) ^ 30).natAbs = tenTo 30 := by decide
    have digits : 29 < digitCount ((10 : Int) ^ 30).natAbs := by
      rw [power, digitCount_tenTo]
      decide
    exact (wide true).trans (bind_of_error (Value.toDecimal_of_above (by decide) digits))
  have doubled : ∃ x, BinaryOp.add.apply false (.integer (10 ^ 30)) (.integer 1) = .ok (.double x) := by
    rw [wide, BinaryOp.applyWide, Value.toDouble_small (by decide), Value.toDouble_small (by decide)]
    exact ⟨_, rfl⟩
  obtain ⟨x, doubled⟩ := doubled
  refine ⟨_, x, compiled true, compiled false, ?_, ?_, refused ▸ evaluated true,
    doubled ▸ evaluated false⟩
  · intro v member
    have member : Instruction.pushConstant v ∈
        [.pushVariable "a", .pushConstant (.integer 1), .binary .add] := member
    obtain rfl : v = .integer 1 := by simpa using member
    rfl
  · intro c steps
    cases steps with
    | refl => exact List.forall_mem_nil _
    | next ran rest =>
      cases ran
      cases rest with
      | refl => exact List.forall_mem_cons.mpr ⟨.inr rfl, List.forall_mem_nil _⟩
      | next ran rest =>
        cases ran
        cases rest with
        | refl =>
          exact List.forall_mem_cons.mpr ⟨.inr rfl,
            List.forall_mem_cons.mpr ⟨.inr rfl, List.forall_mem_nil _⟩⟩
        | next ran rest =>
          obtain ⟨added, -⟩ := Run.outcome_lift_eq_ok.mp ran
          obtain ⟨capacity, left, right, result, items, same, applied, -⟩ := Machine.combine_eq_ok added
          cases same
          cases refused.symm.trans applied

end Reckoner.Formula
