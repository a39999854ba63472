import Mathlib.Tactic
import Reckoner.Proofs.Evaluation.Compiled
import Reckoner.Proofs.Evaluation.Effect
import Reckoner.Proofs.Grammar.Derivation
import Reckoner.Proofs.Grammar.Origins
import Reckoner.Proofs.Values.Literals

namespace Reckoner

open Value

variable {σ : Type}

/-- In a state, no variable of the host and nothing that its functions make of values is a number
    tagged as a whole one beyond 64 bits. -/
def Host.Bounded (host : Host σ) (s : σ) : Prop :=
  (∀ name h s', (host.get name).outcome s = (.ok h, s') → h.Bounded) ∧
    ∀ name (vs : List Value) h s',
      (host.invoke name (vs.map .ofValue)).outcome s = (.ok h, s') → h.Bounded

namespace Machine

variable {host : Host σ} {preferDecimal : Bool}

def Constants (preferDecimal : Bool) (code : List Instruction) : Prop :=
  ∀ v, .pushConstant v ∈ code → v.Admissible preferDecimal

theorem constants_cons {i : Instruction} {code : List Instruction} :
    Constants preferDecimal (i :: code) ↔
      Constants preferDecimal [i] ∧ Constants preferDecimal code := by
  simp [Constants, forall_and, or_imp]

theorem Effect.admissible {i : Instruction} {items items' : List Value} {s s' : σ}
    (effect : Effect host preferDecimal i items s items' s') (bounded : host.Bounded s)
    (constant : Constants preferDecimal [i]) (all : ∀ v ∈ items, v.Admissible preferDecimal) :
    ∀ v ∈ items', v.Admissible preferDecimal := by
  cases effect with
  | pushConstant =>
    exact List.forall_mem_cons.mpr ⟨constant _ (List.mem_singleton_self _), all⟩
  | pushVariable got converted =>
    have admits := HostValue.toValue_admits preferDecimal (bounded.1 _ _ _ got)
    exact List.forall_mem_cons.mpr ⟨admits.of_ok converted, all⟩
  | store | delete => exact all
  | call invoked converted =>
    have admits := HostValue.toValue_admits preferDecimal (bounded.2 _ _ _ _ invoked)
    exact List.forall_mem_cons.mpr
      ⟨admits.of_ok converted, fun v member => all v (List.mem_append_right _ member)⟩
  | unary applied =>
    obtain ⟨operand, rest⟩ := List.forall_mem_cons.mp all
    exact List.forall_mem_cons.mpr ⟨(UnaryOp.apply_admits _ operand).of_ok applied, rest⟩
  | @operation op left right result items s applied =>
    obtain ⟨second, rest⟩ := List.forall_mem_cons.mp all
    obtain ⟨first, rest⟩ := List.forall_mem_cons.mp rest
    have admits : Admits preferDecimal (op.apply preferDecimal left right) := by
      cases op with
      | number op => exact op.apply_admits first second
      | word op => exact op.apply_admits left right
    exact List.forall_mem_cons.mpr ⟨admits.of_ok applied, rest⟩

theorem Steps.admissible {c d : Configuration σ} (steps : Steps host preferDecimal c d)
    (bounded : ∀ m, Steps host preferDecimal c m → host.Bounded m.state)
    (constants : Constants preferDecimal c.code)
    (all : ∀ v ∈ c.stack.items, v.Admissible preferDecimal) :
    ∀ v ∈ d.stack.items, v.Admissible preferDecimal := by
  induction steps with
  | refl c => exact all
  | @next i code stack stack' s s' d ran rest ih =>
    refine ih (fun m steps => bounded m (.next ran steps))
      (fun v member => constants v (List.mem_cons_of_mem i member)) ?_
    exact (step_effect ran).2.admissible (bounded _ (.refl _))
      (fun v member => constants v (by simp_all)) all

end Machine

theorem literals_of_compile {nesting : Nat} {preferDecimal : Bool} {text : String} {p : Program}
    (compiled : (Formula.compile preferDecimal text nesting).outcome = .ok p) :
    ∀ v, .pushConstant v ∈ p.code → v.Admissible preferDecimal ∧ v.Quiet := by
  obtain ⟨e, parsed, rfl⟩ := Formula.program_of_compile compiled
  obtain ⟨ts, ⟨q, read, -⟩, phrase⟩ := Grammar.derived_of_ofText parsed
  intro v member
  have inside : .pushConstant v ∈ e.postorder := e.code_eq_postorder ▸ member
  obtain ⟨t, scanned, number⟩ := phrase.fromTokens _ inside _ rfl
  have admissible := read.admissible t scanned
  rw [number] at admissible
  exact admissible

theorem constants_of_compile {nesting : Nat} {preferDecimal : Bool} {text : String} {p : Program}
    (compiled : (Formula.compile preferDecimal text nesting).outcome = .ok p) :
    Machine.Constants preferDecimal p.code :=
  fun v constant => (literals_of_compile compiled v constant).1

/-- As long as the host gives no number tagged as a whole one beyond 64 bits, every value that is ever
    on the stack of a compiled formula is well-formed, and so is its result; without a preference for
    decimals none of them is a decimal. Decimals of the host are brought into the context. -/
theorem compiled_values_wellFormed {nesting : Nat} {preferDecimal : Bool} {text : String} {p : Program}
    (compiled : (Formula.compile preferDecimal text nesting).outcome = .ok p) (host : Host σ) (s : σ)
    (bounded : ∀ c, Machine.Steps host preferDecimal ⟨p.code, .empty p.depth, s⟩ c →
      host.Bounded c.state) :
    (∀ c, Machine.Steps host preferDecimal ⟨p.code, .empty p.depth, s⟩ c →
      ∀ v ∈ c.stack.items, v.WellFormed ∧ (preferDecimal = false → v.tag ≠ .decimal)) ∧
    ∀ v s', ((Formula.compile preferDecimal text nesting).evaluate host).outcome s = (.ok v, s') →
      v.WellFormed ∧ (preferDecimal = false → v.tag ≠ .decimal) := by
  have held (c : Machine.Configuration σ)
      (steps : Machine.Steps host preferDecimal ⟨p.code, .empty p.depth, s⟩ c) :
      ∀ v ∈ c.stack.items, v.WellFormed ∧ (preferDecimal = false → v.tag ≠ .decimal) :=
    fun v member =>
      (steps.admissible bounded (constants_of_compile compiled) nofun v member).wellFormed
  refine ⟨held, ?_⟩
  intro v s' evaluated
  rw [Formula.evaluate_of_compile compiled] at evaluated
  obtain ⟨stack, s₁, ran, taken⟩ := Run.outcome_bind_eq_ok.mp evaluated
  obtain ⟨result, rfl⟩ := Run.outcome_lift_eq_ok.mp taken
  refine held _ (Machine.steps_of_exec ran) v ?_
  unfold Stack.result at result
  split at result
  · rename_i single
    cases result
    rw [single]
    exact List.mem_singleton_self _
  · cases result

def Host.constant (h : HostValue) : Host Unit where
  get _ := return h
  set _ _ := return
  delete _ := return
  invoke _ _ := return h

theorem compiled_values_wellFormed_sum :
    (∃ p, (Formula.compile false "1+a").outcome = .ok p) ∧
    (((Formula.compile false "1+a").evaluate (.constant (.integer 2))).outcome () =
      (.ok (.integer 3), ())) ∧
    (Value.integer 3).WellFormed ∧ (Value.integer 3).tag ≠ .decimal := by
  have parsed : Expr.ofText false "1+a" =
      .ok (.binary (.number .add) (.constant (.integer 1)) (.read "a")) := by cbv
  have compiled := Formula.compile_of_parsed parsed
  have evaluated : ((Formula.compile false "1+a").evaluate (.constant (.integer 2))).outcome () =
      (.ok (.integer 3), ()) := by
    rw [Formula.evaluate_of_compile compiled]
    rfl
  have wellFormed := (compiled_values_wellFormed compiled (.constant (.integer 2)) () fun c _ =>
    ⟨fun _ _ _ got => by cases got; trivial, fun _ _ _ _ got => by cases got; trivial⟩).2 _ _ evaluated
  exact ⟨⟨_, compiled⟩, evaluated, wellFormed.1, wellFormed.2 rfl⟩

end Reckoner
