import Mathlib.Tactic
import Reckoner.Proofs.Evaluation.Compiled
import Reckoner.Proofs.Evaluation.Effect
import Reckoner.Proofs.Stack.Faults
import Reckoner.Proofs.Stack.Heights

namespace Reckoner

variable {σ α β : Type}

/-- Some action of the host fails with this error. -/
def Host.Raises (host : Host σ) (e : Error) : Prop :=
  ∃ s s', (∃ name, (host.get name).outcome s = (.error e, s')) ∨
    (∃ name v, (host.set name v).outcome s = (.error e, s')) ∨
    (∃ name, (host.delete name).outcome s = (.error e, s')) ∨
    ∃ name args, (host.invoke name args).outcome s = (.error e, s')

/-- An action fails with a fault of the stack only if the host does. -/
def Blameless (host : Host σ) (x : Run σ α) : Prop :=
  ∀ s fault s', x.outcome s = (.error (.stack fault), s') → host.Raises (.stack fault)

namespace Blameless

variable {host : Host σ}

theorem get (name : String) : Blameless host (host.get name) := by
  intro s fault s' failed
  exact ⟨s, s', .inl ⟨name, failed⟩⟩

theorem set (name : String) (v : HostValue) : Blameless host (host.set name v) := by
  intro s fault s' failed
  exact ⟨s, s', .inr (.inl ⟨name, v, failed⟩)⟩

theorem delete (name : String) : Blameless host (host.delete name) := by
  intro s fault s' failed
  exact ⟨s, s', .inr (.inr (.inl ⟨name, failed⟩))⟩

theorem invoke (name : String) (args : List HostValue) :
    Blameless host (host.invoke name args) := by
  intro s fault s' failed
  exact ⟨s, s', .inr (.inr (.inr ⟨name, args, failed⟩))⟩

theorem lift {x : Except Error α} (stackless : Stackless x) : Blameless host (liftM x) := by
  intro s fault s' failed
  rw [Run.outcome_lift] at failed
  exact (stackless.of_error (congrArg Prod.fst failed)).elim

theorem pure (a : α) : Blameless host (pure a : Run σ α) := lift (x := .ok a) trivial

theorem bind {x : Run σ α} {f : α → Run σ β} (first : Blameless host x)
    (second : ∀ s a s', x.outcome s = (.ok a, s') → Blameless host (f a)) :
    Blameless host (x >>= f) := by
  intro s fault s' failed
  cases ran : x.outcome s with
  | mk result s₁ =>
    cases result with
    | ok a =>
      rw [Run.outcome_bind_of_ok ran] at failed
      exact second s a s₁ ran s₁ fault s' failed
    | error e =>
      rw [Run.outcome_bind_of_error ran] at failed
      cases failed
      exact first s fault _ ran

theorem bind_lift {x : Except Error α} {f : α → Run σ β} (first : Stackless x)
    (second : ∀ a, Blameless host (f a)) : Blameless host (liftM x >>= f) :=
  (lift first).bind fun _ a _ _ => second a

end Blameless

namespace Machine

variable {host : Host σ} {preferDecimal : Bool}

theorem Effect.height {i : Instruction} {items items' : List Value} {s s' : σ}
    (effect : Effect host preferDecimal i items s items' s') :
    items'.length = i.heightAfter items.length := by
  cases effect with
  | pushConstant | pushVariable | store | delete | unary => rfl
  | call => simp [Instruction.heightAfter]
  | operation => rw [Operation.heightAfter_instruction]; rfl

theorem operation_blameless (op : Operation) {capacity : Int} {items : List Value}
    (operands : 2 ≤ items.length) (room : ((items.length - 1 : Nat) : Int) ≤ capacity) :
    Blameless host (step host preferDecimal op.instruction ⟨capacity, items⟩) := by
  match items with
  | right :: left :: items =>
    rw [step_operation host preferDecimal (Int.lt_of_add_one_le room)]
    exact .bind_lift (op.apply_stackless preferDecimal left right) fun _ => .pure _

/-- With its operands on the stack and room for its result an instruction meets no bound of the
    stack. -/
theorem step_blameless {i : Instruction} {stack : Stack} (operands : i.operands ≤ stack.size)
    (room : (i.heightAfter stack.size : Int) ≤ stack.capacity) :
    Blameless host (step host preferDecimal i stack) := by
  obtain ⟨capacity, items⟩ := stack
  cases i with
  | pushConstant v =>
    rw [step_pushConstant host preferDecimal (Int.lt_of_add_one_le room)]
    exact .pure _
  | pushVariable name =>
    rw [step_pushVariable host preferDecimal (Int.lt_of_add_one_le room)]
    exact (Blameless.get name).bind fun _ h _ _ =>
      .bind_lift (h.toValue_stackless preferDecimal) fun _ => .pure _
  | store name =>
    cases items with
    | nil => cases operands
    | cons v items =>
      rw [step_store]
      exact (Blameless.set name _).bind fun _ _ _ _ => .pure _
  | delete name => exact (Blameless.delete name).bind fun _ _ _ _ => .pure _
  | call name count =>
    have enough : count ≤ items.length := operands
    obtain ⟨args, kept, rfl, rfl⟩ : ∃ args kept, count = args.length ∧ items = args.reverse ++ kept :=
      ⟨(items.take count).reverse, items.drop count,
        by rw [List.length_reverse, List.length_take_of_le enough], by simp⟩
    have room : (kept.length : Int) < capacity := by
      simp only [Instruction.heightAfter, Stack.size, List.length_append, List.length_reverse] at room
      omega
    rw [step_call host preferDecimal room]
    exact (Blameless.invoke name _).bind fun _ h _ _ =>
      .bind_lift (h.toValue_stackless preferDecimal) fun _ => .pure _
  | unary op =>
    cases items with
    | nil => cases operands
    | cons v items =>
      rw [step_unary host preferDecimal (Int.lt_of_add_one_le room)]
      exact .bind_lift (op.apply_stackless preferDecimal v) fun _ => .pure _
  | binary op => exact operation_blameless (.number op) operands room
  | word op => exact operation_blameless (.word op) operands room
  | unknown text => exact .lift (x := .error _) trivial

theorem step_height {i : Instruction} {stack stack' : Stack} {s s' : σ}
    (ran : (step host preferDecimal i stack).outcome s = (.ok stack', s')) :
    stack'.capacity = stack.capacity ∧ stack'.size = i.heightAfter stack.size :=
  ⟨(step_effect ran).1, (step_effect ran).2.height⟩

/-- Along balanced code the code still to run stays balanced, and its greatest height stays within
    that of the whole. -/
theorem Steps.balanced {c d : Configuration σ} (steps : Steps host preferDecimal c d)
    (balanced : Balanced c.stack.size c.code) :
    Balanced d.stack.size d.code ∧ peak d.stack.size d.code ≤ peak c.stack.size c.code ∧
      d.stack.capacity = c.stack.capacity := by
  induction steps with
  | refl c => exact ⟨balanced, Nat.le_refl _, rfl⟩
  | next ran rest ih =>
    obtain ⟨capacity, height⟩ := step_height ran
    rw [← capacity]
    simp only [Balanced, peak, ← height] at balanced ⊢
    obtain ⟨balanced', bounded, same⟩ := ih balanced.2
    exact ⟨balanced', Nat.le_trans bounded (Nat.le_max_right ..), same⟩

theorem Steps.reaches_peak {c d : Configuration σ} (steps : Steps host preferDecimal c d)
    (finished : d.code = []) : ∃ m, Steps host preferDecimal c m ∧ Steps host preferDecimal m d ∧
      m.stack.size = peak c.stack.size c.code := by
  induction steps with
  | refl c => exact ⟨c, .refl c, .refl c, by rw [finished]; rfl⟩
  | @next i code stack stack' s s' d ran rest ih =>
    obtain ⟨m, before, after, height⟩ := ih finished
    rw [(step_height ran).2] at height
    simp only [peak]
    by_cases higher : stack.size ≤ peak (i.heightAfter stack.size) code
    · exact ⟨m, .next ran before, after, by rw [height, Nat.max_eq_right higher]⟩
    · exact ⟨_, .refl _, .next ran rest, (Nat.max_eq_left (Nat.le_of_not_le higher)).symm⟩

theorem exec_blameless {code : List Instruction} {stack : Stack}
    (balanced : Balanced stack.size code) (room : (peak stack.size code : Int) ≤ stack.capacity) :
    Blameless host (exec host preferDecimal code stack) := by
  induction code generalizing stack with
  | nil => exact .pure _
  | cons i code ih =>
    simp only [Balanced, peak] at balanced room
    have above := le_peak (i.heightAfter stack.size) code
    apply (step_blameless balanced.1 (by omega)).bind
    intro s stack' s' ran
    obtain ⟨capacity, height⟩ := step_height ran
    rw [← height] at balanced room
    exact ih balanced.2 (by omega)

theorem run_blameless {p : Program} (balanced : Balanced 0 p.code)
    (room : (peak 0 p.code : Int) ≤ p.depth) : Blameless host (run host preferDecimal p) := by
  have start : (Stack.empty p.depth).size = 0 := rfl
  rw [← start] at balanced room
  apply (exec_blameless balanced room).bind
  intro s stack s' ran
  have one : stack.items.length = 1 := ((steps_of_exec ran).balanced balanced).1
  obtain ⟨v, single⟩ := List.length_eq_one_iff.mp one
  rw [Stack.result, single]
  exact .lift (x := .ok v) trivial

end Machine

theorem balanced_of_compile {nesting : Nat} {preferDecimal : Bool} {text : String} {p : Program}
    (compiled : (Formula.compile preferDecimal text nesting).outcome = .ok p) :
    Balanced 0 p.code ∧ (peak 0 p.code : Int) = p.depth := by
  obtain ⟨e, -, rfl⟩ := Formula.program_of_compile compiled
  exact ⟨e.balanced_code, congrArg Int.ofNat e.peak_code⟩

/-- With any capacity from its depth on, a compiled program holds no more values than this depth,
    finds all its operands and meets no bound of the stack; at the end it leaves one value and has
    held as many as its depth. So its evaluation fails with no fault of the stack but one that the
    host raises. -/
theorem compiled_stack_safe {nesting : Nat} {preferDecimal : Bool} {text : String} {p : Program}
    (compiled : (Formula.compile preferDecimal text nesting).outcome = .ok p) (host : Host σ) (s : σ) :
    (∀ (capacity : Int) (c : Machine.Configuration σ), p.depth ≤ capacity →
      Machine.Steps host preferDecimal ⟨p.code, .empty capacity, s⟩ c →
      c.stack.size ≤ p.depth ∧
      (∀ i rest, c.code = i :: rest → i.operands ≤ c.stack.size ∧
        Blameless host (Machine.step host preferDecimal i c.stack)) ∧
      (c.code = [] → c.stack.size = 1 ∧
        ∃ m, Machine.Steps host preferDecimal ⟨p.code, .empty capacity, s⟩ m ∧
          Machine.Steps host preferDecimal m c ∧ m.stack.size = p.depth)) ∧
    ∀ fault s', ((Formula.compile preferDecimal text nesting).evaluate host).outcome s =
      (.error (.stack fault), s') → host.Raises (.stack fault) := by
  obtain ⟨balanced, deepest⟩ := balanced_of_compile compiled
  constructor
  · intro capacity c room steps
    obtain ⟨balanced', bounded, same⟩ := steps.balanced balanced
    refine ⟨?_, ?_, ?_⟩
    · have height := le_peak c.stack.size c.code
      have bounded : peak c.stack.size c.code ≤ peak 0 p.code := bounded
      omega
    · intro i rest next
      rw [next] at balanced' bounded
      have bounded : peak c.stack.size (i :: rest) ≤ peak 0 p.code := bounded
      have same : c.stack.capacity = capacity := same
      have after := le_peak (i.heightAfter c.stack.size) rest
      simp only [peak] at bounded
      exact ⟨balanced'.1, Machine.step_blameless balanced'.1 (by omega)⟩
    · intro finished
      rw [finished] at balanced'
      obtain ⟨m, before, after, height⟩ := steps.reaches_peak finished
      exact ⟨balanced', m, before, after, by rw [height]; exact deepest⟩
  · intro fault s'
    rw [Formula.evaluate_of_compile compiled]
    exact Machine.run_blameless balanced (Int.le_of_eq deepest) s fault s'

theorem compiled_stack_safe_sum :
    (Formula.compile false "1+2").outcome =
      .ok ⟨[.pushConstant (.integer 1), .pushConstant (.integer 2), .binary .add], 2⟩ ∧
    ∀ fault s', ((Formula.compile false "1+2").evaluate Environment.host).outcome .standard =
      (.error (.stack fault), s') → Environment.host.Raises (.stack fault) := by
  have parsed : Expr.ofText false "1+2" =
      .ok (.binary (.number .add) (.constant (.integer 1)) (.constant (.integer 2))) := by cbv
  have compiled := Formula.compile_of_parsed parsed
  exact ⟨compiled, (compiled_stack_safe compiled Environment.host .standard).2⟩

end Reckoner
