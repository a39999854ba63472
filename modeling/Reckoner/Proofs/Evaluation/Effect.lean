import Reckoner.Proofs.Evaluation.Tree
import Reckoner.Proofs.Outcome

namespace Reckoner.Machine

variable {σ : Type}

/-- What a successful instruction does to the values on the stack and to the host's state. -/
inductive Effect (host : Host σ) (preferDecimal : Bool) :
    Instruction → List Value → σ → List Value → σ → Prop
  | pushConstant {v : Value} {items : List Value} {s : σ} :
      Effect host preferDecimal (.pushConstant v) items s (v :: items) s
  | pushVariable {name : String} {h : HostValue} {v : Value} {items : List Value} {s s' : σ}
      (got : (host.get name).outcome s = (.ok h, s')) (converted : h.toValue preferDecimal = .ok v) :
      Effect host preferDecimal (.pushVariable name) items s (v :: items) s'
  | store {name : String} {v : Value} {items : List Value} {s s' : σ}
      (wrote : (host.set name (.ofValue v)).outcome s = (.ok (), s')) :
      Effect host preferDecimal (.store name) (v :: items) s (v :: items) s'
  | delete {name : String} {items : List Value} {s s' : σ}
      (deleted : (host.delete name).outcome s = (.ok (), s')) :
      Effect host preferDecimal (.delete name) items s items s'
  | call {name : String} {h : HostValue} {v : Value} {args items : List Value} {s s' : σ}
      (invoked : (host.invoke name (args.map .ofValue)).outcome s = (.ok h, s'))
      (converted : h.toValue preferDecimal = .ok v) :
      Effect host preferDecimal (.call name args.length) (args.reverse ++ items) s (v :: items) s'
  | unary {op : UnaryOp} {v result : Value} {items : List Value} {s : σ}
      (applied : op.apply preferDecimal v = .ok result) :
      Effect host preferDecimal (.unary op) (v :: items) s (result :: items) s
  | operation {op : Operation} {left right result : Value} {items : List Value} {s : σ}
      (applied : op.apply preferDecimal left right = .ok result) :
      Effect host preferDecimal op.instruction (right :: left :: items) s (result :: items) s

theorem push_eq_ok {v : Value} {stack stack' : Stack} (pushed : stack.push v = .ok stack') :
    stack' = ⟨stack.capacity, v :: stack.items⟩ := by
  unfold Stack.push at pushed
  split at pushed <;> cases pushed
  rfl

theorem pop_eq_ok {v : Value} {stack stack' : Stack} (popped : stack.pop = .ok (v, stack')) :
    stack = ⟨stack'.capacity, v :: stack'.items⟩ := by
  obtain ⟨capacity, items⟩ := stack
  cases items <;> cases popped
  rfl

theorem popArguments_eq_ok {count : Nat} {args vs : List Value} {stack stack' : Stack}
    (popped : stack.popArguments count args = .ok (vs, stack')) :
    ∃ taken, taken.length = count ∧ vs = taken ++ args ∧
      stack = ⟨stack'.capacity, taken.reverse ++ stack'.items⟩ := by
  induction count generalizing args stack with
  | zero =>
    cases popped
    exact ⟨[], rfl, rfl, rfl⟩
  | succ count ih =>
    obtain ⟨⟨v, below⟩, first, popped⟩ := bind_eq_ok.mp popped
    obtain ⟨taken, rfl, rfl, rfl⟩ := ih popped
    refine ⟨taken ++ [v], by simp, by simp, ?_⟩
    rw [pop_eq_ok first]
    simp

theorem combine_eq_ok {f : Value → Value → Except Error Value} {stack stack' : Stack}
    (combined : combine f stack = .ok stack') :
    ∃ capacity left right result items, stack = ⟨capacity, right :: left :: items⟩ ∧
      f left right = .ok result ∧ stack' = ⟨capacity, result :: items⟩ := by
  obtain ⟨⟨right, stack₁⟩, first, combined⟩ := bind_eq_ok.mp combined
  obtain ⟨⟨left, stack₂⟩, second, combined⟩ := bind_eq_ok.mp combined
  obtain ⟨result, applied, pushed⟩ := bind_eq_ok.mp combined
  rw [pop_eq_ok first, pop_eq_ok second, push_eq_ok pushed]
  exact ⟨stack₂.capacity, left, right, result, stack₂.items, rfl, applied, rfl⟩

/-- A step that succeeds has the effect of its instruction and leaves the capacity alone. -/
theorem step_effect {host : Host σ} {preferDecimal : Bool} {i : Instruction} {stack stack' : Stack}
    {s s' : σ} (ran : (step host preferDecimal i stack).outcome s = (.ok stack', s')) :
    stack'.capacity = stack.capacity ∧
      Effect host preferDecimal i stack.items s stack'.items s' := by
  cases i with
  | pushConstant v =>
    obtain ⟨pushed, rfl⟩ := Run.outcome_lift_eq_ok.mp ran
    rw [push_eq_ok pushed]
    exact ⟨rfl, .pushConstant⟩
  | pushVariable name =>
    obtain ⟨h, s₁, got, ran⟩ := Run.outcome_bind_eq_ok.mp ran
    obtain ⟨v, converted, ran⟩ := Run.outcome_bind_lift_eq_ok.mp ran
    obtain ⟨pushed, rfl⟩ := Run.outcome_lift_eq_ok.mp ran
    rw [push_eq_ok pushed]
    exact ⟨rfl, .pushVariable got converted⟩
  | store name =>
    obtain ⟨v, peeked, ran⟩ := Run.outcome_bind_lift_eq_ok.mp ran
    obtain ⟨⟨⟩, s₁, wrote, same⟩ := Run.outcome_bind_eq_ok.mp ran
    cases same
    rcases stack with ⟨capacity, _ | ⟨v', items⟩⟩ <;> cases peeked
    exact ⟨rfl, .store wrote⟩
  | delete name =>
    obtain ⟨⟨⟩, s₁, deleted, same⟩ := Run.outcome_bind_eq_ok.mp ran
    cases same
    exact ⟨rfl, .delete deleted⟩
  | call name count =>
    obtain ⟨⟨args, stack₁⟩, popped, called⟩ := Run.outcome_bind_lift_eq_ok.mp ran
    obtain ⟨taken, rfl, rfl, rfl⟩ := popArguments_eq_ok popped
    obtain ⟨h, s₁, invoked, returned⟩ := Run.outcome_bind_eq_ok.mp called
    obtain ⟨v, converted, pushing⟩ := Run.outcome_bind_lift_eq_ok.mp returned
    obtain ⟨pushed, rfl⟩ := Run.outcome_lift_eq_ok.mp pushing
    rw [List.append_nil] at invoked
    rw [push_eq_ok pushed]
    exact ⟨rfl, .call invoked converted⟩
  | unary op =>
    obtain ⟨⟨v, stack₁⟩, popped, ran⟩ := Run.outcome_bind_lift_eq_ok.mp ran
    obtain ⟨result, applied, ran⟩ := Run.outcome_bind_lift_eq_ok.mp ran
    obtain ⟨pushed, rfl⟩ := Run.outcome_lift_eq_ok.mp ran
    rw [pop_eq_ok popped, push_eq_ok pushed]
    exact ⟨rfl, .unary applied⟩
  | binary op =>
    obtain ⟨combined, rfl⟩ := Run.outcome_lift_eq_ok.mp ran
    obtain ⟨capacity, left, right, result, items, rfl, applied, rfl⟩ := combine_eq_ok combined
    exact ⟨rfl, @Effect.operation _ _ _ (.number op) _ _ _ _ _ applied⟩
  | word op =>
    obtain ⟨combined, rfl⟩ := Run.outcome_lift_eq_ok.mp ran
    obtain ⟨capacity, left, right, result, items, rfl, applied, rfl⟩ := combine_eq_ok combined
    exact ⟨rfl, @Effect.operation _ _ _ (.word op) _ _ _ _ _ applied⟩
  | unknown text => cases ran

/-- A program under way: the code still to run, the stack and the host's state. -/
structure Configuration (σ : Type) where
  code : List Instruction
  stack : Stack
  state : σ

/-- The configurations that a program goes through, an instruction at a time. -/
inductive Steps (host : Host σ) (preferDecimal : Bool) : Configuration σ → Configuration σ → Prop
  | refl (c : Configuration σ) : Steps host preferDecimal c c
  | next {i : Instruction} {code : List Instruction} {stack stack' : Stack} {s s' : σ}
      {d : Configuration σ} (ran : (step host preferDecimal i stack).outcome s = (.ok stack', s'))
      (rest : Steps host preferDecimal ⟨code, stack', s'⟩ d) :
      Steps host preferDecimal ⟨i :: code, stack, s⟩ d

/-- What every effect keeps, with the code still to run, a run keeps. -/
theorem Steps.keeps {host : Host σ} {preferDecimal : Bool}
    {P : List Instruction → List Value → σ → Prop}
    (kept : ∀ {i code items items' s s'}, Effect host preferDecimal i items s items' s' →
      P (i :: code) items s → P code items' s')
    {c d : Configuration σ} (steps : Steps host preferDecimal c d)
    (holds : P c.code c.stack.items c.state) : P d.code d.stack.items d.state := by
  induction steps with
  | refl c => exact holds
  | next ran rest ih => exact ih (kept (step_effect ran).2 holds)

theorem steps_of_exec {host : Host σ} {preferDecimal : Bool} {code : List Instruction}
    {stack stack' : Stack} {s s' : σ}
    (ran : (exec host preferDecimal code stack).outcome s = (.ok stack', s')) :
    Steps host preferDecimal ⟨code, stack, s⟩ ⟨[], stack', s'⟩ := by
  induction code generalizing stack s with
  | nil =>
    cases ran
    exact .refl _
  | cons i code ih =>
    obtain ⟨stack₁, s₁, first, ran⟩ := Run.outcome_bind_eq_ok.mp ran
    exact .next first (ih ran)

theorem steps_of_run {host : Host σ} {preferDecimal : Bool} {p : Program} {v : Value} {s s' : σ}
    (ran : (run host preferDecimal p).outcome s = (.ok v, s')) :
    ∃ stack, stack.items = [v] ∧
      Steps host preferDecimal ⟨p.code, .empty p.depth, s⟩ ⟨[], stack, s'⟩ := by
  obtain ⟨stack, s₁, executed, taken⟩ := Run.outcome_bind_eq_ok.mp ran
  obtain ⟨result, rfl⟩ := Run.outcome_lift_eq_ok.mp taken
  refine ⟨stack, ?_, steps_of_exec executed⟩
  unfold Stack.result at result
  split at result
  · cases result
    assumption
  · cases result

end Reckoner.Machine
