import Reckoner.Proofs.Evaluation.Agreement
import Reckoner.Proofs.Evaluation.Effect
import Reckoner.Proofs.Evaluation.Trace
import Reckoner.Proofs.Modes.Operators

namespace Reckoner

/-- Nothing on the stack but whole numbers of 64 bits. -/
def Stack.Whole (s : Stack) : Prop := ∀ v ∈ s.items, v.Whole

namespace Machine

variable {σ : Type} (host : Host σ) (preferDecimal : Bool)

def SameIfWhole (s t : Stack) : Prop := s.Whole → s = t

theorem push_sameIfWhole {v w : Value} (s : Stack) (same : v.Whole ∨ w.Whole → v = w) :
    Agree SameIfWhole (s.push v) (s.push w) := by
  unfold Stack.push
  split
  · rfl
  · intro whole
    obtain rfl := same (.inl (whole v List.mem_cons_self))
    rfl

theorem pushing_agrees {x y : Except Error Value} (coincide : Coincide x y) (s : Stack) :
    Agree SameIfWhole (x >>= s.push) (y >>= s.push) :=
  coincide.bind fun _ _ same => push_sameIfWhole s same

theorem combine_modes {f g : Value → Value → Except Error Value} {s : Stack} (whole : s.Whole)
    (coincide : ∀ v w, v.Whole → w.Whole → Coincide (f v w) (g v w)) :
    Agree SameIfWhole (combine f s) (combine g s) := by
  rcases s with ⟨capacity, _ | ⟨right, _ | ⟨left, items⟩⟩⟩
  · rfl
  · rfl
  · have second : right.Whole := whole right List.mem_cons_self
    have first : left.Whole := whole left (List.mem_cons_of_mem _ List.mem_cons_self)
    exact pushing_agrees (coincide left right first second) ⟨capacity, items⟩

/-- The next instruction takes a value from the host. -/
inductive Takes : Configuration σ → HostValue → Prop
  | read {name : String} {code : List Instruction} {stack : Stack} {s s' : σ} {h : HostValue}
      (got : (host.get name).outcome s = (.ok h, s')) : Takes ⟨.pushVariable name :: code, stack, s⟩ h
  | result {name : String} {count : Nat} {code : List Instruction} {stack below : Stack}
      {args : List Value} {s s' : σ} {h : HostValue}
      (popped : stack.popArguments count [] = .ok (args, below))
      (invoked : (host.invoke name (args.map .ofValue)).outcome s = (.ok h, s')) :
      Takes ⟨.call name count :: code, stack, s⟩ h

/-- On a stack of whole numbers an instruction does the same in both modes, up to the value that it
    leaves if that is no whole number, and as long as both convert what it takes from the host. -/
theorem step_modes (i : Instruction) {code : List Instruction} {stack : Stack} {s : σ}
    (whole : stack.Whole) (convertible : ∀ h, Takes host ⟨i :: code, stack, s⟩ h → h.Convertible) :
    (step host preferDecimal i stack).AgreesAt SameIfWhole (step host (!preferDecimal) i stack) s := by
  have converted {h : HostValue} (both : h.Convertible) :
      Coincide (h.toValue preferDecimal) (h.toValue !preferDecimal) :=
    .modes (fun b => h.toValue b) (HostValue.toValue_coincides both) preferDecimal
  have push {x y : Except Error Value} (coincide : Coincide x y) (below : Stack) (s : σ) :
      (do below.push (← x) : Run σ Stack).AgreesAt SameIfWhole (do below.push (← y)) s :=
    ((Run.Agrees.lift coincide).bind fun _ _ same => .lift (push_sameIfWhole below same)).atState s
  cases i with
  | pushConstant v => exact (Run.Agrees.lift (.of_eq fun _ _ => rfl)).atState s
  | pushVariable name =>
    exact .after fun h s' got => push (converted (convertible h (.read got))) stack s'
  | store name => exact (Run.Agrees.of_eq fun _ _ => rfl).atState s
  | delete name => exact (Run.Agrees.of_eq fun _ _ => rfl).atState s
  | call name count =>
    refine .after fun popped s₁ took => ?_
    obtain ⟨popped, rfl⟩ := Run.outcome_lift_eq_ok.mp took
    refine .after fun h s' invoked => ?_
    exact push (converted (convertible h (.result popped invoked))) _ s'
  | unary op =>
    rcases stack with ⟨capacity, _ | ⟨v, items⟩⟩
    · exact ⟨rfl, rfl⟩
    · have operand : v.Whole := whole v List.mem_cons_self
      exact push (.modes (op.apply · v) (op.apply_coincides operand) preferDecimal) ⟨capacity, items⟩ s
  | binary op =>
    exact (Run.Agrees.lift (combine_modes whole fun v w left right =>
      .modes (op.apply · v w) (op.apply_coincides left right) preferDecimal)).atState s
  | word op => exact (Run.Agrees.lift (combine_modes whole fun v w _ _ => .refl _)).atState s
  | unknown text => exact ⟨rfl, rfl⟩

/-- A run that keeps nothing but whole numbers on the stack, up to its end or its error, is the same
    in the other mode, as long as both convert what it takes from the host. -/
theorem exec_modes {code : List Instruction} {stack : Stack} {s : σ}
    (whole : ∀ c, Steps host preferDecimal ⟨code, stack, s⟩ c →
      c.stack.Whole ∧ ∀ h, Takes host c h → h.Convertible) :
    (exec host (!preferDecimal) code stack).outcome s =
      (exec host preferDecimal code stack).outcome s := by
  induction code generalizing stack s with
  | nil => rfl
  | cons i code ih =>
    obtain ⟨results, states⟩ :=
      step_modes host preferDecimal i (whole _ (.refl _)).1 (whole _ (.refl _)).2
    rw [exec, exec, Run.outcome_bind, Run.outcome_bind]
    cases ran : (step host preferDecimal i stack).outcome s with
    | mk result s' =>
      cases ran' : (step host (!preferDecimal) i stack).outcome s with
      | mk result' s'' =>
        rw [ran, ran'] at results states
        obtain rfl : s' = s'' := states
        cases result with
        | error fault =>
          cases result' with
          | error fault' =>
            obtain rfl : fault = fault' := results
            rfl
          | ok stack'' => cases results
        | ok stack' =>
          cases result' with
          | error fault' => cases results
          | ok stack'' =>
            -- a value in which the modes differ is no whole number, and none is on the stack
            obtain rfl : stack' = stack'' := results (whole _ (.next ran (.refl _))).1
            exact ih fun c steps => whole c (.next ran steps)

theorem run_modes {p : Program} {s : σ}
    (whole : ∀ c, Steps host preferDecimal ⟨p.code, .empty p.depth, s⟩ c →
      c.stack.Whole ∧ ∀ h, Takes host c h → h.Convertible) :
    (run host (!preferDecimal) p).outcome s = (run host preferDecimal p).outcome s := by
  rw [run, run, Run.outcome_bind, Run.outcome_bind, exec_modes host preferDecimal whole]

theorem Steps.of_recorded {c d : Configuration (σ × List Access)}
    (steps : Steps host.recorded preferDecimal c d) :
    Steps host preferDecimal ⟨c.code, c.stack, c.state.1⟩ ⟨d.code, d.stack, d.state.1⟩ := by
  induction steps with
  | refl => exact .refl _
  | @next i code stack stack' s s' d ran rest ih =>
    obtain ⟨accesses, recorded⟩ := step_records host preferDecimal i stack s.1 s.2
    refine .next ?_ ih
    rw [ran] at recorded
    exact Prod.ext (congrArg Prod.fst recorded).symm (congrArg (·.2.1) recorded).symm

theorem Takes.of_recorded {c : Configuration (σ × List Access)} {h : HostValue}
    (takes : Takes host.recorded c h) : Takes host ⟨c.code, c.stack, c.state.1⟩ h := by
  have outcome {a : Access} {x : Run σ HostValue} {s : σ × List Access} {s'}
      (took : (x.recorded a).outcome s = (.ok h, s')) : x.outcome s.1 = (.ok h, s'.1) := by
    obtain ⟨accesses, recorded⟩ := Run.Records.recorded a x s.1 s.2
    rw [took] at recorded
    exact Prod.ext (congrArg Prod.fst recorded).symm (congrArg (·.2.1) recorded).symm
  cases takes with
  | read got => exact .read (outcome got)
  | result popped invoked => exact .result popped (outcome invoked)

end Machine

end Reckoner
