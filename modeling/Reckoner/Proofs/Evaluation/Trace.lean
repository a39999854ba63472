import Reckoner.Proofs.Evaluation.Tree
import Reckoner.Proofs.Postorder

namespace Reckoner

/-- What a program asks of its host. -/
inductive Access
  | get (name : String)
  | set (name : String) (value : HostValue)
  | delete (name : String)
  | invoke (name : String) (arguments : List HostValue)
  deriving BEq, Repr, Inhabited

variable {σ α β : Type}

/-- An action that is recorded before it is done. -/
def Run.recorded (a : Access) (x : Run σ α) : Run (σ × List Access) α := fun (s, accesses) =>
  let (result, s') := x.outcome s
  (result, s', accesses ++ [a])

/-- The host that records every access, in order. -/
def Host.recorded (host : Host σ) : Host (σ × List Access) where
  get name := (host.get name).recorded (.get name)
  set name value := (host.set name value).recorded (.set name value)
  delete name := (host.delete name).recorded (.delete name)
  invoke name args := (host.invoke name args).recorded (.invoke name args)

/-- An action does the same as another one and records its accesses behind those before them. -/
def Run.Records (x : Run σ α) (y : Run (σ × List Access) α) : Prop :=
  ∀ s before, ∃ accesses, y.outcome (s, before) = ((x.outcome s).1, (x.outcome s).2, before ++ accesses)

namespace Run.Records

theorem recorded (a : Access) (x : Run σ α) : x.Records (x.recorded a) :=
  fun _ _ => ⟨[a], rfl⟩

theorem lift (x : Except Error α) : (liftM x : Run σ α).Records (liftM x) := by
  intro s before
  exact ⟨[], by simp⟩

theorem pure (a : α) : (pure a : Run σ α).Records (Pure.pure a) := lift (.ok a)

theorem bind {x : Run σ α} {y : Run (σ × List Access) α} {f : α → Run σ β}
    {g : α → Run (σ × List Access) β} (first : x.Records y) (second : ∀ a, (f a).Records (g a)) :
    (x >>= f).Records (y >>= g) := by
  intro s before
  obtain ⟨accesses, ran⟩ := first s before
  rw [outcome_bind, outcome_bind, ran]
  rcases x.outcome s with ⟨e | a, s'⟩
  · exact ⟨accesses, rfl⟩
  · obtain ⟨more, ran'⟩ := second a s' (before ++ accesses)
    exact ⟨accesses ++ more, by rw [← List.append_assoc]; exact ran'⟩

end Run.Records

namespace Machine

variable (host : Host σ) (preferDecimal : Bool)

theorem step_records (i : Instruction) (stack : Stack) :
    (step host preferDecimal i stack).Records (step host.recorded preferDecimal i stack) := by
  cases i with
  | pushConstant v => exact .lift _
  | pushVariable name => exact .bind (.recorded _ _) fun _ => .bind (.lift _) fun _ => .lift _
  | store name => exact .bind (.lift _) fun _ => .bind (.recorded _ _) fun _ => .pure _
  | delete name => exact .bind (.recorded _ _) fun _ => .pure _
  | call name count =>
    exact .bind (.lift _) fun _ => .bind (.recorded _ _) fun _ => .bind (.lift _) fun _ => .lift _
  | unary op => exact .bind (.lift _) fun _ => .bind (.lift _) fun _ => .lift _
  | binary op => exact .lift _
  | word op => exact .lift _
  | unknown text => exact .lift (.error _)

theorem exec_records (code : List Instruction) (stack : Stack) :
    (exec host preferDecimal code stack).Records (exec host.recorded preferDecimal code stack) := by
  induction code generalizing stack with
  | nil => exact .pure _
  | cons i code ih => exact .bind (step_records host preferDecimal i stack) ih

theorem run_records (p : Program) :
    (run host preferDecimal p).Records (run host.recorded preferDecimal p) :=
  .bind (exec_records host preferDecimal p.code _) fun _ => .lift _

theorem exec_fails {code : List Instruction} {stack : Stack} {fault : Error} {s s' : σ}
    (failed : (exec host preferDecimal code stack).outcome s = (.error fault, s')) :
    ∃ done i rest stack₁ s₁, code = done ++ i :: rest ∧
      (exec host preferDecimal done stack).outcome s = (.ok stack₁, s₁) ∧
      (step host preferDecimal i stack₁).outcome s₁ = (.error fault, s') := by
  induction code generalizing stack s with
  | nil => cases failed
  | cons i code ih =>
    rw [exec, Run.outcome_bind] at failed
    cases ran : (step host preferDecimal i stack).outcome s with
    | mk result s₁ =>
      rw [ran] at failed
      cases result with
      | error fault' =>
        cases failed
        exact ⟨[], i, code, stack, s, rfl, rfl, ran⟩
      | ok stack₁ =>
        obtain ⟨done, j, rest, stack₂, s₂, rfl, before, fails⟩ := ih failed
        refine ⟨i :: done, j, rest, stack₂, s₂, rfl, ?_, fails⟩
        rw [exec, Run.outcome_bind_of_ok ran]
        exact before

end Machine

/-- Compiled code and the evaluation of its tree come to the same result, leave the same state and
    make the same accesses in the same order. Where they fail, exactly the instructions before
    one have been done, and this one fails. -/
theorem run_postorder (host : Host σ) (preferDecimal : Bool) (e : Expr) (s : σ) :
    ∃ result s' accesses,
      (Machine.run host preferDecimal ⟨e.postorder, e.depth⟩).outcome s = (result, s') ∧
      (e.evaluate host preferDecimal).outcome s = (result, s') ∧
      (Machine.run host.recorded preferDecimal ⟨e.postorder, e.depth⟩).outcome (s, []) =
        (result, s', accesses) ∧
      (e.evaluate host.recorded preferDecimal).outcome (s, []) = (result, s', accesses) ∧
      ∀ fault, result = .error fault → ∃ done i rest stack s₁,
        e.postorder = done ++ i :: rest ∧
        (Machine.exec host.recorded preferDecimal done (.empty e.depth)).outcome (s, []) =
          (.ok stack, s₁) ∧
        (Machine.step host.recorded preferDecimal i stack).outcome s₁ =
          (.error fault, s', accesses) := by
  have compiled : (⟨e.postorder, e.depth⟩ : Program) = e.program := by
    rw [Expr.program, e.code_eq_postorder]
  rw [compiled]
  obtain ⟨accesses, recorded⟩ := Machine.run_records host preferDecimal e.program s []
  rw [Expr.run_program, Expr.run_program] at recorded
  rw [Expr.run_program, Expr.run_program]
  cases ran : (e.evaluate host preferDecimal).outcome s with
  | mk result s' =>
    rw [ran] at recorded
    refine ⟨result, s', accesses, rfl, rfl, recorded, recorded, ?_⟩
    rintro fault rfl
    have code := Expr.exec_code host.recorded preferDecimal e
    rw [e.code_eq_postorder] at code
    refine Machine.exec_fails host.recorded preferDecimal ?_
    rw [code]
    exact Run.outcome_bind_of_error recorded _

end Reckoner
