import Reckoner.Expr.Code
import Reckoner.Proofs.Evaluation.Outcome

namespace Reckoner

variable {σ α β : Type}

def Operation.apply (preferDecimal : Bool) : Operation → Value → Value → Except Error Value
  | number op => op.apply preferDecimal
  | word op => op.apply

namespace Expr

variable (host : Host σ) (preferDecimal : Bool)

mutual

/-- The value of a tree: operands and arguments from left to right, then the operation. -/
def evaluate : Expr → Run σ Value
  | constant v => return v
  | read name => do (← host.get name).toValue preferDecimal
  | remove name => do
    let v ← (← host.get name).toValue preferDecimal
    host.delete name
    return v
  | assign name e => do
    let v ← evaluate e
    host.set name (.ofValue v)
    return v
  | call name args => do
    let vs ← evaluateAll args
    (← host.invoke name (vs.map .ofValue)).toValue preferDecimal
  | unary op e => do op.apply preferDecimal (← evaluate e)
  | binary op left right => do
    let l ← evaluate left
    let r ← evaluate right
    op.apply preferDecimal l r

def evaluateAll : List Expr → Run σ (List Value)
  | [] => return []
  | e :: es => do
    let v ← evaluate e
    let vs ← evaluateAll es
    return v :: vs

end

end Expr

theorem Stack.push_of_room {capacity : Int} {items : List Value} (room : items.length < capacity)
    (v : Value) : Stack.push v ⟨capacity, items⟩ = .ok ⟨capacity, v :: items⟩ :=
  if_neg (by simpa [size] using room)

theorem Stack.popArguments_append (capacity : Int) (vs args items : List Value) :
    Stack.popArguments vs.length args ⟨capacity, vs ++ items⟩ =
      .ok (vs.reverse ++ args, ⟨capacity, items⟩) := by
  induction vs generalizing args with
  | nil => rfl
  | cons v vs ih => exact (ih (v :: args)).trans (by simp)

namespace Machine

section

variable (host : Host σ) (preferDecimal : Bool) {capacity : Int} {items : List Value}

theorem step_pushConstant (room : items.length < capacity) (v : Value) :
    step host preferDecimal (.pushConstant v) ⟨capacity, items⟩ =
      pure ⟨capacity, v :: items⟩ := by
  simp only [step, Stack.push_of_room room, Run.lift_ok]

theorem step_pushVariable (room : items.length < capacity) (name : String) :
    step host preferDecimal (.pushVariable name) ⟨capacity, items⟩ = do
      let v ← (← host.get name).toValue preferDecimal
      return ⟨capacity, v :: items⟩ := by
  simp only [step, Stack.push_of_room room, Run.lift_ok]

theorem step_store (v : Value) (name : String) :
    step host preferDecimal (.store name) ⟨capacity, v :: items⟩ = do
      host.set name (.ofValue v)
      return ⟨capacity, v :: items⟩ := by
  simp only [step, Stack.peek, Run.lift_ok, pure_bind]

theorem step_delete (name : String) :
    step host preferDecimal (.delete name) ⟨capacity, items⟩ = do
      host.delete name
      return ⟨capacity, items⟩ := rfl

theorem step_call (room : items.length < capacity) (name : String) (vs : List Value) :
    step host preferDecimal (.call name vs.length) ⟨capacity, vs.reverse ++ items⟩ = do
      let v ← (← host.invoke name (vs.map .ofValue)).toValue preferDecimal
      return ⟨capacity, v :: items⟩ := by
  have popped := Stack.popArguments_append capacity vs.reverse [] items
  rw [List.length_reverse, List.reverse_reverse, List.append_nil] at popped
  simp only [step, popped, Stack.push_of_room room, Run.lift_ok, pure_bind]

theorem step_unary (room : items.length < capacity) (op : UnaryOp) (v : Value) :
    step host preferDecimal (.unary op) ⟨capacity, v :: items⟩ = do
      let result ← op.apply preferDecimal v
      return ⟨capacity, result :: items⟩ := by
  simp only [step, Stack.pop, Stack.push_of_room room, Run.lift_ok, pure_bind]

theorem combine_of_room (room : items.length < capacity)
    (f : Value → Value → Except Error Value) (left right : Value) :
    (liftM (combine f ⟨capacity, right :: left :: items⟩) : Run σ Stack) = do
      let result ← f left right
      return ⟨capacity, result :: items⟩ := by
  have combined : combine f ⟨capacity, right :: left :: items⟩ =
      f left right >>= fun result => Stack.push result ⟨capacity, items⟩ := rfl
  simp only [combined, Run.lift_bind, Stack.push_of_room room, Run.lift_ok]

theorem step_operation (room : items.length < capacity) (op : Operation) (left right : Value) :
    step host preferDecimal op.instruction ⟨capacity, right :: left :: items⟩ = do
      let result ← op.apply preferDecimal left right
      return ⟨capacity, result :: items⟩ := by
  cases op with
  | number op => exact combine_of_room room (op.apply preferDecimal) left right
  | word op => exact combine_of_room room op.apply left right

end

end Machine

namespace Expr

variable (host : Host σ) (preferDecimal : Bool)

theorem depth_pos : (e : Expr) → 0 < e.depth
  | constant _ | read _ | remove _ => Nat.one_pos
  | assign _ e | unary _ e => e.depth_pos
  | call _ _ => by simp only [depth]; omega
  | binary _ left _ => by
    have positive := left.depth_pos
    simp only [depth]
    omega

theorem evaluateAll_length {es : List Expr} {vs : List Value} {s s' : σ}
    (ran : (evaluateAll host preferDecimal es).outcome s = (.ok vs, s')) :
    vs.length = es.length := by
  induction es generalizing vs s s' with
  | nil =>
    cases ran
    rfl
  | cons e es ih =>
    obtain ⟨v, s₁, _, ran⟩ := Run.outcome_bind_eq_ok.mp ran
    obtain ⟨us, s₂, others, same⟩ := Run.outcome_bind_eq_ok.mp ran
    cases same
    exact congrArg Nat.succ (ih others)

mutual

/-- With room on the stack, the code of a tree adds the value of the tree and goes on. -/
theorem exec_emit (e : Expr) (rest : List Instruction) {capacity : Int} {items : List Value}
    (room : items.length + e.depth ≤ capacity) :
    Machine.exec host preferDecimal (e.emit rest) ⟨capacity, items⟩ =
      e.evaluate host preferDecimal >>= fun v =>
        Machine.exec host preferDecimal rest ⟨capacity, v :: items⟩ := by
  cases e with
  | constant v =>
    have room : items.length < capacity := by simp only [depth] at room; omega
    simp only [emit, evaluate, Machine.exec, Machine.step_pushConstant host preferDecimal room, pure_bind]
  | read name =>
    have room : items.length < capacity := by simp only [depth] at room; omega
    simp only [emit, evaluate, Machine.exec, Machine.step_pushVariable host preferDecimal room,
      bind_assoc, pure_bind]
  | remove name =>
    have room : items.length < capacity := by simp only [depth] at room; omega
    simp only [emit, evaluate, Machine.exec, Machine.step_pushVariable host preferDecimal room,
      Machine.step_delete, bind_assoc, pure_bind]
  | assign name e =>
    have room : items.length + e.depth ≤ capacity := room
    simp only [emit, evaluate, exec_emit e _ room, Machine.exec, Machine.step_store, bind_assoc, pure_bind]
  | call name args =>
    simp only [depth] at room
    have arguments : items.length + depthAll args ≤ capacity := by omega
    have room : items.length < capacity := by omega
    rw [emit, evaluate, exec_emitAll args _ arguments, bind_assoc]
    apply Run.bind_congr
    intro s vs s' ran
    rw [← evaluateAll_length host preferDecimal ran]
    simp only [Machine.exec, Machine.step_call host preferDecimal room, bind_assoc, pure_bind]
  | unary op e =>
    have room : items.length + e.depth ≤ capacity := room
    have positive := e.depth_pos
    have room' : items.length < capacity := by omega
    simp only [emit, evaluate, exec_emit e _ room, Machine.exec,
      Machine.step_unary host preferDecimal room', bind_assoc, pure_bind]
  | binary op left right =>
    simp only [depth] at room
    have first : items.length + left.depth ≤ capacity := by omega
    have second : ∀ v : Value, (v :: items).length + right.depth ≤ capacity := by
      intro v
      simp only [List.length_cons]
      omega
    have room' : items.length < capacity := by omega
    simp only [emit, evaluate, exec_emit left _ first, exec_emit right _ (second _), Machine.exec,
      Machine.step_operation host preferDecimal room', bind_assoc, pure_bind]

theorem exec_emitAll (es : List Expr) (rest : List Instruction) {capacity : Int} {items : List Value}
    (room : items.length + depthAll es ≤ capacity) :
    Machine.exec host preferDecimal (emitAll es rest) ⟨capacity, items⟩ =
      evaluateAll host preferDecimal es >>= fun vs =>
        Machine.exec host preferDecimal rest ⟨capacity, vs.reverse ++ items⟩ := by
  cases es with
  | nil => simp only [emitAll, evaluateAll, pure_bind, List.reverse_nil, List.nil_append]
  | cons e es =>
    simp only [depthAll] at room
    have first : items.length + e.depth ≤ capacity := by omega
    have others : ∀ v : Value, (v :: items).length + depthAll es ≤ capacity := by
      intro v
      simp only [List.length_cons]
      omega
    simp only [emitAll, evaluateAll, exec_emit e _ first, exec_emitAll es _ (others _), bind_assoc,
      pure_bind, List.reverse_cons, List.append_assoc, List.singleton_append]

end

theorem exec_code (e : Expr) :
    Machine.exec host preferDecimal e.code (.empty e.depth) =
      e.evaluate host preferDecimal >>= fun v => pure ⟨e.depth, [v]⟩ :=
  exec_emit host preferDecimal e [] (by simp)

theorem run_program (e : Expr) :
    Machine.run host preferDecimal e.program = e.evaluate host preferDecimal := by
  simp only [Machine.run, program, exec_code, bind_assoc, pure_bind, Stack.result, Run.lift_ok,
    bind_pure]

end Expr

end Reckoner
