import Reckoner.Expr.Code

namespace Reckoner

namespace Expr

mutual

/-- The instructions of a tree: operands and arguments from left to right, then the operation. -/
def postorder : Expr → List Instruction
  | constant v => [.pushConstant v]
  | read name => [.pushVariable name]
  | remove name => [.pushVariable name, .delete name]
  | assign name e => postorder e ++ [.store name]
  | call name args => postorderAll args ++ [.call name args.length]
  | unary op e => postorder e ++ [.unary op]
  | binary op left right => postorder left ++ postorder right ++ [op.instruction]

def postorderAll : List Expr → List Instruction
  | [] => []
  | e :: es => postorder e ++ postorderAll es

end

mutual

theorem emit_eq_postorder (e : Expr) (rest : List Instruction) :
    e.emit rest = e.postorder ++ rest := by
  cases e with
  | constant v => rfl
  | read name => rfl
  | remove name => rfl
  | assign name e => simp [emit, postorder, emit_eq_postorder e]
  | call name args => simp [emit, postorder, emitAll_eq_postorderAll args]
  | unary op e => simp [emit, postorder, emit_eq_postorder e]
  | binary op left right =>
    simp [emit, postorder, emit_eq_postorder left, emit_eq_postorder right]

theorem emitAll_eq_postorderAll (es : List Expr) (rest : List Instruction) :
    emitAll es rest = postorderAll es ++ rest := by
  cases es with
  | nil => rfl
  | cons e es => simp [emitAll, postorderAll, emit_eq_postorder e, emitAll_eq_postorderAll es]

end

theorem code_eq_postorder (e : Expr) : e.code = e.postorder := by
  rw [code, emit_eq_postorder, List.append_nil]

end Expr

end Reckoner
