import Reckoner.Proofs.Evaluation.Tree

namespace Reckoner

namespace Instruction

/-- How many values an instruction takes off the stack or looks at. -/
def operands : Instruction → Nat
  | store _ | unary _ => 1
  | call _ count => count
  | binary _ | word _ => 2
  | _ => 0

def heightAfter (i : Instruction) (height : Nat) : Nat :=
  match i with
  | pushConstant _ | pushVariable _ => height + 1
  | call _ count => height - count + 1
  | binary _ | word _ => height - 1
  | _ => height

end Instruction

def peak (height : Nat) : List Instruction → Nat
  | [] => height
  | i :: rest => max height (peak (i.heightAfter height) rest)

def Balanced (height : Nat) : List Instruction → Prop
  | [] => height = 1
  | i :: rest => i.operands ≤ height ∧ Balanced (i.heightAfter height) rest

theorem le_peak (height : Nat) (code : List Instruction) : height ≤ peak height code := by
  cases code with
  | nil => exact Nat.le_refl _
  | cons i rest => exact Nat.le_max_left ..

theorem Operation.operands_instruction (op : Operation) : op.instruction.operands = 2 := by
  cases op <;> rfl

theorem Operation.heightAfter_instruction (op : Operation) (height : Nat) :
    op.instruction.heightAfter height = height - 1 := by
  cases op <;> rfl

namespace Expr

theorem length_le_depthAll (es : List Expr) : es.length ≤ depthAll es := by
  induction es with
  | nil => exact Nat.le_refl _
  | cons e es ih =>
    simp only [depthAll, List.length_cons]
    omega

mutual

theorem peak_emit (e : Expr) (rest : List Instruction) (height : Nat) :
    peak height (e.emit rest) = max (height + e.depth) (peak (height + 1) rest) := by
  have above := le_peak (height + 1) rest
  cases e with
  | constant v | read name =>
    simp only [emit, peak, Instruction.heightAfter, depth]
    omega
  | remove name =>
    simp only [emit, peak, Instruction.heightAfter, depth]
    omega
  | assign name e | unary op e =>
    have positive := e.depth_pos
    simp only [emit, peak_emit e, peak, Instruction.heightAfter, depth]
    omega
  | call name args =>
    have wide := length_le_depthAll args
    simp only [emit, peak_emitAll args, peak, Instruction.heightAfter, depth, Nat.add_sub_cancel]
    omega
  | binary op left right =>
    have positive := right.depth_pos
    simp only [emit, peak_emit left, peak_emit right, peak, Operation.heightAfter_instruction, depth,
      Nat.add_sub_cancel]
    omega

theorem peak_emitAll (es : List Expr) (rest : List Instruction) (height : Nat) :
    peak height (emitAll es rest) = max (height + depthAll es) (peak (height + es.length) rest) := by
  cases es with
  | nil =>
    have above := le_peak height rest
    simp only [emitAll, depthAll, List.length_nil, Nat.add_zero]
    omega
  | cons e es =>
    simp only [emitAll, peak_emit e, peak_emitAll es, depthAll, List.length_cons,
      Nat.add_right_comm height 1, Nat.add_assoc height]
    omega

end

mutual

theorem balanced_emit (e : Expr) {rest : List Instruction} {height : Nat}
    (balanced : Balanced (height + 1) rest) : Balanced height (e.emit rest) := by
  cases e with
  | constant v | read name => exact ⟨Nat.zero_le _, balanced⟩
  | remove name => exact ⟨Nat.zero_le _, Nat.zero_le _, balanced⟩
  | assign name e | unary op e => exact balanced_emit e ⟨Nat.succ_le_succ (Nat.zero_le _), balanced⟩
  | call name args =>
    refine balanced_emitAll args ⟨Nat.le_add_left .., ?_⟩
    rwa [Instruction.heightAfter, Nat.add_sub_cancel]
  | binary op left right =>
    refine balanced_emit left (balanced_emit right ⟨?_, ?_⟩)
    · rw [Operation.operands_instruction]
      omega
    · rwa [Operation.heightAfter_instruction, Nat.add_sub_cancel]

theorem balanced_emitAll (es : List Expr) {rest : List Instruction} {height : Nat}
    (balanced : Balanced (height + es.length) rest) : Balanced height (emitAll es rest) := by
  cases es with
  | nil => exact balanced
  | cons e es =>
    refine balanced_emit e (balanced_emitAll es ?_)
    rwa [List.length_cons, Nat.add_comm es.length, ← Nat.add_assoc] at balanced

end

theorem peak_code (e : Expr) : peak 0 e.code = e.depth := by
  have positive := e.depth_pos
  rw [code, peak_emit]
  simp only [peak]
  omega

theorem balanced_code (e : Expr) : Balanced 0 e.code := balanced_emit e rfl

end Expr

end Reckoner
