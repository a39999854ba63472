import Reckoner.Expr.Basic
import Reckoner.Instruction

namespace Reckoner

def Operation.instruction : Operation → Instruction
  | number op => .binary op
  | word op => .word op

namespace Expr

mutual

def emit : Expr → List Instruction → List Instruction
  | constant v, rest => .pushConstant v :: rest
  | read name, rest => .pushVariable name :: rest
  | remove name, rest => .pushVariable name :: .delete name :: rest
  | assign name e, rest => emit e (.store name :: rest)
  | call name args, rest => emitAll args (.call name args.length :: rest)
  | unary op e, rest => emit e (.unary op :: rest)
  | binary op left right, rest => emit left (emit right (op.instruction :: rest))

def emitAll : List Expr → List Instruction → List Instruction
  | [], rest => rest
  | e :: es, rest => emit e (emitAll es rest)

end

def code (e : Expr) : List Instruction := e.emit []

mutual

def depth : Expr → Nat
  | constant _ => 1
  | read _ => 1
  | remove _ => 1
  | assign _ e => depth e
  | call _ args => max 1 (depthAll args)
  | unary _ e => depth e
  | binary _ left right => max (depth left) (depth right + 1)

def depthAll : List Expr → Nat
  | [] => 0
  | e :: es => max (depth e) (depthAll es + 1)

end

def program (e : Expr) : Program := ⟨e.code, e.depth⟩

end Expr

end Reckoner
