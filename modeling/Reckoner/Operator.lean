namespace Reckoner

inductive UnaryOp
  | negate
  | complement
  | factorial
  deriving DecidableEq, Repr, Inhabited

inductive BinaryOp
  | add
  | subtract
  | multiply
  | divide
  | root
  | power
  deriving DecidableEq, Repr, Inhabited

inductive WordOp
  | modulo
  | divide
  | shiftLeft
  | shiftRight
  | bitAnd
  | bitOr
  | bitXor
  deriving DecidableEq, Repr, Inhabited

def UnaryOp.title : UnaryOp → String
  | negate => "Negate"
  | complement => "Complement"
  | factorial => "Factorial"

def BinaryOp.title : BinaryOp → String
  | add => "Add"
  | subtract => "Subtract"
  | multiply => "Multiply"
  | divide => "Divide"
  | root => "Root"
  | power => "Power"

def WordOp.title : WordOp → String
  | modulo => "Modulo"
  | divide => "IntegerDivide"
  | shiftLeft => "ShiftLeft"
  | shiftRight => "ShiftRight"
  | bitAnd => "BitAnd"
  | bitOr => "BitOr"
  | bitXor => "BitXor"

end Reckoner
