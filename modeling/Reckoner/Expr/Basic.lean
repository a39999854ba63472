import Reckoner.Operator
import Reckoner.Value.Basic

namespace Reckoner

inductive Operation
  | number (op : BinaryOp)
  | word (op : WordOp)
  deriving DecidableEq, Repr, Inhabited

/-- A formula as a tree. `read` is the value of a variable and `remove` deletes the variable
    after that; `assign` has the value of its right side. -/
inductive Expr
  | constant (v : Value)
  | read (name : String)
  | remove (name : String)
  | assign (name : String) (value : Expr)
  | call (name : String) (arguments : List Expr)
  | unary (op : UnaryOp) (operand : Expr)
  | binary (op : Operation) (left right : Expr)
  deriving Repr, Inhabited

end Reckoner
