import Reckoner.Operator
import Reckoner.Text.Positional
import Reckoner.Value.Basic

namespace Reckoner

/-- `store` writes the top of the stack to a variable and leaves it there; `delete` does not
    touch the stack; `call` takes the number of its arguments. An unknown instruction can stand
    in a program but not run. -/
inductive Instruction
  | pushConstant (v : Value)
  | pushVariable (name : String)
  | store (name : String)
  | delete (name : String)
  | call (name : String) (count : Nat)
  | unary (op : UnaryOp)
  | binary (op : BinaryOp)
  | word (op : WordOp)
  | unknown (text : String)
  deriving DecidableEq, Repr, Inhabited

def Instruction.toText : Instruction → String
  | pushConstant v => "Push " ++ v.toText
  | pushVariable name => "Push " ++ name
  | store name => "Store " ++ name
  | delete name => "Delete " ++ name
  | call name count => "Call " ++ name ++ "@" ++ Text.natText count
  | unary op => op.title
  | binary op => op.title
  | word op => op.title
  | unknown text => text

structure Program where
  code : List Instruction
  depth : Int
  deriving DecidableEq, Repr, Inhabited

def Program.listing (p : Program) : List String :=
  ("maxstack " ++ Text.intText p.depth) :: p.code.map Instruction.toText

end Reckoner
