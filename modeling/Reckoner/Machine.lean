import Reckoner.Arithmetic.Unary
import Reckoner.Instruction

namespace Reckoner

/-- An action on a host's state that may fail and keeps the state when it does. -/
abbrev Run (σ α : Type) := ExceptT Error (StateM σ) α

structure Host (σ : Type) where
  get : String → Run σ HostValue
  set : String → HostValue → Run σ Unit
  delete : String → Run σ Unit
  invoke : String → List HostValue → Run σ HostValue

structure Stack where
  capacity : Int
  items : List Value
  deriving DecidableEq, Repr, Inhabited

namespace Stack

def empty (capacity : Int) : Stack := ⟨capacity, []⟩

def size (s : Stack) : Nat := s.items.length

def push (v : Value) (s : Stack) : Except Error Stack :=
  if s.capacity ≤ s.size then .error (.stack (.overflow s.capacity))
  else .ok { s with items := v :: s.items }

def peek (s : Stack) : Except Error Value :=
  match s.items with
  | [] => .error (.stack .underflow)
  | v :: _ => .ok v

def pop (s : Stack) : Except Error (Value × Stack) :=
  match s.items with
  | [] => .error (.stack .underflow)
  | v :: rest => .ok (v, { s with items := rest })

def popArguments : Nat → List Value → Stack → Except Error (List Value × Stack)
  | 0, args, s => .ok (args, s)
  | n + 1, args, s => do
    let (v, s) ← s.pop
    popArguments n (v :: args) s

def result (s : Stack) : Except Error Value :=
  match s.items with
  | [v] => .ok v
  | items => .error (.stack (.unbalanced items.length))

end Stack

namespace Machine

variable {σ : Type} (host : Host σ) (preferDecimal : Bool)

def combine (f : Value → Value → Except Error Value) (s : Stack) : Except Error Stack := do
  let (right, s) ← s.pop
  let (left, s) ← s.pop
  s.push (← f left right)

def step (i : Instruction) (s : Stack) : Run σ Stack :=
  match i with
  | .pushConstant v => s.push v
  | .pushVariable name => do s.push (← (← host.get name).toValue preferDecimal)
  | .store name => do
    host.set name (.ofValue (← s.peek))
    return s
  | .delete name => do
    host.delete name
    return s
  | .call name count => do
    let (args, s) ← s.popArguments count []
    let result ← host.invoke name (args.map .ofValue)
    s.push (← result.toValue preferDecimal)
  | .unary op => do
    let (v, s) ← s.pop
    s.push (← op.apply preferDecimal v)
  | .binary op => combine (op.apply preferDecimal) s
  | .word op => combine op.apply s
  | .unknown text => throw (.eval (.unknownInstruction text))

def exec : List Instruction → Stack → Run σ Stack
  | [], s => return s
  | i :: rest, s => do exec rest (← step host preferDecimal i s)

def run (p : Program) : Run σ Value := do
  (← exec host preferDecimal p.code (.empty p.depth)).result

end Machine

end Reckoner
