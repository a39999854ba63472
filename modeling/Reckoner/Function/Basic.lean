import Reckoner.Entries
import Reckoner.Error

namespace Reckoner

structure Signature where
  name : String
  low : Nat
  high : Nat
  deriving DecidableEq, Repr

structure Function where
  label : Option String
  signature : Option Signature
  body : List HostValue → Except Error HostValue
  deriving Inhabited

namespace Function

def accept (f : Function) (args : List HostValue) : Except Error Unit :=
  match f.signature with
  | none => .ok ()
  | some s =>
    if s.low ≤ args.length ∧ args.length ≤ s.high then .ok ()
    else .error (.call s.name (.arity s.low s.high))

def apply (f : Function) (args : List HostValue) : Except Error HostValue := do
  f.accept args
  f.body args

end Function

inductive Member
  | constant (v : HostValue)
  | function (f : Function)
  deriving Inhabited

def Member.value : Member → HostValue
  | constant v => v
  | function _ => .function

end Reckoner
