import Reckoner.Function.Basic
import Reckoner.Value.Convert

namespace Reckoner.HostValue

inductive Number
  | whole (n : Int)
  | decimal (d : Decimal)
  | double (x : Float)
  deriving DecidableEq, Repr

def Number.value : Number → HostValue
  | whole n => .integer n
  | decimal d => .decimal d
  | double x => .double x

def ofBool (b : Bool) : Int := if b then 1 else 0

def number? : HostValue → Option Number
  | none => some (.whole 0)
  | bool b => some (.whole (ofBool b))
  | integer n => some (.whole n)
  | decimal d => some (.decimal d)
  | double x => some (.double x)
  | _ => .none

def toNumber (v : HostValue) : Except Error Number :=
  match v.number? with
  | some n => .ok n
  | .none => .error .badKind

def Number.toDouble : Number → Except Error Float
  | whole n =>
    match Binary64.ofInt? n with
    | some x => .ok x
    | .none => .error (.range .wholeToDouble)
  | decimal d => doubleOfDecimal d
  | double x => .ok x

def asDouble : HostValue → Except Error Float
  | text s =>
    match Binary64.ofText? s with
    | some x => .ok x
    | .none => .error (.badValue (.notDouble s))
  | v => v.toNumber >>= Number.toDouble

def asWhole : HostValue → Except Error Int
  | text s =>
    match Text.lenientInt? s with
    | some n => .ok n
    | .none => .error (.badValue (.notWhole s))
  | none => .error .badKind
  | v => do
    match ← v.toNumber with
    | .whole n => return n
    | .decimal d =>
      match d.toInt? .down with
      | some n => return n
      | .none => throw (if d.isNan then .badValue .nanToWhole else .range .infinityToWhole)
    | .double x =>
      match Binary64.toInt? .down x with
      | some n => return n
      | .none => throw (if Binary64.isNan x then .badValue .nanToWhole else .range .infinityToWhole)

def exactly (r : Except Decimal.Signal Decimal) : Except Error HostValue :=
  (r.mapError .decimal).map decimal

end Reckoner.HostValue
