import Reckoner.Error
import Reckoner.Decimal.Arithmetic

namespace Reckoner

/-- The decimal that a double's text denotes, in the engine's context. -/
def decimalOfDouble (x : Float) : Except Decimal.Signal Decimal :=
  Decimal.Context.engine.round (Binary64.toDecimal x)

def doubleOfDecimal (d : Decimal) : Except Error Float :=
  if d.isSignaling then .error (.badValue .signalingToDouble) else .ok (Binary64.ofDecimal d)

namespace Value

def checkedWord (v : Value) : Option Int → Except Error Int
  | none => .error (.eval (.noInteger v))
  | some n => if fitsWord n then .ok n else .error (.eval (.beyondWord v))

def toWord : Value → Except Error Int
  | empty => .ok 0
  | integer n => .ok n
  | decimal d => checkedWord (decimal d) (d.toInt? .down)
  | double x => checkedWord (double x) (Binary64.toInt? .down x)

def toDecimal : Value → Except Error Decimal
  | empty => .ok (.ofNat 0)
  | integer n => (Decimal.Context.engine.round (.ofInt n)).mapError .decimal
  | decimal d => .ok d
  | double x => (decimalOfDouble x).mapError fun
    | .overflow => .eval (.beyondDecimal x)
    | signal => .decimal signal

def toDouble : Value → Except Error Float
  | empty => .ok 0
  | integer n =>
    match Binary64.ofInt? n with
    | some x => .ok x
    | none => .error (.range .wholeToDouble)
  | decimal d => doubleOfDecimal d
  | double x => .ok x

/-- The value in another representation. Nothing but an empty value becomes empty. -/
def convert (v : Value) : Tag → Except Error Value
  | .empty => if v = empty then .ok empty else .error (.eval (.noConversion .empty))
  | .integer => v.toWord.map integer
  | .decimal => v.toDecimal.map decimal
  | .double => v.toDouble.map double

end Value

inductive Operands
  | words (a b : Int)
  | decimals (a b : Decimal)
  | doubles (a b : Float)
  deriving DecidableEq, Repr

def Operands.values : Operands → Value × Value
  | words a b => (.integer a, .integer b)
  | decimals a b => (.decimal a, .decimal b)
  | doubles a b => (.double a, .double b)

def Tag.higher (s t : Tag) : Tag := if s.rank < t.rank then t else s

def Value.promote (a b : Value) : Except Error Operands :=
  match a.tag.higher b.tag with
  | .empty | .integer => do return .words (← a.toWord) (← b.toWord)
  | .decimal => do return .decimals (← a.toDecimal) (← b.toDecimal)
  | .double => do return .doubles (← a.toDouble) (← b.toDouble)

namespace HostValue

/-- A decimal where decimals are preferred and the range allows, else the nearest double. -/
def fractional (preferDecimal : Bool) (exact : Except Decimal.Signal Decimal)
    (nearest : Except Error Float) : Except Error Value :=
  if preferDecimal then
    match exact with
    | .ok d => .ok (.decimal d)
    | .error .overflow => nearest.map .double
    | .error signal => .error (.decimal signal)
  else nearest.map .double

def ofWhole (preferDecimal : Bool) (n : Int) : Except Error Value :=
  if fitsWord n then .ok (.integer n)
  else fractional preferDecimal (Decimal.Context.engine.round (.ofInt n)) (Value.integer n).toDouble

def ofFraction (preferDecimal : Bool) (d : Decimal) : Except Error Value :=
  fractional preferDecimal (Decimal.Context.engine.round d) (doubleOfDecimal d)

def ofDouble (preferDecimal : Bool) (x : Float) : Except Error Value :=
  fractional preferDecimal (decimalOfDouble x) (.ok x)

def toValue (preferDecimal : Bool) : HostValue → Except Error Value
  | none => .ok .empty
  | bool b => .ok (.integer (if b then -1 else 0))
  | integer n => ofWhole preferDecimal n
  | decimal d => ofFraction preferDecimal d
  | double x => ofDouble preferDecimal x
  | tagged .empty => .ok .empty
  | tagged (.integer n) => .ok (.integer n)
  | tagged (.decimal d) => ofFraction preferDecimal d
  | tagged (.double x) => ofDouble preferDecimal x
  | v => .error (.conversion v)

end HostValue

end Reckoner
