import Reckoner.Binary64.Elementary
import Reckoner.Function.Rounded

namespace Reckoner.Library

open Binary64

def ofMath : MathFault → Error
  | .domain => .badValue .mathDomain
  | .range => .range .mathRange

def ofDouble (f : Float → Except MathFault Float) : List HostValue → Except Error HostValue
  | [x] => do return .double (← (f (← x.asDouble)).mapError ofMath)
  | _ => .error .badKind

def ofDoubles (f : Float → Float → Except MathFault Float) :
    List HostValue → Except Error HostValue
  | [x, y] => do return .double (← (f (← x.asDouble) (← y.asDouble)).mapError ofMath)
  | _ => .error .badKind

def ofValue (f : HostValue → Except Error HostValue) : List HostValue → Except Error HostValue
  | [x] => f x
  | _ => .error .badKind

def log : List HostValue → Except Error HostValue
  | [x, base] => do
    let b ← (logarithm Float.log (← base.asDouble)).mapError ofMath
    if b == 0 then return .double Binary64.nan
    let a ← (logarithm Float.log (← x.asDouble)).mapError ofMath
    match quotient? a b with
    | some q => return .double q
    | none => throw (.divisionByZero "float division by zero")
  | _ => .error .badKind

def round : List HostValue → Except Error HostValue
  | [x, digits] => x.roundTo digits
  | _ => .error .badKind

def entry (name : String) (arity : Nat) (body : List HostValue → Except Error HostValue) :
    String × Function :=
  (name, ⟨none, some ⟨name, arity, arity⟩, body⟩)

def functions : List (String × Function) := [
    entry "abs" 1 (ofValue HostValue.absolute),
    entry "ceil" 1 (ofValue (HostValue.toWhole .ceiling)),
    entry "floor" 1 (ofValue (HostValue.toWhole .floor)),
    entry "trunc" 1 (ofValue (HostValue.toWhole .down)),
    entry "rnd" 1 (ofValue (HostValue.toWhole .halfEven)),
    entry "round" 2 round,
    entry "sign" 1 (ofValue HostValue.sign),
    entry "acos" 1 (ofDouble fun x => ieee (checked false Float.acos x)),
    entry "asin" 1 (ofDouble fun x => ieee (checked false Float.asin x)),
    entry "atan" 1 (ofDouble fun x => .ok (Float.atan x)),
    entry "atan2" 2 (ofDoubles fun y x => .ok (Float.atan2 y x)),
    entry "cos" 1 (ofDouble fun x => ieee (checked false Float.cos x)),
    entry "cosh" 1 (ofDouble fun x => ieee (checked true Float.cosh x)),
    entry "exp" 1 (ofDouble fun x => ieee (checked true Float.exp x)),
    entry "ieeeremainder" 2 (ofDoubles fun x y => ieee (remainder x y)),
    entry "IEEERemainder" 2 (ofDoubles fun x y => ieee (remainder x y)),
    entry "ln" 1 (ofDouble (logarithm Float.log)),
    entry "log" 2 log,
    entry "log10" 1 (ofDouble (logarithm Float.log10)),
    entry "sin" 1 (ofDouble fun x => ieee (checked false Float.sin x)),
    entry "sinh" 1 (ofDouble sinh),
    entry "sqrt" 1 (ofDouble fun x => ieee (checked false Float.sqrt x)),
    entry "tan" 1 (ofDouble fun x => ieee (checked false Float.tan x)),
    entry "tanh" 1 (ofDouble fun x => .ok (Float.tanh x))]

def constants : List (String × HostValue) := [
    ("pi", .double Binary64.pi),
    ("e", .double 2.718281828459045),
    ("kb", .integer 1024),
    ("mb", .integer 1048576),
    ("gb", .integer 1073741824)]

end Reckoner.Library
