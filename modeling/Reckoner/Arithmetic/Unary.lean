import Reckoner.Arithmetic.Binary

namespace Reckoner.UnaryOp

def wordProduct? (n i : Nat) (product : Int) : Option Int :=
  if i ≤ n then
    if fitsWord (product * i) then wordProduct? n (i + 1) (product * i) else none
  else some product
termination_by n + 1 - i

def decimalProduct (n i : Nat) (product : Decimal) : Except Decimal.Signal Decimal :=
  if i ≤ n then
    match Decimal.multiply .engine product (.ofNat i) with
    | .ok next => decimalProduct n (i + 1) next
    | .error signal => .error signal
  else .ok product
termination_by n + 1 - i

/-- Between whole numbers the factorial is the gamma function; beyond 170 it is infinite. -/
def doubleFactorial (x : Float) : Except Error Value :=
  if Binary64.isNan x || (Binary64.isInfinite x && !Binary64.hasSign x) then .ok (.double x)
  else if !Binary64.isIntegral x then .ok (.double (Binary64.gamma (x + 1)))
  else
    let n := (Binary64.toInt? .down x).getD 0
    if n < 0 then .error (.eval (.negativeFactorial (.double x)))
    else if 170 < n then .ok (.double (Binary64.infinity false))
    else .ok (.double (Binary64.ofRatio false (Reckoner.factorial n.toNat) 1))

def decimalGamma (d : Decimal) : Except Error Value :=
  match decimalOfDouble (Binary64.gamma (Binary64.ofDecimal d + 1)) with
  | .ok r => .ok (.decimal r)
  | .error .overflow => .ok (.double (Binary64.infinity false))
  | .error signal => .error (.decimal signal)

def decimalFactorial (d : Decimal) : Except Error Value :=
  if d.isNan then .ok (.decimal d)
  else if !d.isIntegral then decimalGamma d
  else if d.isNegative then .error (.eval (.negativeFactorial (.decimal d)))
  else
    match decimalProduct ((d.toInt? .down).getD 0).toNat 2 (.ofNat 1) with
    | .ok r => .ok (.decimal r)
    | .error .overflow => doubleFactorial (Binary64.ofDecimal d)
    | .error signal => .error (.decimal signal)

def wordFactorial (preferDecimal : Bool) (n : Int) : Except Error Value :=
  if n < 0 then .error (.eval (.negativeFactorial (.integer n)))
  else match wordProduct? n.toNat 2 1 with
    | some r => .ok (.integer r)
    | none => do
      if preferDecimal then decimalFactorial (← (Value.integer n).toDecimal)
      else doubleFactorial (← (Value.integer n).toDouble)

def applyFactorial (preferDecimal : Bool) : Value → Except Error Value
  | .empty => .ok (.integer 1)
  | .integer n => wordFactorial preferDecimal n
  | .decimal d => decimalFactorial d
  | .double x => doubleFactorial x

def negateDecimal (d : Decimal) : Except Error Value :=
  ((Decimal.negate .engine d).mapError .decimal).map .decimal

def negateWord (preferDecimal : Bool) (n : Int) : Except Error Value := do
  if n ≠ leastWord then return .integer (-n)
  else if preferDecimal then negateDecimal (← (Value.integer n).toDecimal)
  else return .double (-(← (Value.integer n).toDouble))

def applyNegate (preferDecimal : Bool) : Value → Except Error Value
  | .empty => .ok (.integer 0)
  | .integer n => negateWord preferDecimal n
  | .decimal d => negateDecimal d
  | .double x => .ok (.double (-x))

def applyComplement (v : Value) : Except Error Value := v.toWord.map fun n => .integer (-n - 1)

def apply (preferDecimal : Bool) (op : UnaryOp) (v : Value) : Except Error Value :=
  match op with
  | negate => applyNegate preferDecimal v
  | complement => applyComplement v
  | factorial => applyFactorial preferDecimal v

end Reckoner.UnaryOp
