import Reckoner.Arithmetic.Word
import Reckoner.Binary64.Elementary
import Reckoner.Decimal.Power

namespace Reckoner.BinaryOp

/-- The power of whole numbers, if it is one of 64 bits. Beyond 63 squarings nothing but the
    powers of -1, 0 and 1 fits. -/
def wordPower? (a b : Int) : Option Int :=
  if a = 1 then some 1
  else if a = -1 then some (if b % 2 = 0 then 1 else -1)
  else if b < 0 then none
  else if a = 0 then some (if b = 0 then 1 else 0)
  else if 63 < b then none
  else (some (Int.pow a b.toNat)).filter fitsWord

def onWords (op : BinaryOp) (a b : Int) : Except Error (Option Int) :=
  match op with
  | add => .ok ((some (a + b)).filter fitsWord)
  | subtract => .ok ((some (a - b)).filter fitsWord)
  | multiply => .ok ((some (a * b)).filter fitsWord)
  | divide =>
    if b = 0 then .error .zeroDivision
    else if a % b ≠ 0 then .ok none
    else .ok ((some (a / b)).filter fitsWord)
  | root => .ok none
  | power => .ok (wordPower? a b)

def onDoubles (op : BinaryOp) (a b : Float) : Float :=
  match op with
  | add => a + b
  | subtract => a - b
  | multiply => a * b
  | divide => Binary64.divide a b
  | root => Binary64.root a b
  | power => Binary64.power a b

def throughDoubles (f : Float → Float → Float) (a b : Decimal) : Except Error Decimal := do
  let x ← doubleOfDecimal a
  let y ← doubleOfDecimal b
  (decimalOfDouble (f x y)).mapError .decimal

def decimalPower (a b : Decimal) : Except Error Decimal := do
  if ← (Decimal.bothZero a b).mapError .decimal then return .ofNat 1
  else if b.isIntegral then (Decimal.power .engine a b).mapError .decimal
  else throughDoubles Binary64.power a b

def onDecimals (op : BinaryOp) (a b : Decimal) : Except Error Decimal :=
  match op with
  | add => (Decimal.add .engine a b).mapError .decimal
  | subtract => (Decimal.subtract .engine a b).mapError .decimal
  | multiply => (Decimal.multiply .engine a b).mapError .decimal
  | divide => (Decimal.divide .engine a b).mapError .decimal
  | root => throughDoubles Binary64.root a b
  | power => decimalPower a b

def applyDecimals (op : BinaryOp) (a b : Decimal) : Except Error Value :=
  if op = divide ∧ b.isZero then .error .zeroDivision
  else match op.onDecimals a b with
    | .ok d => .ok (.decimal d)
    | .error (.decimal .invalid) => .ok (.decimal .nan)
    | .error (.decimal .overflow) => do
      return .double (op.onDoubles (← doubleOfDecimal a) (← doubleOfDecimal b))
    | .error e => .error e

def applyWide (preferDecimal : Bool) (op : BinaryOp) (a b : Value) : Except Error Value := do
  if preferDecimal then op.applyDecimals (← a.toDecimal) (← b.toDecimal)
  else return .double (op.onDoubles (← a.toDouble) (← b.toDouble))

def applyWords (preferDecimal : Bool) (op : BinaryOp) (a b : Int) : Except Error Value := do
  match ← op.onWords a b with
  | some n => return .integer n
  | none => op.applyWide preferDecimal (.integer a) (.integer b)

def apply (preferDecimal : Bool) (op : BinaryOp) (left right : Value) : Except Error Value := do
  match ← left.promote right with
  | .words a b => op.applyWords preferDecimal a b
  | .decimals a b => op.applyDecimals a b
  | .doubles a b => return .double (op.onDoubles a b)

end Reckoner.BinaryOp
