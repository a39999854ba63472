import Reckoner.Decimal.Arithmetic

namespace Reckoner.Decimal

def vanished : Decimal → Bool
  | finite _ 0 _ => true
  | _ => false

/-- Left to right: the running power is squared for every bit and multiplied by the base for
    every one bit. The bits come highest first, without the leading one. -/
def powerBits (ctx : Context) (base : Decimal) : Decimal → List Bool → Except Signal Decimal
  | power, [] => .ok power
  | power, bit :: bits => do
    let square ← multiply ctx power power
    let next ← if bit then multiply ctx square base else .ok square
    if next.vanished then .ok next else powerBits ctx base next bits

/-- Right to left: the squares of the base are multiplied in for every one bit. The bits come
    lowest first and end with a one bit. -/
def powerSquares (ctx : Context) : Decimal → Decimal → List Bool → Except Signal Decimal
  | _, power, [] => .ok power
  | base, power, bit :: bits => do
    let next ← if bit then multiply ctx power base else .ok power
    if next.vanished || bits.isEmpty then .ok next
    else
      let square ← multiply ctx base base
      powerSquares ctx square next bits

def binaryDigits (n : Nat) : List Bool :=
  if n = 0 then [] else (n % 2 == 1) :: binaryDigits (n / 2)

def longExponent : Nat := 18446744073709551616

def wholePower (ctx : Context) (base : Decimal) (n : Nat) : Except Signal Decimal :=
  let bits := binaryDigits n
  if n < longExponent then powerBits ctx base base bits.reverse.tail
  else powerSquares ctx base (ofNat 1) bits

def powerOfOne (ctx : Context) (s : Bool) (e : Int) (negative : Bool) (n : Nat) : Decimal :=
  if negative then finite s 1 0
  else
    let zeros := min (n * (-e).toNat) (ctx.precision - 1)
    finite s (tenTo zeros) (-(zeros : Int))

/-- The digits kept while multiplying: the precision and guard digits for the exponent
    `cb * 10 ^ eb`. A negative exponent starts from a rounded reciprocal and takes one more. -/
def guarded (ctx : Context) (negative : Bool) (cb : Nat) (eb : Int) : Context :=
  let digits : Int := ctx.precision + (digitCount cb : Int) + eb + 2
  { ctx with precision := digits.toNat + if negative then 1 else 0 }

def guardedPower (work : Context) (c : Nat) (e : Int) (negative : Bool) (n : Nat) :
    Except Signal Decimal := do
  let base ← if negative then divide work (ofNat 1) (finite false c e) else .ok (finite false c e)
  wholePower work base n

def powerSign (base exponent : Decimal) : Bool :=
  base.hasSign && (exponent.toInt? .down).getD 0 % 2 != 0

def power (ctx : Context) (a b : Decimal) : Except Signal Decimal :=
  let sign := powerSign a b
  match a, b with
  | notNumber signaling s payload, d => ctx.propagate (signaling || d.isSignaling) s payload
  | _, notNumber signaling s payload => ctx.propagate signaling s payload
  | _, infinity _ => .error .invalid
  | infinity _, finite negative c _ =>
    .ok (if c = 0 then ofNat 1 else if negative then finite sign 0 0 else infinity sign)
  | finite _ 0 _, finite negative c _ =>
    if c = 0 then .error .invalid
    else .ok (if negative then infinity sign else finite sign 0 0)
  | finite _ c e, finite negative cb eb =>
    let n := wholeMagnitude .down false cb eb
    if n = 0 then .ok (ofNat 1)
    else if e ≤ 0 ∧ c = tenTo (-e).toNat then .ok (powerOfOne ctx sign e negative n)
    else do
      let power ← guardedPower (guarded ctx negative cb eb) c e negative n
      ctx.round (if sign then power.opposite else power)

end Reckoner.Decimal
