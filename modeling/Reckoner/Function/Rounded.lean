import Reckoner.Function.Number

namespace Reckoner.HostValue

def roundDouble (mode : Rounding) (x : Float) : Float :=
  match Binary64.toInt? mode x with
  | some n => Binary64.ofRatio (n < 0) n.natAbs 1
  | .none => x

def toWhole (mode : Rounding) : HostValue → Except Error HostValue
  | bool b => .ok (bool b)
  | v => do
    match ← v.toNumber with
    | .whole n => return integer n
    | .decimal d => return decimal (d.toIntegral mode)
    | .double x => return double (roundDouble mode x)

def nearestMultiple (n : Int) (places : Nat) : Int :=
  if digitCount n.natAbs < places then 0
  else Decimal.signed (n < 0) (roundHalfEven n.natAbs (tenTo places) * tenTo places)

def roundMagnitude (s : Bool) (m : Nat) (q digits : Int) : Float :=
  let n := m * twoTo q.toNat * tenTo digits.toNat
  let d := twoTo (-q).toNat * tenTo (-digits).toNat
  Binary64.ofRatio s (roundHalfEven n d * tenTo (-digits).toNat) (tenTo digits.toNat)

/-- A double rounded to fractional digits. Past the digits of any double it stays as it is, and
    above all doubles it is zero. -/
def roundDoubleTo (digits : Int) (x : Float) : Except Error HostValue :=
  match Binary64.parts x with
  | .finite s m q =>
    if 323 < digits then .ok (double x)
    else if digits < -308 then .ok (double (Binary64.ofRatio s 0 1))
    else
      let r := roundMagnitude s m q digits
      if Binary64.isInfinite r then .error (.range .roundedTooLarge) else .ok (double r)
  | _ => .ok (double x)

def roundDecimalTo (digits : Int) (d : Decimal) : Except Error HostValue :=
  if !fitsWord digits then .error (.range .digitsTooLarge)
  else exactly (Decimal.quantize .ample digits d)

def finiteDigits (digits : HostValue) : Except Error Unit :=
  match digits with
  | decimal d => if d.isFinite then .ok () else .error (.call "round" (.digitsNotFinite digits))
  | double x =>
    if Binary64.isFinite x then .ok () else .error (.call "round" (.digitsNotFinite digits))
  | _ => .ok ()

def digitsOf (digits : HostValue) : Except Error Int :=
  if digits.isNone then .ok 0 else digits.asWhole

def roundTo (v digits : HostValue) : Except Error HostValue := do
  finiteDigits digits
  let digits ← digitsOf digits
  match ← v.toNumber with
  | .whole n => return integer (if 0 ≤ digits then n else nearestMultiple n (-digits).toNat)
  | .decimal d => if d.isFinite then roundDecimalTo digits d else return decimal d
  | .double x => roundDoubleTo digits x

def absolute (v : HostValue) : Except Error HostValue := do
  match ← v.toNumber with
  | .whole n => return integer n.natAbs
  | .decimal d => exactly (Decimal.absolute .ample d)
  | .double x => return double (Float.abs x)

def sign (v : HostValue) : Except Error HostValue := do
  match ← v.toNumber with
  | .whole n => return integer n.sign
  | .decimal d => return integer (ofBool d.isPositive - ofBool d.isNegative)
  | .double x => return integer (ofBool (x > 0) - ofBool (x < 0))

end Reckoner.HostValue
