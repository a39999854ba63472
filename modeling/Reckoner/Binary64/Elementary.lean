import Reckoner.Binary64.Basic
import Reckoner.Factorial

namespace Reckoner.Binary64

inductive MathFault
  | domain
  | range
  deriving DecidableEq, Repr

/-- A function of the host at `x`. An infinite result at a finite argument is out of range if the
    function `grows` beyond all doubles, and else outside its domain. -/
def checked (grows : Bool) (f : Float → Float) (x : Float) : Except MathFault Float :=
  let y := f x
  if isNan y && !isNan x then .error .domain
  else if isInfinite y && isFinite x then .error (if grows then .range else .domain)
  else .ok y

/-- What handles the faults of the host's functions. -/
def ieee (r : Except MathFault Float) : Except MathFault Float :=
  tryCatch r fun
    | .range => .ok (infinity false)
    | .domain => .ok nan

def exactRemainder (x y : Float) : Float :=
  match parts x, parts y with
  | .finite s m q, .finite _ m' q' =>
    if m' = 0 then nan
    else
      let low := min q q'
      let a := m * twoTo (q - low).toNat
      let b := m' * twoTo (q' - low).toNat
      let r : Int := a - roundHalfEven a b * b
      ofRatio (s != (r < 0)) (r.natAbs * twoTo low.toNat) (twoTo (-low).toNat)
  | .finite .., .infinity _ => x
  | _, _ => nan

def remainder (x y : Float) : Except MathFault Float :=
  let r := exactRemainder x y
  if isNan r && !isNan x && !isNan y then .error .domain
  else if isInfinite r && isFinite x && isFinite y then .error .range
  else .ok r

def sinh (x : Float) : Except MathFault Float := do
  return withSign (← ieee (checked true Float.sinh x)) x

def logarithm (log : Float → Float) (x : Float) : Except MathFault Float :=
  if x == 0 then .ok (infinity true) else ieee (checked false log x)

/-- The host's division, which refuses a divisor of zero. -/
def quotient? (a b : Float) : Option Float := if b == 0 then none else some (a / b)

def divide (a b : Float) : Float :=
  match quotient? a b with
  | some q => q
  | none => if a == 0 || isNan a then nan else infinity (hasSign a) * withSign 1 b

/-- The host's power, which fails at finite arguments only. -/
def hostPower (a b : Float) : Except MathFault Float :=
  let r := Float.pow a b
  if isFinite a && isFinite b then
    if isNan r then .error .domain
    else if isInfinite r then .error (if a == 0 then .domain else .range)
    else .ok r
  else .ok r

def isOdd (x : Float) : Bool := isIntegral x && ((toInt? .down x).getD 0) % 2 == 1

def power (a b : Float) : Float :=
  match hostPower a b with
  | .ok r => r
  | .error .range => infinity (a < 0 && isOdd b)
  | .error .domain =>
    if a == 0 then infinity (isOdd b && hasSign a) else nan

def root (a b : Float) : Float := power a (divide 1 b)

def pi : Float := 3.141592653589793

def lanczosNumerator : List Float := [
    23531376880.41076, 42919803642.6491, 35711959237.35567, 17921034426.03721,
    6039542586.352028, 1439720407.3117216, 248874557.86205417, 31426415.585400194,
    2876370.6289353725, 186056.26539522348, 8071.672002365816, 210.82427775157936,
    2.5066282746310002]

def lanczosDenominator : List Float := [
    0, 39916800, 120543840, 150917976, 105258076, 45995730, 13339535, 2637558, 357423, 32670,
    1925, 66, 1]

def lanczosSum (x : Float) : Float :=
  if x < 5 then
    lanczosNumerator.foldr (fun c sum => sum * x + c) 0 /
      lanczosDenominator.foldr (fun c sum => sum * x + c) 0
  else
    lanczosNumerator.foldl (fun sum c => sum / x + c) 0 /
      lanczosDenominator.foldl (fun sum c => sum / x + c) 0

def sinPi (x : Float) : Float :=
  let y := x - 2 * Float.floor (x / 2)
  let quarter := Float.round (2 * y)
  if quarter == 0 then Float.sin (pi * y)
  else if quarter == 1 then Float.cos (pi * (y - 0.5))
  else if quarter == 2 then Float.sin (pi * (1 - y))
  else if quarter == 3 then -Float.cos (pi * (y - 1.5))
  else Float.sin (pi * (y - 2))

def lanczosG : Float := 6.02468004077673

def lanczosShift : Float := 5.52468004077673

/-- `r * y ^ p`, by the square root of the power where the power itself would overflow. -/
def timesPower (a r y p : Float) : Float :=
  if a < 140 then r * Float.pow y p
  else
    let half := Float.pow y (p / 2)
    r * half * half

def overPower (a r y p : Float) : Float :=
  if a < 140 then r / Float.pow y p
  else
    let half := Float.pow y (p / 2)
    r / half / half

def gammaSeries (x a : Float) : Float :=
  let y := a + lanczosShift
  let rest := if lanczosShift < a then y - a - lanczosShift else y - lanczosShift - a
  let z := rest * lanczosG / y
  if x < 0 then
    let r := -pi / sinPi a / a * Float.exp y / lanczosSum a
    overPower a (r - z * r) y (a - 0.5)
  else
    let r := lanczosSum a / Float.exp y
    timesPower a (r + z * r) y (a - 0.5)

def inRange (y : Float) : Except MathFault Float := if isInfinite y then .error .range else .ok y

/-- The host's gamma, without a value at zero, the negative whole numbers and minus infinity. -/
def hostGamma (x : Float) : Except MathFault Float :=
  let a := Float.abs x
  if isNan x then .ok x
  else if isInfinite x then if hasSign x then .error .domain else .ok x
  else if x == 0 || (isIntegral x && x < 0) then .error .domain
  else if isIntegral x && x <= 23 then
    .ok (ofRatio false (factorial ((toInt? .down x).getD 1 - 1).toNat) 1)
  else if a < 1e-20 then inRange (1 / x)
  else if 200 < a then if x < 0 then .ok (0 / -sinPi a) else .error .range
  else inRange (gammaSeries x a)

def gamma (x : Float) : Float :=
  match hostGamma x with
  | .ok y => y
  | .error .range => infinity false
  | .error .domain => nan

end Reckoner.Binary64
