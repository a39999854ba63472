import Reckoner.Decimal.Basic

namespace Reckoner.Binary64

/-- What a double denotes; `finite s m q` is `m * 2 ^ q`, negated when `s`. -/
inductive Parts
  | nan
  | infinity (negative : Bool)
  | finite (negative : Bool) (mantissa : Nat) (exponent : Int)
  deriving DecidableEq, Repr

def hiddenBit : Nat := 4503599627370496

def signBit : Nat := 9223372036854775808

def Parts.ofWord (word : Nat) : Parts :=
  let negative : Bool := signBit ≤ word
  let exponent : Nat := word / hiddenBit % 2048
  let fraction : Nat := word % hiddenBit
  if exponent = 2047 then if fraction = 0 then .infinity negative else .nan
  else if exponent = 0 then .finite negative fraction (-1074)
  else .finite negative (hiddenBit + fraction) ((exponent : Int) - 1075)

def parts (x : Float) : Parts := .ofWord x.toBits.toNat

def nan : Float := Float.ofBits 0x7FF8000000000000

def infinity (negative : Bool) : Float :=
  Float.ofBits (if negative then 0xFFF0000000000000 else 0x7FF0000000000000)

def logTwo (n d : Nat) : Int :=
  let k : Int := (n.log2 : Int) - d.log2
  if d * twoTo k.toNat ≤ n * twoTo (-k).toNat then k else k - 1

/-- The word of the positive double nearest to `n / d`, ties to even. A mantissa that rounds
    up to the next power of two carries into the exponent; the word stops at infinity. -/
def nearestWord (n d : Nat) : Nat :=
  if n = 0 then 0
  else
    let q := max (logTwo n d - 52) (-1074)
    let m := roundHalfEven (n * twoTo (-q).toNat) (d * twoTo q.toNat)
    min ((q + 1074).toNat * hiddenBit + m) (2047 * hiddenBit)

def ofRatio (s : Bool) (n d : Nat) : Float :=
  Float.ofBits (UInt64.ofNat (nearestWord n d + if s then signBit else 0))

/-- The double nearest to `c * 10 ^ e`. The bounds keep the powers of ten small. -/
def ofScaled (s : Bool) (c : Nat) (e : Int) : Float :=
  if c = 0 || Decimal.adjusted c e < -400 then ofRatio s 0 1
  else if 400 < Decimal.adjusted c e then infinity s
  else ofRatio s (c * tenTo e.toNat) (tenTo (-e).toNat)

def ofDecimal : Decimal → Float
  | .notNumber .. => nan
  | .infinity s => infinity s
  | .finite s c e => ofScaled s c e

def isInfinite (x : Float) : Bool :=
  match parts x with
  | .infinity _ => true
  | _ => false

def ofInt? (n : Int) : Option Float :=
  let x := ofRatio (n < 0) n.natAbs 1
  if isInfinite x then none else some x

def isNan (x : Float) : Bool :=
  match parts x with
  | .nan => true
  | _ => false

def isFinite (x : Float) : Bool :=
  match parts x with
  | .finite .. => true
  | _ => false

def hasSign (x : Float) : Bool := signBit ≤ x.toBits.toNat

def toInt? (mode : Rounding) (x : Float) : Option Int :=
  match parts x with
  | .finite s m q =>
    let n := if 0 ≤ q then m * twoTo q.toNat else mode.quotient s m (twoTo (-q).toNat)
    some (Decimal.signed s n)
  | _ => none

def isIntegral (x : Float) : Bool :=
  match parts x with
  | .finite _ m q => 0 ≤ q || m % twoTo (-q).toNat == 0
  | _ => false

def withSign (x y : Float) : Float :=
  if hasSign x == hasSign y then x else Float.ofBits (x.toBits ^^^ 0x8000000000000000)

end Reckoner.Binary64
