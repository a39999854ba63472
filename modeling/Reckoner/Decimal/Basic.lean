import Reckoner.Rounding

namespace Reckoner

/-- `finite s c e` is `c * 10 ^ e`, negated when `s`. What is not a number may carry digits, and a
    signaling one is refused by operations. -/
inductive Decimal
  | notNumber (signaling negative : Bool) (payload : Nat)
  | infinity (negative : Bool)
  | finite (negative : Bool) (coefficient : Nat) (exponent : Int)
  deriving DecidableEq, Repr, Inhabited

namespace Decimal

@[match_pattern]
def nan : Decimal := .notNumber false false 0

def ofNat (n : Nat) : Decimal := .finite false n 0

def ofInt (n : Int) : Decimal := .finite (n < 0) n.natAbs 0

def isNan : Decimal → Bool
  | notNumber .. => true
  | _ => false

def isSignaling : Decimal → Bool
  | notNumber signaling _ _ => signaling
  | _ => false

def isFinite : Decimal → Bool
  | finite .. => true
  | _ => false

def isZero : Decimal → Bool
  | finite _ c _ => c == 0
  | _ => false

def hasSign : Decimal → Bool
  | notNumber _ s _ => s
  | infinity s => s
  | finite s _ _ => s

def isNegative : Decimal → Bool
  | notNumber .. => false
  | infinity s => s
  | finite s c _ => s && c != 0

def isPositive : Decimal → Bool
  | notNumber .. => false
  | infinity s => !s
  | finite s c _ => !s && c != 0

def adjusted (c : Nat) (e : Int) : Int := (digitCount c : Int) + e - 1

def wholeMagnitude (mode : Rounding) (s : Bool) (c : Nat) (e : Int) : Nat :=
  if 0 ≤ e then c * tenTo e.toNat else mode.quotient s c (tenTo (-e).toNat)

def signed (negative : Bool) (n : Nat) : Int := if negative then -(n : Int) else n

def toInt? (mode : Rounding) : Decimal → Option Int
  | finite s c e => some (signed s (wholeMagnitude mode s c e))
  | _ => none

def isIntegral : Decimal → Bool
  | finite _ c e => 0 ≤ e || c % tenTo (-e).toNat == 0
  | _ => false

def toIntegral (mode : Rounding) : Decimal → Decimal
  | finite s c e => if 0 ≤ e then finite s c e else finite s (wholeMagnitude mode s c e) 0
  | d => d

end Decimal

end Reckoner
