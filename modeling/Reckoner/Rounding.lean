import Reckoner.Powers

namespace Reckoner

inductive Rounding
  | halfEven
  | down
  | ceiling
  | floor
  deriving DecidableEq, Repr

def Rounding.goesUp (mode : Rounding) (negative : Bool) (q r d : Nat) : Bool :=
  match mode with
  | .halfEven => d < 2 * r || (2 * r == d && q % 2 == 1)
  | .down => false
  | .ceiling => !negative && r != 0
  | .floor => negative && r != 0

def Rounding.quotient (mode : Rounding) (negative : Bool) (n d : Nat) : Nat :=
  if mode.goesUp negative (n / d) (n % d) d then n / d + 1 else n / d

def roundHalfEven (n d : Nat) : Nat := Rounding.halfEven.quotient false n d

def digitCount (n : Nat) : Nat :=
  if n < 10 then 1 else digitCount (n / 10) + 1

def logTen (n d : Nat) : Int :=
  let k : Int := (digitCount n : Int) - digitCount d
  if d * tenTo k.toNat ≤ n * tenTo (-k).toNat then k else k - 1

end Reckoner
