import Reckoner.Binary64.Basic

namespace Reckoner.Binary64

/-- The numbers that round to `m * 2 ^ q` lie between `low` and `high`, in units of
    `2 ^ (q - 2)`. Just above a power of two the lower neighbour is half as far. -/
structure Interval where
  value : Nat
  low : Nat
  high : Nat
  ends : Bool
  deriving DecidableEq, Repr

def interval (m : Nat) (q : Int) : Interval where
  value := 4 * m
  low := if m = hiddenBit ∧ -1074 < q then 4 * m - 1 else 4 * m - 2
  high := 4 * m + 2
  ends := m % 2 = 0

def Interval.contains (i : Interval) (n d : Nat) : Bool :=
  if i.ends then i.low * d ≤ n && n ≤ i.high * d else i.low * d < n && n < i.high * d

def neighbour? (v d : Nat) (inside : Nat → Bool) : Option Nat :=
  let c := v / d
  match inside c, inside (c + 1) with
  | false, false => none
  | true, false => some c
  | false, true => some (c + 1)
  | true, true => some (roundHalfEven v d)

def onGrid? (m : Nat) (q : Int) (e : Int) : Option (Nat × Int) :=
  let i := interval m q
  -- one unit of the grid is `u / w` units of the interval
  let u := tenTo e.toNat * twoTo (2 - q).toNat
  let w := tenTo (-e).toNat * twoTo (q - 2).toNat
  (neighbour? (i.value * w) u fun c => i.contains (c * u) w).map (·, e)

def withoutZeros (c : Nat) (e : Int) : Nat × Int :=
  if h : c = 0 ∨ c % 10 ≠ 0 then (c, e) else withoutZeros (c / 10) (e + 1)
termination_by c
decreasing_by omega

/-- The shortest decimal `(c, e)` for `c * 10 ^ e` that reads back as `m * 2 ^ q`. -/
def shortest (m : Nat) (q : Int) : Nat × Int :=
  if m = 0 then (0, 0)
  else
    let top := logTen (m * twoTo q.toNat) (twoTo (-q).toNat)
    match (List.range 17).findSome? fun (k : Nat) => onGrid? m q (top - k) with
    | some (c, e) => withoutZeros c e
    | none => (0, 0)

end Reckoner.Binary64
