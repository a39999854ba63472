import Reckoner.Binary64.Shortest
import Reckoner.Decimal.Text
import Reckoner.Text.Lenient

namespace Reckoner.Binary64

open Text

def isPositional (place : Int) : Bool := -4 < place && place ≤ 16

def exponentChars (e : Int) : List Char :=
  let digits := numeral 10 e.natAbs
  'e' :: (if e < 0 then '-' else '+') ::
    (if digits.length < 2 then '0' :: digits else digits)

def magnitudeChars (c : Nat) (e : Int) : List Char :=
  let digits := numeral 10 c
  let place : Int := digits.length + e
  if isPositional place then withPoint digits place ++ if 0 ≤ e then ['.', '0'] else []
  else withPoint digits 1 ++ exponentChars (place - 1)

def chars (x : Float) : List Char :=
  match parts x with
  | .nan => "nan".toList
  | .infinity s => (if s then "-inf" else "inf").toList
  | .finite s m q =>
    let (c, e) := shortest m q
    if s then '-' :: magnitudeChars c e else magnitudeChars c e

def toText (x : Float) : String := String.ofList (chars x)

def toDecimal (x : Float) : Decimal :=
  match parts x with
  | .nan => .nan
  | .infinity s => .infinity s
  | .finite s m q =>
    let (c, e) := shortest m q
    if isPositional (digitCount c + e) && 0 ≤ e then .finite s (c * tenTo (e.toNat + 1)) (-1)
    else .finite s c e

def scientificChars (places : Nat) (m : Nat) (q : Int) : List Char :=
  if m = 0 then withPoint (List.replicate (places + 1) '0') 1 ++ exponentChars 0
  else
    let n := m * twoTo q.toNat
    let d := twoTo (-q).toNat
    let low := logTen n d - places
    let c := roundHalfEven (n * tenTo (-low).toNat) (d * tenTo low.toNat)
    let (c, low) := if c = tenTo (places + 1) then (c / 10, low + 1) else (c, low)
    withPoint (numeral 10 c) 1 ++ exponentChars (low + places)

def toScientific (places : Nat) (x : Float) : String :=
  match parts x with
  | .finite s m q =>
    String.ofList (if s then '-' :: scientificChars places m q else scientificChars places m q)
  | _ => toText x

def ofText? (s : String) : Option Float := do
  let (negative, cs) := takeSign (← plainNumber? s)
  let word := String.ofList (cs.map Char.toLower)
  if word == "inf" || word == "infinity" then some (infinity negative)
  else if word == "nan" then some nan
  else (Decimal.readMagnitude? negative cs).map ofDecimal

end Reckoner.Binary64
