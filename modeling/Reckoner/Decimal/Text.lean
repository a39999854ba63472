import Reckoner.Decimal.Basic
import Reckoner.Text.Positional

namespace Reckoner.Decimal

open Text

def magnitudeChars (c : Nat) (e : Int) : List Char :=
  let digits := numeral 10 c
  if e ≤ 0 ∧ -6 ≤ adjusted c e then withPoint digits (adjusted c e + 1)
  else withPoint digits 1 ++ 'E' :: signedNumeral (adjusted c e)

def chars : Decimal → List Char
  | notNumber signaling s payload =>
    (if s then ['-'] else []) ++ (if signaling then "sNaN" else "NaN").toList ++
      if payload = 0 then [] else numeral 10 payload
  | infinity s => (if s then "-Infinity" else "Infinity").toList
  | finite s c e => if s then '-' :: magnitudeChars c e else magnitudeChars c e

def toText (d : Decimal) : String := String.ofList d.chars

def readExponent? : List Char → Option Int
  | [] => some 0
  | c :: cs =>
    let (negative, ds) := takeSign cs
    if (c != 'E' && c != 'e') || ds.isEmpty || !ds.all Char.isDigit then none
    else some (signed negative (numeralValue 10 ds))

def readMagnitude? (negative : Bool) (cs : List Char) : Option Decimal :=
  let whole := cs.takeWhile Char.isDigit
  let rest := cs.dropWhile Char.isDigit
  let (fraction, rest) := match rest with
    | '.' :: r => (r.takeWhile Char.isDigit, r.dropWhile Char.isDigit)
    | r => ([], r)
  if whole.isEmpty && fraction.isEmpty then none
  else (readExponent? rest).map fun e =>
    finite negative (numeralValue 10 (whole ++ fraction)) (e - fraction.length)

def readPayload? (cs : List Char) : Option (Bool × Nat) :=
  let signaling := cs.head? == some 's'
  let cs := if signaling then cs.drop 1 else cs
  let digits := cs.drop 3
  if cs.take 3 == "NaN".toList && digits.all Char.isDigit then
    some (signaling, numeralValue 10 digits)
  else none

def ofText? (s : String) : Option Decimal :=
  let (negative, cs) := takeSign s.toList
  match readPayload? cs with
  | some (signaling, payload) => some (notNumber signaling negative payload)
  | none =>
    if cs == "Infinity".toList then some (infinity negative) else readMagnitude? negative cs

end Reckoner.Decimal
