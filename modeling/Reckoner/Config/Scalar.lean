import Reckoner.HostValue
import Reckoner.Text.Blank

namespace Reckoner.Config

open Text

def nullWords : List String := ["", "~", "null", "Null", "NULL"]

def trueWords : List String := ["yes", "Yes", "YES", "true", "True", "TRUE", "on", "On", "ON"]

def falseWords : List String := ["no", "No", "NO", "false", "False", "FALSE", "off", "Off", "OFF"]

def digitRun? (base : Nat) (cs : List Char) : Option Nat :=
  let ds := cs.filter (· != '_')
  if ds.isEmpty || !ds.all fun c => (digitIn? base c).isSome then none
  else some (numeralValue base ds)

def wholeMagnitude? : List Char → Option Nat
  | '0' :: 'x' :: cs => digitRun? 16 cs
  | '0' :: 'b' :: cs => digitRun? 2 cs
  | '0' :: c :: cs => digitRun? 8 ('0' :: c :: cs)
  | c :: cs => if c.isDigit then digitRun? 10 (c :: cs) else none
  | [] => none

def whole? (cs : List Char) : Option HostValue :=
  let (negative, cs) := takeSign cs
  (wholeMagnitude? cs).map fun n => .integer (Decimal.signed negative n)

def isGrouped (c : Char) : Bool := c.isDigit || c == '_'

def doubleExponent? : List Char → Option (List Char)
  | [] => some []
  | c :: s :: ds =>
    if (c == 'e' || c == 'E') && (s == '+' || s == '-') && !ds.isEmpty && ds.all Char.isDigit then
      some (c :: s :: ds)
    else none
  | _ => none

def double? (cs : List Char) : Option HostValue := do
  let (negative, unsigned) := takeSign cs
  let bare := unsigned.length == cs.length
  let whole := unsigned.takeWhile isGrouped
  let '.' :: rest := unsigned.dropWhile isGrouped | none
  if whole.isEmpty && rest ∈ ["inf".toList, "Inf".toList, "INF".toList] then
    return .double (Binary64.infinity negative)
  if whole.isEmpty && bare && rest ∈ ["nan".toList, "NaN".toList, "NAN".toList] then
    return .double Binary64.nan
  let fraction := rest.takeWhile isGrouped
  let exponent ← doubleExponent? (rest.dropWhile isGrouped)
  if whole.head? == some '_' then none
  if whole.isEmpty && !(bare && fraction.head?.any Char.isDigit) then none
  let digits := (whole ++ '.' :: fraction ++ exponent).filter (· != '_')
  let d ← Decimal.readMagnitude? negative digits
  return .double (Binary64.ofDecimal d)

def scalar (s : String) : HostValue :=
  if s ∈ nullWords then .none
  else if s ∈ trueWords then .bool true
  else if s ∈ falseWords then .bool false
  else ((double? s.toList).or (whole? s.toList)).getD (.text s)

end Reckoner.Config
