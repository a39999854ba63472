import Reckoner.Text.Blank
import Reckoner.Text.Numeral
import Reckoner.Text.Positional

namespace Reckoner.Text

def plainDigit (c : Char) : Char :=
  match digitValue? c with
  | some d => digitChar d
  | none => c

def underscoresInside (before : Bool) : List Char → Bool
  | [] => true
  | '_' :: c :: rest => before && c.isDigit && underscoresInside true rest
  | ['_'] => false
  | c :: rest => underscoresInside c.isDigit rest

def plainNumber? (s : String) : Option (List Char) :=
  let cs := (trimWhile isBlank s.toList).map plainDigit
  if underscoresInside false cs then some (cs.filter (· != '_')) else none

def lenientInt? (s : String) : Option Int := do
  let (negative, ds) := takeSign (← plainNumber? s)
  if ds.isEmpty || !ds.all Char.isDigit then none
  else some (if negative then -(numeralValue 10 ds : Int) else numeralValue 10 ds)

end Reckoner.Text
