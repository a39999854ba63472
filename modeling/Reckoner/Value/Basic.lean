import Reckoner.Binary64.Text

namespace Reckoner

inductive Tag
  | empty
  | integer
  | decimal
  | double
  deriving DecidableEq, Repr, Inhabited

namespace Tag

def rank : Tag → Nat
  | empty => 0
  | integer => 1
  | decimal => 2
  | double => 3

def name : Tag → String
  | empty => "empty"
  | integer => "integer"
  | decimal => "decimal"
  | double => "double"

def display (t : Tag) : String :=
  "<ValueTag." ++ t.name.toUpper ++ ": " ++ Text.natText t.rank ++ ">"

end Tag

/-- A number with its representation. An unset variable reads as `empty`, and so does a
    function that returns nothing. -/
inductive Value
  | empty
  | integer (n : Int)
  | decimal (d : Decimal)
  | double (x : Float)
  deriving DecidableEq, Repr, Inhabited

namespace Value

def tag : Value → Tag
  | empty => .empty
  | integer _ => .integer
  | decimal _ => .decimal
  | double _ => .double

def payloadText : Value → String
  | empty => "None"
  | integer n => Text.intText n
  | decimal d => d.toText
  | double x => Binary64.toText x

def toText (v : Value) : String := "(" ++ v.tag.name ++ ")" ++ v.payloadText

end Value

def leastWord : Int := -9223372036854775808

def greatestWord : Int := 9223372036854775807

def wordCount : Nat := 18446744073709551616

def fitsWord (n : Int) : Bool := leastWord ≤ n && n ≤ greatestWord

def wrapWord (n : Int) : Int := n.bmod wordCount

end Reckoner
