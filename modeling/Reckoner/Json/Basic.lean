import Reckoner.Binary64.Basic
import Reckoner.Entries

namespace Reckoner

inductive Json
  | null
  | bool (b : Bool)
  | integer (n : Int)
  | double (x : Float)
  | text (s : String)
  | list (items : List Json)
  | object (entries : List (String × Json))
  deriving BEq, Repr, Inhabited

namespace Json

def get? (j : Json) (key : String) : Option Json :=
  match j with
  | object entries => entries.lookup key
  | _ => none

def text? : Json → Option String
  | text s => some s
  | _ => none

def integer? : Json → Option Int
  | integer n => some n
  | _ => none

def items : Json → List Json
  | list js => js
  | _ => []

def entries : Json → List (String × Json)
  | object es => es
  | _ => []

mutual

def sorted : Json → Json
  | list js => list (sortedItems js)
  | object es => object (Entries.sorted (sortedEntries es))
  | j => j

def sortedItems : List Json → List Json
  | [] => []
  | j :: js => sorted j :: sortedItems js

def sortedEntries : List (String × Json) → List (String × Json)
  | [] => []
  | (k, j) :: es => (k, sorted j) :: sortedEntries es

end

end Json

end Reckoner
