import Reckoner.HostValue
import Reckoner.Json.Basic

namespace Reckoner.HostValue

mutual

def ofJson : Json → HostValue
  | .null => none
  | .bool b => bool b
  | .integer n => integer n
  | .double x => double x
  | .text s => text s
  | .list js => list (ofJsonItems js)
  | .object es => mapping (ofJsonEntries es)

def ofJsonItems : List Json → List HostValue
  | [] => []
  | j :: js => ofJson j :: ofJsonItems js

def ofJsonEntries : List (String × Json) → List (String × HostValue)
  | [] => []
  | (k, j) :: es => (k, ofJson j) :: ofJsonEntries es

end

end Reckoner.HostValue
