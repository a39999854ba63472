import Reckoner.Value.Basic
import Reckoner.Text.Quoted

namespace Reckoner

inductive HostValue
  | none
  | bool (b : Bool)
  | integer (n : Int)
  | decimal (d : Decimal)
  | double (x : Float)
  | text (s : String)
  | tagged (v : Value)
  | list (items : List HostValue)
  | mapping (entries : List (String × HostValue))
  | function
  deriving BEq, Repr, Inhabited

namespace HostValue

def kindName : HostValue → String
  | none => "NoneType"
  | bool _ => "bool"
  | integer _ => "int"
  | decimal _ => "Decimal"
  | double _ => "float"
  | text _ => "str"
  | tagged _ => "NumericValue"
  | list _ => "list"
  | mapping _ => "dict"
  | function => "function"

def boolText (b : Bool) : String := if b then "True" else "False"

def decimalLiteral (d : Decimal) : String := "Decimal('" ++ d.toText ++ "')"

def taggedText (v : Value) : String :=
  let payload := match v with
    | .decimal d => decimalLiteral d
    | v => v.payloadText
  "NumericValue(tag=" ++ v.tag.display ++ ", value=" ++ payload ++ ")"

mutual

def innerText : HostValue → String
  | none => "None"
  | bool b => boolText b
  | integer n => Text.intText n
  | decimal d => decimalLiteral d
  | double x => Binary64.toText x
  | text s => Text.quoted s
  | tagged v => taggedText v
  | list items => "[" ++ ", ".intercalate (itemTexts items) ++ "]"
  | mapping entries => "\x7b" ++ ", ".intercalate (entryTexts entries) ++ "\x7d"
  | function => "function"

def itemTexts : List HostValue → List String
  | [] => []
  | v :: vs => innerText v :: itemTexts vs

def entryTexts : List (String × HostValue) → List String
  | [] => []
  | (k, v) :: es => (Text.quoted k ++ ": " ++ innerText v) :: entryTexts es

end

def display : HostValue → String
  | text s => s
  | decimal d => d.toText
  | tagged v => v.toText
  | v => innerText v

def ofValue : Value → HostValue
  | .empty => none
  | .integer n => integer n
  | .decimal d => decimal d
  | .double x => double x

def isNone : HostValue → Bool
  | none => true
  | _ => false

def isTruthy : HostValue → Bool
  | none => false
  | bool b => b
  | integer n => n != 0
  | decimal d => !d.isZero
  | double x => x != 0
  | text s => !s.isEmpty
  | list items => !items.isEmpty
  | mapping entries => !entries.isEmpty
  | _ => true

end HostValue

end Reckoner
