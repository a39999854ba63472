import Reckoner.Error

namespace Reckoner.Value

def supportedBases : List Int := [2, 8, 10, 16]

def baseMark (base : Int) : List Char :=
  if base = 2 then ['0', 'b'] else if base = 8 then ['0', 'o'] else ['0', 'x']

def wordChars (base : Int) (n : Int) : List Char :=
  baseMark base ++ (Text.numeral base.toNat (n % wordCount).toNat).map Char.toUpper

def format (base : Int) (v : Value) : Except ValueFault String :=
  if base ∉ supportedBases then .error (.unsupportedBase base)
  else match v with
    | empty => .ok ""
    | integer n => .ok (if base = 10 then Text.intText n else String.ofList (wordChars base n))
    | v => if base = 10 then .ok v.payloadText else .error (.baseNeedsInteger base v.tag)

end Reckoner.Value
