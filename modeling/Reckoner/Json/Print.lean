import Reckoner.Binary64.Text
import Reckoner.Json.Basic
import Reckoner.Text.Quoted

namespace Reckoner.Json

def unitChars (n : Nat) : List Char := '\\' :: 'u' :: Text.hexDigits 4 n

def charText (c : Char) : List Char :=
  if c == '"' || c == '\\' then ['\\', c]
  else if c == '\n' then ['\\', 'n']
  else if c == '\r' then ['\\', 'r']
  else if c == '\t' then ['\\', 't']
  else if c == '\x08' then ['\\', 'b']
  else if c == '\x0c' then ['\\', 'f']
  else if 32 ≤ c.toNat && c.toNat ≤ 126 then [c]
  else if c.toNat < 0x10000 then unitChars c.toNat
  else
    let n := c.toNat - 0x10000
    unitChars (0xD800 + n / 0x400) ++ unitChars (0xDC00 + n % 0x400)

def stringChars (s : String) : List Char := '"' :: s.toList.flatMap charText ++ ['"']

def doubleChars (x : Float) : List Char :=
  match Binary64.parts x with
  | .nan => "NaN".toList
  | .infinity s => (if s then "-Infinity" else "Infinity").toList
  | .finite .. => Binary64.chars x

mutual

def chars : Json → List Char
  | null => "null".toList
  | bool b => (if b then "true" else "false").toList
  | integer n => Text.intChars n
  | double x => doubleChars x
  | text s => stringChars s
  | list js => '[' :: itemChars js ++ [']']
  | object es => '{' :: entryChars es ++ ['}']

def itemChars : List Json → List Char
  | [] => []
  | [j] => chars j
  | j :: js => chars j ++ ',' :: ' ' :: itemChars js

def entryChars : List (String × Json) → List Char
  | [] => []
  | [(k, j)] => stringChars k ++ ':' :: ' ' :: chars j
  | (k, j) :: es => stringChars k ++ ':' :: ' ' :: chars j ++ ',' :: ' ' :: entryChars es

end

def print (j : Json) : String := String.ofList j.chars

def newLine (level : Nat) : List Char := '\n' :: List.replicate (2 * level) ' '

mutual

def indentedChars (level : Nat) : Json → List Char
  | list (j :: js) =>
    '[' :: indentedItems (level + 1) (j :: js) ++ newLine level ++ [']']
  | object (e :: es) =>
    '{' :: indentedEntries (level + 1) (e :: es) ++ newLine level ++ ['}']
  | j => chars j

def indentedItems (level : Nat) : List Json → List Char
  | [] => []
  | [j] => newLine level ++ indentedChars level j
  | j :: js => newLine level ++ indentedChars level j ++ ',' :: indentedItems level js

def indentedEntries (level : Nat) : List (String × Json) → List Char
  | [] => []
  | [(k, j)] => newLine level ++ stringChars k ++ ':' :: ' ' :: indentedChars level j
  | (k, j) :: es =>
    newLine level ++ stringChars k ++ ':' :: ' ' :: indentedChars level j ++
      ',' :: indentedEntries level es

end

def printIndented (j : Json) : String := String.ofList (indentedChars 0 j)

end Reckoner.Json
