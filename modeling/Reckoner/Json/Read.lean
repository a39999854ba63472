import Reckoner.Decimal.Text
import Reckoner.Json.Basic

namespace Reckoner.Json

open Text

def isBlank (c : Char) : Bool := c == ' ' || c == '\t' || c == '\n' || c == '\r'

def skipBlanks (cs : List Char) : List Char := cs.dropWhile isBlank

def unit? (a b c d : Char) : Option Nat := do
  let a ← digitOf? a
  let b ← digitOf? b
  let c ← digitOf? c
  let d ← digitOf? d
  return ((a * 16 + b) * 16 + c) * 16 + d

def escaped? : Char → Option Char
  | '"' => some '"'
  | '\\' => some '\\'
  | '/' => some '/'
  | 'b' => some '\x08'
  | 'f' => some '\x0c'
  | 'n' => some '\n'
  | 'r' => some '\r'
  | 't' => some '\t'
  | _ => none

def isHighUnit (n : Nat) : Bool := 0xD800 ≤ n && n < 0xDC00

def isLowUnit (n : Nat) : Bool := 0xDC00 ≤ n && n < 0xE000

def unitChar (n : Nat) : Char :=
  if isHighUnit n || isLowUnit n then '\uFFFD' else Char.ofNat n

def pairChar (high low : Nat) : Char :=
  Char.ofNat (0x10000 + (high - 0xD800) * 0x400 + (low - 0xDC00))

def lowUnit? : List Char → Option (Nat × List Char)
  | '\\' :: 'u' :: a :: b :: c :: d :: rest =>
    match unit? a b c d with
    | some n => if isLowUnit n then some (n, rest) else none
    | none => none
  | _ => none

def stringChar? : List Char → Option (Char × List Char)
  | '\\' :: 'u' :: a :: b :: c :: d :: rest => do
    let n ← unit? a b c d
    if isHighUnit n then
      match lowUnit? rest with
      | some (low, rest) => return (pairChar n low, rest)
      | none => return (unitChar n, rest)
    else return (unitChar n, rest)
  | '\\' :: c :: rest => (escaped? c).map (·, rest)
  | c :: rest => if c == '"' || c == '\\' || c.toNat < 32 then none else some (c, rest)
  | [] => none

def stringBody? : Nat → List Char → Option (List Char × List Char)
  | 0, _ => none
  | _ + 1, '"' :: rest => some ([], rest)
  | fuel + 1, cs => do
    let (c, rest) ← stringChar? cs
    let (body, rest) ← stringBody? fuel rest
    return (c :: body, rest)

def string? (cs : List Char) : Option (String × List Char) :=
  (stringBody? (cs.length + 1) cs).map fun r => (String.ofList r.1, r.2)

def digitsAfter (isMark : Char → Bool) (sign : Bool) : List Char → List Char × List Char
  | c :: cs =>
    let rest := if sign then (takeSign cs).2 else cs
    if isMark c && !(rest.takeWhile Char.isDigit).isEmpty then
      (c :: cs.take (cs.length - rest.length) ++ rest.takeWhile Char.isDigit,
        rest.dropWhile Char.isDigit)
    else ([], c :: cs)
  | [] => ([], [])

def wholeDigits : List Char → List Char × List Char
  | '0' :: rest => (['0'], rest)
  | cs => (cs.takeWhile Char.isDigit, cs.dropWhile Char.isDigit)

def number? (cs : List Char) : Option (Json × List Char) :=
  let negative := cs.head? == some '-'
  let (whole, rest) := wholeDigits (if negative then cs.drop 1 else cs)
  let (fraction, rest) := digitsAfter (· == '.') false rest
  let (exponent, rest) := digitsAfter (fun c => c == 'e' || c == 'E') true rest
  if whole.isEmpty then none
  else if fraction.isEmpty && exponent.isEmpty then
    some (integer (Decimal.signed negative (numeralValue 10 whole)), rest)
  else (Decimal.readMagnitude? negative (whole ++ fraction ++ exponent)).map fun d =>
    (double (Binary64.ofDecimal d), rest)

def names : List (String × Json) := [
    ("null", null), ("true", bool true), ("false", bool false), ("NaN", double Binary64.nan),
    ("Infinity", double (Binary64.infinity false)), ("-Infinity", double (Binary64.infinity true))]

def name? (cs : List Char) : Option (Json × List Char) :=
  names.findSome? fun (name, j) =>
    if name.toList.isPrefixOf cs then some (j, cs.drop name.length) else none

mutual

def value? : Nat → List Char → Option (Json × List Char)
  | 0, _ => none
  | fuel + 1, cs =>
    match skipBlanks cs with
    | '"' :: rest => (string? rest).map fun r => (text r.1, r.2)
    | '[' :: rest =>
      match skipBlanks rest with
      | ']' :: rest => some (list [], rest)
      | rest => (items? fuel rest).map fun r => (list r.1, r.2)
    | '{' :: rest =>
      match skipBlanks rest with
      | '}' :: rest => some (object [], rest)
      | rest => (entries? fuel rest).map fun r => (object (Entries.update [] r.1), r.2)
    | rest => (name? rest).or (number? rest)

def items? : Nat → List Char → Option (List Json × List Char)
  | 0, _ => none
  | fuel + 1, cs => do
    let (j, rest) ← value? fuel cs
    match skipBlanks rest with
    | ']' :: rest => return ([j], rest)
    | ',' :: rest =>
      let (js, rest) ← items? fuel rest
      return (j :: js, rest)
    | _ => none

def entries? : Nat → List Char → Option (List (String × Json) × List Char)
  | 0, _ => none
  | fuel + 1, cs => do
    let '"' :: rest := skipBlanks cs | none
    let (key, rest) ← string? rest
    let ':' :: rest := skipBlanks rest | none
    let (j, rest) ← value? fuel rest
    match skipBlanks rest with
    | '}' :: rest => return ([(key, j)], rest)
    | ',' :: rest =>
      let (es, rest) ← entries? fuel rest
      return ((key, j) :: es, rest)
    | _ => none

end

def read? (s : String) : Option Json :=
  let cs := s.toList
  match value? (2 * cs.length + 2) cs with
  | some (j, rest) => if (skipBlanks rest).isEmpty then some j else none
  | none => none

end Reckoner.Json
