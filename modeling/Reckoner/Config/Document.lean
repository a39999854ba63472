import Reckoner.Config.Scalar
import Reckoner.Entries
import Reckoner.Json.Read

namespace Reckoner.Config

def isInlineBlank (c : Char) : Bool := c == ' ' || c == '\t'

def isLineBreak (c : Char) : Bool := c == '\n' || c == '\r'

def trim (cs : List Char) : List Char :=
  Text.trimWhile (fun c => isInlineBlank c || isLineBreak c) cs

def beforeComment (afterBlank : Bool) : List Char → List Char
  | [] => []
  | c :: cs => if c == '#' && afterBlank then [] else c :: beforeComment (isInlineBlank c) cs

def isLineRest (cs : List Char) : Bool := (trim (beforeComment true cs)).isEmpty

def singleQuoted? : List Char → Option (List Char × List Char)
  | '\'' :: '\'' :: rest => (singleQuoted? rest).map fun r => ('\'' :: r.1, r.2)
  | '\'' :: rest => some ([], rest)
  | c :: rest => (singleQuoted? rest).map fun r => (c :: r.1, r.2)
  | [] => none

def quoted? : List Char → Option (String × List Char)
  | '"' :: rest => Json.string? rest
  | '\'' :: rest => (singleQuoted? rest).map fun r => (String.ofList r.1, r.2)
  | _ => none

def endsKey : List Char → Bool
  | [] => true
  | c :: _ => isInlineBlank c || isLineBreak c

def skipFlow (comment : Bool) : List Char → List Char
  | [] => []
  | c :: cs =>
    if comment then skipFlow (!isLineBreak c) cs
    else if c == '#' then skipFlow true cs
    else if isInlineBlank c || isLineBreak c then skipFlow false cs
    else c :: cs

def isBracket (c : Char) : Bool := c == ',' || c == '[' || c == ']' || c == '{' || c == '}'

def flowPlain : List Char → List Char × List Char
  | [] => ([], [])
  | c :: cs =>
    if isBracket c || isLineBreak c || (c == ':' && (endsKey cs || cs.head?.any isBracket)) then
      ([], c :: cs)
    else
      let (word, rest) := flowPlain cs
      (c :: word, rest)

def flowScalar? (cs : List Char) : Option (HostValue × List Char) :=
  match cs with
  | '"' :: _ => (quoted? cs).map fun r => (.text r.1, r.2)
  | '\'' :: _ => (quoted? cs).map fun r => (.text r.1, r.2)
  | _ =>
    let (word, rest) := flowPlain cs
    some (scalar (String.ofList (trim word)), rest)

def flowKey? (cs : List Char) : Option (String × List Char) := do
  let (key, rest) ← (quoted? cs).or
    (let (word, rest) := flowPlain cs
    some (String.ofList (trim word), rest))
  let ':' :: rest := skipFlow false rest | none
  return (key, rest)

mutual

def flowValue? : Nat → List Char → Option (HostValue × List Char)
  | 0, _ => none
  | fuel + 1, cs =>
    match skipFlow false cs with
    | '[' :: rest => (flowItems? fuel rest).map fun r => (.list r.1, r.2)
    | '{' :: rest => (flowEntries? fuel rest).map fun r => (.mapping (Entries.update [] r.1), r.2)
    | rest => flowScalar? rest

def flowItems? : Nat → List Char → Option (List HostValue × List Char)
  | 0, _ => none
  | fuel + 1, cs =>
    match skipFlow false cs with
    | ']' :: rest => some ([], rest)
    | start => do
      let (v, rest) ← flowValue? fuel start
      match skipFlow false rest with
      | ',' :: rest =>
        let (vs, rest) ← flowItems? fuel rest
        return (v :: vs, rest)
      | ']' :: rest => return ([v], rest)
      | _ => none

def flowEntries? : Nat → List Char → Option (List (String × HostValue) × List Char)
  | 0, _ => none
  | fuel + 1, cs =>
    match skipFlow false cs with
    | '}' :: rest => some ([], rest)
    | start => do
      let (key, rest) ← flowKey? start
      let (v, rest) ← flowValue? fuel rest
      match skipFlow false rest with
      | ',' :: rest =>
        let (es, rest) ← flowEntries? fuel rest
        return ((key, v) :: es, rest)
      | '}' :: rest => return ([(key, v)], rest)
      | _ => none

end

def wholeFlow? (cs : List Char) : Option HostValue := do
  let (v, rest) ← flowValue? (2 * cs.length + 2) cs
  if (skipFlow false rest).isEmpty then return v else none

structure Line where
  indent : Nat
  text : List Char
  deriving DecidableEq, Repr

def Line.ofChars (cs : List Char) : Line :=
  let blanks := cs.takeWhile (· == ' ')
  ⟨blanks.length, cs.drop blanks.length⟩

def plainKey? : List Char → Option (List Char × List Char)
  | [] => none
  | ':' :: rest =>
    if endsKey rest then some ([], rest)
    else (plainKey? rest).map fun r => (':' :: r.1, r.2)
  | '#' :: _ => none
  | c :: rest => (plainKey? rest).map fun r => (c :: r.1, r.2)

def key? (cs : List Char) : Option (String × List Char) :=
  match quoted? cs with
  | some (key, ':' :: rest) => if endsKey rest then some (key, rest) else none
  | some _ => none
  | none => (plainKey? cs).map fun r => (String.ofList (trim r.1), r.2)

def inlineValue? (cs : List Char) : Option HostValue :=
  match trim cs with
  | '[' :: rest => wholeFlow? ('[' :: rest)
  | '{' :: rest => wholeFlow? ('{' :: rest)
  | '"' :: rest => do
    let (s, rest) ← quoted? ('"' :: rest)
    if isLineRest rest then return .text s else none
  | '\'' :: rest => do
    let (s, rest) ← quoted? ('\'' :: rest)
    if isLineRest rest then return .text s else none
  | _ => some (scalar (String.ofList (trim (beforeComment true cs))))

def block? : Nat → Nat → List Line → Option (List (String × HostValue) × List Line)
  | 0, _, _ => none
  | _ + 1, _, [] => some ([], [])
  | fuel + 1, indent, line :: lines =>
    if line.indent < indent then some ([], line :: lines)
    else if indent < line.indent then none
    else do
      let (key, rest) ← key? line.text
      let (v, lines) ←
        if isLineRest rest then
          match lines with
          | [] => some (HostValue.none, [])
          | next :: _ =>
            if indent < next.indent then
              (block? fuel next.indent lines).map fun r => (.mapping (Entries.update [] r.1), r.2)
            else some (HostValue.none, lines)
        else (inlineValue? rest).map (·, lines)
      let (es, lines) ← block? fuel indent lines
      return ((key, v) :: es, lines)

def contentLines (s : String) : List Line :=
  (s.splitOn "\n").filterMap fun line =>
    let line := Line.ofChars line.toList
    if isLineRest line.text || line.text == "---".toList then none else some line

def document? (s : String) : Option HostValue :=
  match contentLines s with
  | [] => some .none
  | first :: more =>
    if first.text.head? == some '{' || first.text.head? == some '[' then wholeFlow? s.toList
    else if (key? first.text).isSome then
      match block? (2 * more.length + 3) first.indent (first :: more) with
      | some (es, []) => some (.mapping (Entries.update [] es))
      | _ => none
    else if more.isEmpty then inlineValue? first.text
    else none

end Reckoner.Config
