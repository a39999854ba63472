import Reckoner.Text.Numeral
import Reckoner.Token.Literal

namespace Reckoner

def isSpace (c : Char) : Bool := c == ' ' || c == '\t' || c == '\r' || c == '\n'

def isNameStart (c : Char) : Bool := Text.isLetter c || c == '_'

def isNamePart (c : Char) : Bool := Text.isLetter c || Text.isNumeric c || c == '_'

namespace Symbol

def double? : Char → Char → Option Symbol
  | '*', '*' => some power
  | '/', '/' => some root
  | '<', '<' => some shiftLeft
  | '>', '>' => some shiftRight
  | _, _ => none

def single? : Char → Option Symbol
  | '+' => some plus
  | '-' => some minus
  | '*' => some star
  | '/' => some slash
  | '\\' => some backslash
  | '%' => some percent
  | '&' => some bitAnd
  | '|' => some bitOr
  | '^' => some bitXor
  | '~' => some bitNot
  | '!' => some factorial
  | '(' => some bracketOpen
  | ')' => some bracketClose
  | '=' => some equal
  | ';' => some semicolon
  | ',' => some comma
  | '#' => some hash
  | ':' => some colon
  | _ => none

def read? (c : Char) (cs : List Char) : Option (Symbol × Nat) :=
  match cs.head?.bind (double? c) with
  | some s => some (s, 2)
  | none => (single? c).map (·, 1)

theorem read_length_pos {c : Char} {cs : List Char} {found : Symbol × Nat}
    (h : read? c cs = some found) : 0 < found.2 := by
  unfold read? at h
  split at h
  · cases h; simp
  · obtain ⟨s, _, rfl⟩ := Option.map_eq_some_iff.mp h
    simp

end Symbol

namespace Lexeme

def stray (c : Char) : LexicalFault :=
  if c == '<' || c == '>' then .unknownOperator else .invalidCharacter

def read (preferDecimal : Bool) (c : Char) (cs : List Char) : Lexeme × Nat :=
  if Literal.startsNumber c cs then Literal.read preferDecimal (c :: cs)
  else if isNameStart c then
    let rest := cs.takeWhile isNamePart
    (.identifier (String.ofList (c :: rest)), rest.length + 1)
  else match Symbol.read? c cs with
    | some (s, n) => (.symbol s, n)
    | none => (.error (stray c), 1)

theorem read_length_pos (preferDecimal : Bool) (c : Char) (cs : List Char) :
    0 < (read preferDecimal c cs).2 := by
  unfold read
  split
  · exact Literal.read_length_pos preferDecimal c cs (by assumption)
  · split
    · simp
    · cases h : Symbol.read? c cs with
      | none => simp
      | some found => simpa using Symbol.read_length_pos h

end Lexeme

namespace Token

def read (preferDecimal : Bool) (position : Nat) (cs : List Char) : Token × List Char :=
  let start := position + (cs.takeWhile isSpace).length
  match cs.dropWhile isSpace with
  | [] => (⟨.eof, start, 0⟩, [])
  | c :: rest =>
    let (lexeme, length) := Lexeme.read preferDecimal c rest
    (⟨lexeme, start, length⟩, c :: rest)

def scan (preferDecimal : Bool) (text : String) (position : Nat) : Token :=
  (read preferDecimal position (text.toList.drop position)).1

theorem read_rest_length (preferDecimal : Bool) (position : Nat) (cs : List Char) :
    (read preferDecimal position cs).2.length ≤ cs.length := by
  have bound : (cs.dropWhile isSpace).length ≤ cs.length := (List.dropWhile_suffix isSpace).length_le
  unfold read
  cases h : cs.dropWhile isSpace with
  | nil => simp
  | cons c rest => simpa [h] using bound

theorem read_progress (preferDecimal : Bool) (position : Nat) (cs : List Char)
    (more : (read preferDecimal position cs).1.lexeme ≠ .eof) :
    0 < (read preferDecimal position cs).1.length ∧ (read preferDecimal position cs).2 ≠ [] := by
  revert more
  unfold read
  cases h : cs.dropWhile isSpace with
  | nil => simp
  | cons c rest => simpa using fun _ => Lexeme.read_length_pos preferDecimal c rest

def list (preferDecimal : Bool) (position : Nat) (cs : List Char) : List Token :=
  let next := read preferDecimal position cs
  if _ : next.1.lexeme = .eof then []
  else if next.1.lexeme.isError then [next.1]
  else next.1 :: list preferDecimal next.1.stop (next.2.drop next.1.length)
termination_by cs.length
decreasing_by
  have shorter := read_rest_length preferDecimal position cs
  obtain ⟨covers, begun⟩ := read_progress preferDecimal position cs ‹_›
  have := List.length_pos_iff.mpr begun
  simp only [List.length_drop]
  omega

def all (preferDecimal : Bool) (text : String) : List Token := list preferDecimal 0 text.toList

end Token

end Reckoner
