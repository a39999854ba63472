import Reckoner.Token.Scan

namespace Reckoner

structure Cursor where
  preferDecimal : Bool
  token : Token
  here : List Char
  progress : token.lexeme ≠ .eof → 0 < token.length ∧ here ≠ []

namespace Cursor

def size (c : Cursor) : Nat := c.here.length

def lexeme (c : Cursor) : Lexeme := c.token.lexeme

def error (c : Cursor) (fault : SyntaxFault) : ParseError :=
  ⟨fault, c.token.position, c.token.length⟩

def read (preferDecimal : Bool) (position : Nat) (cs : List Char) :
    Except ParseError { c : Cursor // c.size ≤ cs.length } :=
  let found := Token.read preferDecimal position cs
  let c : Cursor := ⟨preferDecimal, found.1, found.2, Token.read_progress preferDecimal position cs⟩
  match c.lexeme with
  | .error fault => .error (c.error (.lexical fault))
  | _ => .ok ⟨c, Token.read_rest_length preferDecimal position cs⟩

def next (c : Cursor) (more : c.lexeme ≠ .eof) : Except ParseError { d : Cursor // d.size < c.size } :=
  (read c.preferDecimal c.token.stop (c.here.drop c.token.length)).map fun d =>
    ⟨d.1, by
      have := d.2
      have := List.length_pos_iff.mpr (c.progress more).2
      have := (c.progress more).1
      simp only [size, List.length_drop] at *
      omega⟩

/-- The cursor after a comma that was read as the start of a fraction: the number behind it. -/
def afterComma (c : Cursor) (more : c.lexeme ≠ .eof) :
    Except ParseError { d : Cursor // d.size < c.size } :=
  (read c.preferDecimal (c.token.position + 1) (c.here.drop 1)).map fun d =>
    ⟨d.1, by
      have := d.2
      have := List.length_pos_iff.mpr (c.progress more).2
      simp only [size, List.length_drop] at *
      omega⟩

def isCommaFraction (c : Cursor) : Bool :=
  match c.lexeme with
  | .number _ => c.here.head? == some ','
  | _ => false

end Cursor

end Reckoner
