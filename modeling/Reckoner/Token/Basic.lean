import Reckoner.Error

namespace Reckoner

inductive Symbol
  | plus
  | minus
  | star
  | slash
  | backslash
  | percent
  | bitAnd
  | bitOr
  | bitXor
  | bitNot
  | factorial
  | power
  | root
  | shiftLeft
  | shiftRight
  | bracketOpen
  | bracketClose
  | equal
  | semicolon
  | comma
  | hash
  | colon
  deriving DecidableEq, Repr, Inhabited

def Symbol.name : Symbol → String
  | plus => "PLUS"
  | minus => "MINUS"
  | star => "STAR"
  | slash => "SLASH"
  | backslash => "BACKSLASH"
  | percent => "PERCENT"
  | bitAnd => "BIT_AND"
  | bitOr => "BIT_OR"
  | bitXor => "BIT_XOR"
  | bitNot => "BIT_NOT"
  | factorial => "FACTORIAL"
  | power => "POWER"
  | root => "ROOT"
  | shiftLeft => "SHIFT_LEFT"
  | shiftRight => "SHIFT_RIGHT"
  | bracketOpen => "BRACKET_OPEN"
  | bracketClose => "BRACKET_CLOSE"
  | equal => "EQUAL"
  | semicolon => "SEMI"
  | comma => "COMMA"
  | hash => "HASH"
  | colon => "COLON"

inductive Lexeme
  | eof
  | error (fault : LexicalFault)
  | symbol (s : Symbol)
  | identifier (name : String)
  | number (v : Value)
  deriving DecidableEq, Repr, Inhabited

namespace Lexeme

def name : Lexeme → String
  | eof => "EOF"
  | error _ => "ERROR"
  | symbol s => s.name
  | identifier _ => "IDENTIFIER"
  | number _ => "NUMBER"

def content : Lexeme → String
  | eof => "<null>"
  | error fault => fault.message
  | symbol _ => "<null>"
  | identifier name => name
  | number v => v.toText

def isError : Lexeme → Bool
  | error _ => true
  | _ => false

end Lexeme

structure Token where
  lexeme : Lexeme
  position : Nat
  length : Nat
  deriving DecidableEq, Repr, Inhabited

namespace Token

def stop (t : Token) : Nat := t.position + t.length

def toText (t : Token) : String :=
  "Token " ++ t.lexeme.name ++ " [" ++ Text.natText t.position ++ "," ++ Text.natText t.length ++
    "]: " ++ t.lexeme.content

def covered (position : Nat) (cs : List Char) : List Token → List String
  | [] => []
  | t :: ts =>
    let cs := cs.drop (t.position - position)
    String.ofList (cs.take t.length) :: covered t.position cs ts

def withSource (text : String) (tokens : List Token) : List (Token × String) :=
  tokens.zip (covered 0 text.toList tokens)

end Token

end Reckoner
