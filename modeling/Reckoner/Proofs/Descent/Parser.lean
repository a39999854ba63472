import Reckoner.Expr.Parse

namespace Reckoner.Descent

inductive Activity
  | advance
  | prefixIteration
  | levelIteration (rank : Nat)
  | argumentIteration
  | opening
  | bracket
  | assignment
  | argument
  deriving DecidableEq, Repr

/-- An activity that is over, with the current tokens at its beginning and at its end and the number of
    tokens that were consumed in between. -/
structure Stretch where
  activity : Activity
  before : Token
  after : Token
  consumed : Nat
  deriving DecidableEq, Repr

/-- The current token and where the scan goes on. `consumed` counts the tokens that the current one has
    taken the place of, and `record` has what is over, the latest first. -/
structure State where
  token : Token
  position : Nat
  consumed : Nat
  record : List Stretch
  deriving DecidableEq, Repr

def State.note (s : State) (activity : Activity) (begun : State) : State :=
  { s with record := ⟨activity, begun.token, s.token, s.consumed - begun.consumed⟩ :: s.record }

abbrev Parser := ExceptT ParseError (StateT State Option)

def exhausted {α : Type} : Parser α := fun _ => none

variable (preferDecimal : Bool) (text : String)

def fail {α : Type} (fault : SyntaxFault) : Parser α := do
  let s ← get
  throw ⟨fault, s.token.position, s.token.length⟩

def finish (activity : Activity) (begun : State) : Parser Unit :=
  modify fun s => s.note activity begun

def advance : Parser Unit := do
  let s ← get
  let t := Token.scan preferDecimal text s.position
  match t.lexeme with
  | .error fault => throw ⟨.lexical fault, t.position, t.length⟩
  | _ =>
    set { s with token := t, position := t.stop, consumed := s.consumed + 1 }
    finish .advance s

def next : Parser Unit := do
  let s ← get
  if s.token.lexeme ≠ .eof then advance preferDecimal text

def isCommaFraction (t : Token) : Bool :=
  match t.lexeme with
  | .number _ => text.toList[t.position]? == some ','
  | _ => false

def closing : Parser Unit := do
  let s ← get
  if s.token.lexeme = .symbol .bracketClose then next preferDecimal text
  else fail .closingBracketExpected

def factorialMark (e : Expr) : Parser Expr := do
  let s ← get
  if s.token.lexeme = .symbol .factorial then
    next preferDecimal text
    return .unary .factorial e
  else return e

def separator : Parser Unit := do
  let s ← get
  if s.token.lexeme.isSeparator then next preferDecimal text
  else if isCommaFraction text s.token then
    set { s with position := s.token.position + 1 }
    advance preferDecimal text

def prefixes (fuel : Nat) (p : Prefixes) : Parser Prefixes :=
  match fuel with
  | 0 => exhausted
  | fuel + 1 => do
    let s ← get
    match p.add? s.token.lexeme with
    | none => return p
    | some q =>
      next preferDecimal text
      finish .prefixIteration s
      prefixes fuel q

mutual

def ofRank (fuel rank : Nat) : Parser Expr :=
  match fuel with
  | 0 => exhausted
  | fuel + 1 =>
    match rank with
    | 0 => operand fuel
    | rank + 1 => do
      let first ← ofRank fuel rank
      continued fuel rank first

def continued (fuel rank : Nat) (left : Expr) : Parser Expr :=
  match fuel with
  | 0 => exhausted
  | fuel + 1 => do
    let s ← get
    match Continuation.ofLexeme (rank + 1) s.token.lexeme with
    | .none => return left
    | .operator op =>
      next preferDecimal text
      let right ← ofRank fuel rank
      finish (.levelIteration (rank + 1)) s
      continued fuel rank (.binary op left right)
    | .factor =>
      let right ← ofRank fuel rank
      finish (.levelIteration (rank + 1)) s
      continued fuel rank (.binary (.number .multiply) left right)

def operand (fuel : Nat) : Parser Expr :=
  match fuel with
  | 0 => exhausted
  | fuel + 1 => do
    let p ← prefixes preferDecimal text fuel default
    let s ← get
    if p.delete && !s.token.lexeme.isIdentifier then fail .variableExpected
    else
      let e ← primary fuel p.delete
      let e ← factorialMark preferDecimal text e
      return p.wrap e

def primary (fuel : Nat) (delete : Bool) : Parser Expr :=
  match fuel with
  | 0 => exhausted
  | fuel + 1 => do
    let s ← get
    match s.token.lexeme with
    | .symbol .bracketOpen =>
      next preferDecimal text
      finish .opening s
      let e ← inside fuel .bracket
      closing preferDecimal text
      return e
    | .identifier name =>
      next preferDecimal text
      if delete then return .remove name else named fuel name
    | .number v =>
      next preferDecimal text
      return .constant v
    | _ => fail .operandExpected

def named (fuel : Nat) (name : String) : Parser Expr :=
  match fuel with
  | 0 => exhausted
  | fuel + 1 => do
    let s ← get
    match s.token.lexeme with
    | .symbol .equal =>
      next preferDecimal text
      finish .opening s
      let e ← inside fuel .assignment
      return .assign name e
    | .symbol .bracketOpen =>
      next preferDecimal text
      finish .opening s
      let args ← arguments fuel []
      return .call name args
    | _ => return .read name

def arguments (fuel : Nat) (reversed : List Expr) : Parser (List Expr) :=
  match fuel with
  | 0 => exhausted
  | fuel + 1 => do
    let s ← get
    if s.token.lexeme = .symbol .bracketClose then
      next preferDecimal text
      return reversed.reverse
    else if s.token.lexeme = .eof then fail .closingBracketExpected
    else
      let e ← inside fuel .argument
      separator preferDecimal text
      finish .argumentIteration s
      arguments fuel (e :: reversed)

def inside (fuel : Nat) (construct : Activity) : Parser Expr :=
  match fuel with
  | 0 => exhausted
  | fuel + 1 => do
    let s ← get
    let e ← ofRank fuel loosestRank
    finish construct s
    return e

end

def whole (fuel : Nat) : Parser Expr := do
  let e ← ofRank preferDecimal text fuel loosestRank
  let s ← get
  if s.token.lexeme = .eof then return e else fail .operatorExpected

/-- Parses a text. The first token takes the place of none, so the record begins behind it. -/
def parse (fuel : Nat) : Option (Except ParseError Expr × State) :=
  let begin : Parser Expr := do
    advance preferDecimal text
    modify fun s => { s with consumed := 0, record := [] }
    whole preferDecimal text fuel
  begin ⟨⟨.eof, 0, 0⟩, 0, 0, []⟩

end Reckoner.Descent
