import Reckoner.Expr.Basic
import Reckoner.Expr.Cursor

namespace Reckoner

/-- What a stack of the usual size leaves room for. -/
def usualNesting : Nat := 85

def loosestRank : Nat := 5

def Operation.ofSymbol? : Nat → Symbol → Option Operation
  | 1, .power => some (.number .power)
  | 1, .root => some (.number .root)
  | 2, .star => some (.number .multiply)
  | 2, .slash => some (.number .divide)
  | 2, .percent => some (.word .modulo)
  | 2, .backslash => some (.word .divide)
  | 3, .plus => some (.number .add)
  | 3, .minus => some (.number .subtract)
  | 4, .shiftLeft => some (.word .shiftLeft)
  | 4, .shiftRight => some (.word .shiftRight)
  | 5, .bitAnd => some (.word .bitAnd)
  | 5, .bitOr => some (.word .bitOr)
  | 5, .bitXor => some (.word .bitXor)
  | _, _ => none

inductive Continuation
  | none
  | operator (op : Operation)
  /-- An operand that begins with a name is a factor without an operator. -/
  | factor

def Continuation.ofLexeme (rank : Nat) : Lexeme → Continuation
  | .symbol s =>
    match Operation.ofSymbol? rank s with
    | some op => operator op
    | .none => none
  | .identifier _ => if rank = 2 then factor else none
  | _ => none

/-- The prefixes before a primary, each of them once or not at all: an even number of them
    counts as none. -/
structure Prefixes where
  negate : Bool
  complement : Bool
  delete : Bool
  deriving DecidableEq, Repr, Inhabited

def Prefixes.add? (p : Prefixes) : Lexeme → Option Prefixes
  | .symbol .plus => some p
  | .symbol .minus => some { p with negate := !p.negate }
  | .symbol .bitNot => some { p with complement := !p.complement }
  | .symbol .hash => some { p with delete := !p.delete }
  | _ => none

def Prefixes.wrap (p : Prefixes) (e : Expr) : Expr :=
  let e := if p.negate then .unary .negate e else e
  if p.complement then .unary .complement e else e

def Lexeme.isIdentifier : Lexeme → Bool
  | identifier _ => true
  | _ => false

def Lexeme.isSeparator : Lexeme → Bool
  | symbol .comma => true
  | symbol .semicolon => true
  | _ => false

namespace Expr

abbrev Parsed (α : Type) (bound : Nat) := Except ParseError { r : α × Cursor // r.2.size < bound }

def prefixes (p : Prefixes) (c : Cursor) :
    Except ParseError { r : Prefixes × Cursor // r.2.size ≤ c.size } :=
  match h : p.add? c.lexeme with
  | none => .ok ⟨(p, c), Nat.le_refl _⟩
  | some q => do
    let ⟨d, hd⟩ ← c.next (by intro eof; simp [eof, Prefixes.add?] at h)
    let ⟨r, hr⟩ ← prefixes q d
    return ⟨r, by omega⟩
termination_by c.size

def factorialMark {bound : Nat} (e : Expr) (c : Cursor) (before : c.size < bound) :
    Parsed Expr bound :=
  if h : c.lexeme = .symbol .factorial then do
    let ⟨d, hd⟩ ← c.next (by simp [h])
    return ⟨(.unary .factorial e, d), by simp only; omega⟩
  else .ok ⟨(e, c), before⟩

def tooDeep (c : Cursor) : ParseError := ⟨.tooDeeplyNested, c.token.position, 0⟩

/-- How much may nest inside what begins at the cursor, if that may. -/
def deeper (nesting : Nat) (c : Cursor) : Except ParseError Nat :=
  match nesting with
  | 0 => .error (tooDeep c)
  | nesting + 1 => .ok nesting

def closing (c : Cursor) : Except ParseError { d : Cursor // d.size < c.size } :=
  if h : c.lexeme = .symbol .bracketClose then c.next (by simp [h])
  else .error (c.error .closingBracketExpected)

/-- The cursor behind what separates arguments, if anything does. After an argument a comma
    separates even where it could begin a fraction. -/
def separator (c : Cursor) : Except ParseError { d : Cursor // d.size ≤ c.size } :=
  if h : c.lexeme.isSeparator then do
    let ⟨d, hd⟩ ← c.next (by intro eof; simp [eof, Lexeme.isSeparator] at h)
    return ⟨d, by omega⟩
  else if h : c.isCommaFraction then do
    let ⟨d, hd⟩ ← c.afterComma (by intro eof; simp [eof, Cursor.isCommaFraction] at h)
    return ⟨d, by omega⟩
  else .ok ⟨c, Nat.le_refl _⟩

theorem lex_of_sizes {m n j k : Nat} (h : m < n ∨ m = n ∧ j < k) :
    Prod.Lex (fun a b => a < b) (fun a b => a < b) (m, j) (n, k) :=
  Prod.lex_def.mpr h

mutual

def ofRank (nesting rank : Nat) (c : Cursor) : Parsed Expr c.size :=
  match rank with
  | 0 => operand nesting c
  | rank + 1 => do
    let ⟨(first, d), hd⟩ ← ofRank nesting rank c
    continued nesting rank c.size first d hd
termination_by (c.size, 2 * rank + 2)
decreasing_by
  all_goals
    apply lex_of_sizes
    try dsimp only at *
    omega

def continued (nesting rank bound : Nat) (left : Expr) (c : Cursor) (before : c.size < bound) :
    Parsed Expr bound :=
  match h : Continuation.ofLexeme (rank + 1) c.lexeme with
  | .none => .ok ⟨(left, c), before⟩
  | .operator op => do
    let ⟨d, hd⟩ ← c.next (by intro eof; simp [eof, Continuation.ofLexeme] at h)
    let ⟨(right, f), hf⟩ ← ofRank nesting rank d
    continued nesting rank bound (.binary op left right) f (by simp only at hf; omega)
  | .factor => do
    let ⟨(right, f), hf⟩ ← ofRank nesting rank c
    continued nesting rank bound (.binary (.number .multiply) left right) f
      (by simp only at hf; omega)
termination_by (c.size, 2 * rank + 3)
decreasing_by
  all_goals
    apply lex_of_sizes
    try dsimp only at *
    omega

/-- Prefixes, a primary, and at most one factorial mark; the prefixes apply last. -/
def operand (nesting : Nat) (c : Cursor) : Parsed Expr c.size := do
  let ⟨(p, d), hd⟩ ← prefixes default c
  if p.delete && !d.lexeme.isIdentifier then throw (d.error .variableExpected)
  let ⟨(e, f), hf⟩ ← primary nesting p.delete d
  let ⟨(e, g), hg⟩ ← factorialMark e f hf
  return ⟨(p.wrap e, g), by simp only at hd hg ⊢; omega⟩
termination_by (c.size, 1)
decreasing_by
  all_goals
    apply lex_of_sizes
    try dsimp only at *
    omega

def primary (nesting : Nat) (delete : Bool) (c : Cursor) : Parsed Expr c.size :=
  match h : c.lexeme with
  | .symbol .bracketOpen => do
    let ⟨d, hd⟩ ← c.next (by simp [h])
    let inner ← deeper nesting d
    let ⟨(e, f), hf⟩ ← ofRank inner loosestRank d
    let ⟨g, hg⟩ ← closing f
    return ⟨(e, g), by simp only at hf ⊢; omega⟩
  | .identifier name => do
    let ⟨d, hd⟩ ← c.next (by simp [h])
    if delete then return ⟨(.remove name, d), hd⟩
    else named nesting name c.size d hd
  | .number v => do
    let ⟨d, hd⟩ ← c.next (by simp [h])
    return ⟨(.constant v, d), hd⟩
  | _ => .error (c.error .operandExpected)
termination_by (c.size, 0)
decreasing_by
  all_goals
    apply lex_of_sizes
    try dsimp only at *
    omega

def named (nesting : Nat) (name : String) (bound : Nat) (c : Cursor) (before : c.size < bound) :
    Parsed Expr bound :=
  match h : c.lexeme with
  | .symbol .equal => do
    let ⟨d, hd⟩ ← c.next (by simp [h])
    let inner ← deeper nesting d
    let ⟨(e, f), hf⟩ ← ofRank inner loosestRank d
    return ⟨(.assign name e, f), by simp only at hf ⊢; omega⟩
  | .symbol .bracketOpen => do
    let ⟨d, hd⟩ ← c.next (by simp [h])
    let ⟨(args, f), hf⟩ ← arguments nesting bound [] d (by omega)
    return ⟨(.call name args, f), hf⟩
  | _ => .ok ⟨(.read name, c), before⟩
termination_by (c.size, 0)
decreasing_by
  all_goals
    apply lex_of_sizes
    try dsimp only at *
    omega

def arguments (nesting bound : Nat) (reversed : List Expr) (c : Cursor) (before : c.size < bound) :
    Parsed (List Expr) bound :=
  if h : c.lexeme = .symbol .bracketClose then do
    let ⟨d, hd⟩ ← c.next (by simp [h])
    return ⟨(reversed.reverse, d), by simp only; omega⟩
  else if c.lexeme = .eof then .error (c.error .closingBracketExpected)
  else do
    let inner ← deeper nesting c
    let ⟨(e, d), hd⟩ ← ofRank inner loosestRank c
    let ⟨f, hf⟩ ← separator d
    arguments nesting bound (e :: reversed) f (by simp only at hd; omega)
termination_by (c.size, 2 * loosestRank + 3)
decreasing_by
  all_goals
    apply lex_of_sizes
    try dsimp only at *
    omega

end

def ofText (preferDecimal : Bool) (text : String) (nesting : Nat := usualNesting) :
    Except ParseError Expr := do
  let ⟨start, _⟩ ← Cursor.read preferDecimal 0 text.toList
  let ⟨(e, c), _⟩ ← ofRank nesting loosestRank start
  if c.lexeme = .eof then return e else throw (c.error .operatorExpected)

end Expr

end Reckoner
