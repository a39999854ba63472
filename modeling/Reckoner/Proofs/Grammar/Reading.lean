import Reckoner.Expr.Cursor

namespace Reckoner.Grammar

def CommaFraction (text : String) (t : Token) : Prop :=
  (∃ v, t.lexeme = .number v) ∧ text.toList[t.position]? = some ','

/-- Between two positions a text can be read as these tokens. The comma of a comma fraction can be
    read as a token of its own, and then the number behind it is read next. -/
inductive Reads (preferDecimal : Bool) (text : String) : Nat → List Token → Nat → Prop
  | done (p : Nat) : Reads preferDecimal text p [] p
  | token {p q : Nat} {t : Token} {ts : List Token} (scanned : Token.scan preferDecimal text p = t)
      (more : t.lexeme ≠ .eof) (valid : t.lexeme.isError = false)
      (rest : Reads preferDecimal text t.stop ts q) : Reads preferDecimal text p (t :: ts) q
  | comma {p q : Nat} {t : Token} {ts : List Token} (scanned : Token.scan preferDecimal text p = t)
      (fraction : CommaFraction text t) (rest : Reads preferDecimal text (t.position + 1) ts q) :
      Reads preferDecimal text p (⟨.symbol .comma, t.position, 1⟩ :: ts) q

/-- A text can be read as these tokens from its beginning to its end. -/
def Spells (preferDecimal : Bool) (text : String) (ts : List Token) : Prop :=
  ∃ q, Reads preferDecimal text 0 ts q ∧ (Token.scan preferDecimal text q).lexeme = .eof

def Readable (preferDecimal : Bool) (text : String) (p : Nat) : Prop :=
  (Token.scan preferDecimal text p).lexeme.isError = false

section

variable {preferDecimal : Bool} {text : String}

theorem Reads.append {p q r : Nat} {ts us : List Token} (first : Reads preferDecimal text p ts q)
    (second : Reads preferDecimal text q us r) : Reads preferDecimal text p (ts ++ us) r := by
  induction first with
  | done => exact second
  | token scanned more valid _ ih => exact .token scanned more valid (ih second)
  | comma scanned fraction _ ih => exact .comma scanned fraction (ih second)

theorem Reads.split {p r : Nat} {ts us : List Token}
    (whole : Reads preferDecimal text p (ts ++ us) r) :
    ∃ q, Reads preferDecimal text p ts q ∧ Reads preferDecimal text q us r := by
  induction ts generalizing p with
  | nil => exact ⟨p, .done p, whole⟩
  | cons t ts ih =>
    cases whole with
    | token scanned more valid rest =>
      obtain ⟨q, first, second⟩ := ih rest
      exact ⟨q, .token scanned more valid first, second⟩
    | comma scanned fraction rest =>
      obtain ⟨q, first, second⟩ := ih rest
      exact ⟨q, .comma scanned fraction first, second⟩

theorem Reads.uncons {p q : Nat} {t : Token} {ts : List Token}
    (read : Reads preferDecimal text p (t :: ts) q) (other : t.lexeme ≠ .symbol .comma) :
    Token.scan preferDecimal text p = t ∧ Reads preferDecimal text t.stop ts q := by
  cases read with
  | token scanned _ _ rest => exact ⟨scanned, rest⟩
  | comma => exact absurd rfl other

theorem Reads.head {p q : Nat} {ts : List Token} (read : Reads preferDecimal text p ts q)
    (begins : ∃ t us, ts = t :: us ∧ t.lexeme ≠ .symbol .comma) :
    ts.head? = some (Token.scan preferDecimal text p) := by
  obtain ⟨t, us, rfl, other⟩ := begins
  exact congrArg some (read.uncons other).1.symm

end

variable (preferDecimal : Bool) (text : String)

def cursorAt (p : Nat) : Cursor :=
  ⟨preferDecimal, Token.scan preferDecimal text p,
    (Token.read preferDecimal p (text.toList.drop p)).2,
    Token.read_progress preferDecimal p (text.toList.drop p)⟩

theorem cursorAt_lexeme (p : Nat) : (cursorAt preferDecimal text p).lexeme =
    (Token.scan preferDecimal text p).lexeme := rfl

theorem drop_length_takeWhile (f : Char → Bool) (cs : List Char) :
    cs.drop (cs.takeWhile f).length = cs.dropWhile f := by
  induction cs with
  | nil => rfl
  | cons c cs ih =>
    by_cases h : f c = true
    · simpa [h] using ih
    · simp [h]

theorem cursorAt_here (p : Nat) : (cursorAt preferDecimal text p).here =
    text.toList.drop (Token.scan preferDecimal text p).position := by
  have skipped := drop_length_takeWhile isSpace (text.toList.drop p)
  rw [List.drop_drop] at skipped
  simp only [cursorAt, Token.scan, Token.read]
  split
  · rename_i blank
    rw [blank] at skipped
    exact skipped.symm
  · rename_i c rest found
    rw [found] at skipped
    exact skipped.symm

variable {preferDecimal text}

theorem drop_here (p n : Nat) : (cursorAt preferDecimal text p).here.drop n =
    text.toList.drop ((Token.scan preferDecimal text p).position + n) := by
  rw [cursorAt_here, List.drop_drop]

theorem read_eq_cursorAt {p : Nat} {cs : List Char} {d : { d : Cursor // d.size ≤ cs.length }}
    (here : cs = text.toList.drop p) (read : Cursor.read preferDecimal p cs = .ok d) :
    d.1 = cursorAt preferDecimal text p ∧ Readable preferDecimal text p := by
  subst here
  simp only [Cursor.read] at read
  split at read
  · cases read
  · rename_i noError
    cases read
    refine ⟨rfl, ?_⟩
    unfold Readable
    cases h : (Token.scan preferDecimal text p).lexeme with
    | error fault => exact absurd h (noError fault)
    | _ => rfl

theorem read_succeeds {p : Nat} {cs : List Char} (here : cs = text.toList.drop p)
    (readable : Readable preferDecimal text p) :
    ∃ shorter, Cursor.read preferDecimal p cs = .ok ⟨cursorAt preferDecimal text p, shorter⟩ := by
  subst here
  simp only [Cursor.read]
  split
  · rename_i fault h
    have lexeme : (Token.scan preferDecimal text p).lexeme = .error fault := h
    rw [Readable, lexeme] at readable
    cases readable
  · exact ⟨Token.read_rest_length preferDecimal p (text.toList.drop p), rfl⟩

theorem next_succeeds {p : Nat} (more : (cursorAt preferDecimal text p).lexeme ≠ .eof)
    (readable : Readable preferDecimal text (Token.scan preferDecimal text p).stop) :
    ∃ shorter, (cursorAt preferDecimal text p).next more =
      .ok ⟨cursorAt preferDecimal text (Token.scan preferDecimal text p).stop, shorter⟩ := by
  obtain ⟨bound, read⟩ := read_succeeds (drop_here p _) readable
  exact ⟨_, congrArg (Except.map _) read⟩

theorem afterComma_succeeds {p : Nat} (more : (cursorAt preferDecimal text p).lexeme ≠ .eof)
    (readable : Readable preferDecimal text ((Token.scan preferDecimal text p).position + 1)) :
    ∃ shorter, (cursorAt preferDecimal text p).afterComma more =
      .ok ⟨cursorAt preferDecimal text ((Token.scan preferDecimal text p).position + 1),
        shorter⟩ := by
  obtain ⟨bound, read⟩ := read_succeeds (drop_here p 1) readable
  exact ⟨_, congrArg (Except.map _) read⟩

theorem isCommaFraction_cursorAt (p : Nat) : (cursorAt preferDecimal text p).isCommaFraction = true ↔
    CommaFraction text (Token.scan preferDecimal text p) := by
  unfold Cursor.isCommaFraction CommaFraction
  rw [cursorAt_lexeme, cursorAt_here, List.head?_drop]
  cases (Token.scan preferDecimal text p).lexeme <;> simp

theorem read_fails {p : Nat} {cs : List Char} {fault : LexicalFault} (here : cs = text.toList.drop p)
    (lexeme : (Token.scan preferDecimal text p).lexeme = .error fault) :
    Cursor.read preferDecimal p cs =
      .error ((cursorAt preferDecimal text p).error (.lexical fault)) := by
  subst here
  simp only [Cursor.read]
  split
  · rename_i fault' lexeme'
    cases lexeme.symm.trans lexeme'
    rfl
  · rename_i noFault
    exact absurd lexeme (noFault fault)

theorem next_fails {p : Nat} {fault : LexicalFault}
    {more : (cursorAt preferDecimal text p).lexeme ≠ .eof}
    (lexeme : (Token.scan preferDecimal text (Token.scan preferDecimal text p).stop).lexeme =
      .error fault) :
    (cursorAt preferDecimal text p).next more =
      .error ((cursorAt preferDecimal text (Token.scan preferDecimal text p).stop).error
        (.lexical fault)) :=
  congrArg (Except.map _) (read_fails (drop_here p _) lexeme)

theorem afterComma_fails {p : Nat} {fault : LexicalFault}
    {more : (cursorAt preferDecimal text p).lexeme ≠ .eof}
    (lexeme : (Token.scan preferDecimal text
      ((Token.scan preferDecimal text p).position + 1)).lexeme = .error fault) :
    (cursorAt preferDecimal text p).afterComma more =
      .error ((cursorAt preferDecimal text ((Token.scan preferDecimal text p).position + 1)).error
        (.lexical fault)) :=
  congrArg (Except.map _) (read_fails (drop_here p 1) lexeme)

theorem readable_or_fault (preferDecimal : Bool) (text : String) (p : Nat) :
    Readable preferDecimal text p ∨
      ∃ fault, (Token.scan preferDecimal text p).lexeme = .error fault := by
  unfold Readable
  cases (Token.scan preferDecimal text p).lexeme with
  | error fault => exact .inr ⟨fault, rfl⟩
  | _ => exact .inl rfl

end Reckoner.Grammar
