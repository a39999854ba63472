import Reckoner.Expr.Parse
import Reckoner.Proofs.Grammar.Reading

namespace Reckoner

namespace Grammar

def operators : Nat → List (Symbol × Operation)
  | 1 => [(.power, .number .power), (.root, .number .root)]
  | 2 => [(.star, .number .multiply), (.slash, .number .divide), (.percent, .word .modulo),
      (.backslash, .word .divide)]
  | 3 => [(.plus, .number .add), (.minus, .number .subtract)]
  | 4 => [(.shiftLeft, .word .shiftLeft), (.shiftRight, .word .shiftRight)]
  | 5 => [(.bitAnd, .word .bitAnd), (.bitOr, .word .bitOr), (.bitXor, .word .bitXor)]
  | _ => []

def signs : List Symbol := [.plus, .minus, .bitNot, .hash]

def odd (s : Symbol) (ps : List Symbol) : Bool := ps.count s % 2 == 1

/-- An operand behind a run of signs: negated and then complemented where these are odd. -/
def signed (ps : List Symbol) (e : Expr) : Expr :=
  let e := if odd .minus ps then .unary .negate e else e
  if odd .bitNot ps then .unary .complement e else e

def separators : List Symbol := [.comma, .semicolon]

def BeginsWithName (ts : List Token) : Prop := ∃ t name, ts.head? = some t ∧ t.lexeme = .identifier name

mutual

/-- Tokens that derive an expression of a rank, from an operand at rank 0 to a whole expression
    at rank 5. -/
inductive Phrase (text : String) : Nat → List Token → Expr → Prop
  | operand {ps : List Symbol} {ts us : List Token} {e : Expr}
      (run : ∀ s ∈ ps, s ∈ signs) (spelled : ts.map Token.lexeme = ps.map Lexeme.symbol)
      (body : Primary text (odd .hash ps) us e) : Phrase text 0 (ts ++ us) (signed ps e)
  | marked {ps : List Symbol} {ts us : List Token} {mark : Token} {e : Expr}
      (run : ∀ s ∈ ps, s ∈ signs) (spelled : ts.map Token.lexeme = ps.map Lexeme.symbol)
      (body : Primary text (odd .hash ps) us e) (factorial : mark.lexeme = .symbol .factorial) :
      Phrase text 0 (ts ++ us ++ [mark]) (signed ps (.unary .factorial e))
  | single {rank : Nat} {ts : List Token} {e : Expr} (inner : Phrase text rank ts e) :
      Phrase text (rank + 1) ts e
  | binary {rank : Nat} {ts us : List Token} {t : Token} {s : Symbol} {op : Operation}
      {left right : Expr} (first : Phrase text (rank + 1) ts left) (symbol : t.lexeme = .symbol s)
      (operator : (s, op) ∈ operators (rank + 1)) (second : Phrase text rank us right) :
      Phrase text (rank + 1) (ts ++ t :: us) (.binary op left right)
  | product {ts us : List Token} {left right : Expr} (first : Phrase text 2 ts left)
      (name : BeginsWithName us) (second : Phrase text 1 us right) :
      Phrase text 2 (ts ++ us) (.binary (.number .multiply) left right)

/-- Tokens that derive a primary: where it is to be deleted, a bare name. -/
inductive Primary (text : String) : Bool → List Token → Expr → Prop
  | bracket {open_ close : Token} {ts : List Token} {e : Expr}
      (opens : open_.lexeme = .symbol .bracketOpen) (inner : Phrase text 5 ts e)
      (closes : close.lexeme = .symbol .bracketClose) :
      Primary text false (open_ :: ts ++ [close]) e
  | number {t : Token} {v : Value} (number : t.lexeme = .number v) :
      Primary text false [t] (.constant v)
  | read {t : Token} {name : String} (identifier : t.lexeme = .identifier name) :
      Primary text false [t] (.read name)
  | remove {t : Token} {name : String} (identifier : t.lexeme = .identifier name) :
      Primary text true [t] (.remove name)
  | assign {t equal : Token} {name : String} {ts : List Token} {e : Expr}
      (identifier : t.lexeme = .identifier name) (equals : equal.lexeme = .symbol .equal)
      (value : Phrase text 5 ts e) : Primary text false (t :: equal :: ts) (.assign name e)
  | call {t open_ : Token} {name : String} {ts : List Token} {es : List Expr}
      (identifier : t.lexeme = .identifier name) (opens : open_.lexeme = .symbol .bracketOpen)
      (arguments : Arguments text ts es) : Primary text false (t :: open_ :: ts) (.call name es)

/-- Tokens that derive arguments with the closing bracket behind them. An argument without a
    separator is not followed by a comma fraction, whose comma would be the separator. -/
inductive Arguments (text : String) : List Token → List Expr → Prop
  | close {t : Token} (closes : t.lexeme = .symbol .bracketClose) : Arguments text [t] []
  | separated {ts us : List Token} {t : Token} {s : Symbol} {e : Expr} {es : List Expr}
      (first : Phrase text 5 ts e) (symbol : t.lexeme = .symbol s) (separator : s ∈ separators)
      (rest : Arguments text us es) : Arguments text (ts ++ t :: us) (e :: es)
  | adjacent {ts us : List Token} {e : Expr} {es : List Expr} (first : Phrase text 5 ts e)
      (apart : ∀ t ∈ us.head?, ¬ CommaFraction text t) (rest : Arguments text us es) :
      Arguments text (ts ++ us) (e :: es)

end

theorem Primary.head {text : String} {delete : Bool} {ts : List Token} {e : Expr}
    (primary : Primary text delete ts e) : ∃ t us, ts = t :: us ∧ t.lexeme ≠ .symbol .comma := by
  cases primary with
  | bracket lexeme | number lexeme | read lexeme | remove lexeme | assign lexeme | call lexeme =>
    exact ⟨_, _, rfl, by simp [lexeme]⟩

theorem signs_head {ps : List Symbol} {ts us : List Token} (run : ∀ s ∈ ps, s ∈ signs)
    (spelled : ts.map Token.lexeme = ps.map Lexeme.symbol)
    (body : ∃ t vs, us = t :: vs ∧ t.lexeme ≠ .symbol .comma) :
    ∃ t vs, ts ++ us = t :: vs ∧ t.lexeme ≠ .symbol .comma := by
  cases ts with
  | nil => exact body
  | cons t ts =>
    cases ps with
    | nil => cases spelled
    | cons s ps =>
      have sign := run s (List.mem_cons_self ..)
      refine ⟨t, ts ++ us, rfl, ?_⟩
      rw [(List.cons.inj spelled).1]
      intro comma
      cases comma
      simp [signs] at sign

theorem Phrase.head {text : String} {rank : Nat} {ts : List Token} {e : Expr} :
    Phrase text rank ts e → ∃ t us, ts = t :: us ∧ t.lexeme ≠ .symbol .comma
  | .operand run spelled body => signs_head run spelled body.head
  | .marked run spelled body _ => by
    obtain ⟨t, us, same, other⟩ := signs_head run spelled body.head
    exact ⟨t, us ++ _, by rw [same]; rfl, other⟩
  | .single inner => inner.head
  | .binary first _ _ _ | .product first _ _ => by
    obtain ⟨t, us, rfl, other⟩ := first.head
    exact ⟨t, _, rfl, other⟩

theorem Arguments.head {text : String} {ts : List Token} {es : List Expr}
    (args : Arguments text ts es) : ∃ t us, ts = t :: us ∧ t.lexeme ≠ .symbol .comma := by
  cases args with
  | close closes => exact ⟨_, _, rfl, by simp [closes]⟩
  | separated first | adjacent first =>
    obtain ⟨t, us, rfl, other⟩ := first.head
    exact ⟨t, _, rfl, other⟩

theorem rank_le_of_operator {rank : Nat} {s : Symbol} {op : Operation}
    (operator : (s, op) ∈ operators rank) : rank ≤ 5 := by
  match rank with
  | 0 | 1 | 2 | 3 | 4 | 5 => decide
  | n + 6 => cases operator

theorem ofSymbol?_eq_some_iff (rank : Nat) (s : Symbol) (op : Operation) :
    Operation.ofSymbol? rank s = some op ↔ (s, op) ∈ operators rank := by
  constructor
  · intro known
    unfold Operation.ofSymbol? at known
    split at known <;> cases known <;> decide
  · intro operator
    have table : ∀ r ∈ List.range 6, ∀ x ∈ operators r,
        Operation.ofSymbol? r x.1 = some x.2 := by decide
    by_cases known : rank < 6
    · exact table rank (List.mem_range.mpr known) (s, op) operator
    · obtain ⟨n, rfl⟩ : ∃ n, rank = n + 6 := ⟨rank - 6, by omega⟩
      cases operator

end Grammar

end Reckoner
