import Reckoner.Proofs.Evaluation.Compiled
import Reckoner.Proofs.Pushdown.Parser
import Reckoner.Proofs.Scanning.Reach

namespace Reckoner

namespace Grammar

open Pushdown

variable {nesting : Nat} {preferDecimal : Bool} {text : String} {p : Nat} {v : Value}

/-- A number stands at a position, and with it the text ends. -/
structure LastNumber (preferDecimal : Bool) (text : String) (p : Nat) (v : Value) : Prop where
  number : (Token.scan preferDecimal text p).lexeme = .number v
  ends : (Token.scan preferDecimal text (Token.scan preferDecimal text p).stop).lexeme = .eof

theorem LastNumber.accepts (last : LastNumber preferDecimal text p v) (nesting : Nat) {r : Prefixes}
    (kept : r.delete = false) :
    ∃ s, Runs nesting preferDecimal text ⟨⟨.operand r, []⟩, p⟩ s ∧
      s.step nesting preferDecimal text = .accepts (r.wrap (.constant v)) := by
  obtain ⟨s, runs, accepts⟩ := primary_accepts r last.ends
  refine ⟨s, .next ?_ runs, accepts⟩
  rw [step_of_readable (by rw [Readable, last.number]; rfl) (Nat.zero_le _), last.number]
  simp [Control.move, Control.operandMove, Prefixes.add?, kept, Control.primaryMove, Move.outcome]

theorem ofText_number (last : LastNumber preferDecimal text 0 v) :
    Expr.ofText preferDecimal text nesting = .ok (.constant v) :=
  ofText_eq_ok_iff.mpr (last.accepts nesting rfl)

theorem ofText_negated (minus : (Token.scan preferDecimal text 0).lexeme = .symbol .minus)
    (last : LastNumber preferDecimal text (Token.scan preferDecimal text 0).stop v) :
    Expr.ofText preferDecimal text nesting = .ok (.unary .negate (.constant v)) := by
  obtain ⟨s, runs, accepts⟩ :=
    last.accepts nesting (r := { (default : Prefixes) with negate := true }) rfl
  refine ofText_eq_ok_iff.mpr ⟨s, .next ?_ runs, accepts⟩
  rw [step_of_readable (by rw [Readable, minus]; rfl) (Nat.zero_le _), minus]
  rfl

theorem lastNumber_of_literal {c : Char} {cs : List Char} (here : text.toList.drop p = c :: cs)
    (digit : c.isDigit = true)
    (read : Literal.read preferDecimal (c :: cs) = (.number v, (c :: cs).length)) :
    LastNumber preferDecimal text p v := by
  have visible := isSpace_of_isDigit digit
  have lexeme : Lexeme.read preferDecimal c cs = (.number v, (c :: cs).length) := by
    rw [Lexeme.read, Literal.startsNumber, digit, Bool.true_or, if_pos rfl, read]
  have scanned : Token.scan preferDecimal text p = ⟨.number v, p, (c :: cs).length⟩ := by
    simp [Token.scan, Token.read, here, visible, lexeme]
  have behind : text.toList.drop (p + (c :: cs).length) = [] := by
    rw [← List.drop_drop, here, List.drop_length]
  refine ⟨by rw [scanned], ?_⟩
  rw [scanned, Token.stop, Token.scan, behind]
  rfl

end Grammar

namespace Formula

open Grammar

variable {preferDecimal : Bool} {v w : Value} {c : Char} {cs : List Char}

/-- The text compiles however little may nest, and in every state of every host it evaluates to the
    value and leaves the state as it is. -/
def Yields (preferDecimal : Bool) (text : String) (v : Value) : Prop :=
  ∀ nesting, (compile preferDecimal text nesting).isValid = true ∧
    ∀ {σ : Type} (host : Host σ) (s : σ),
      ((compile preferDecimal text nesting).evaluate host).outcome s = (.ok v, s)

theorem yields_of_parsed {text : String} {e : Expr}
    (parsed : ∀ nesting, Expr.ofText preferDecimal text nesting = .ok e)
    (evaluates : ∀ {σ : Type} (host : Host σ) (s : σ),
      (e.evaluate host preferDecimal).outcome s = (.ok v, s)) : Yields preferDecimal text v := by
  intro nesting
  have compiled := compile_of_parsed (parsed nesting)
  refine ⟨?_, ?_⟩
  · rw [isValid, compiled]
    rfl
  · intro σ host s
    rw [evaluate_of_compile compiled, Expr.run_program]
    exact evaluates host s

theorem yields_literal (digit : c.isDigit = true)
    (read : Literal.read preferDecimal (c :: cs) = (.number v, (c :: cs).length)) :
    Yields preferDecimal (String.ofList (c :: cs)) v := by
  have here : (String.ofList (c :: cs)).toList.drop 0 = c :: cs := by simp
  have last := lastNumber_of_literal here digit read
  exact yields_of_parsed (fun _ => ofText_number last) fun _ _ => rfl

theorem yields_negated_literal (digit : c.isDigit = true)
    (read : Literal.read preferDecimal (c :: cs) = (.number v, (c :: cs).length))
    (negated : UnaryOp.negate.apply preferDecimal v = .ok w) :
    Yields preferDecimal (String.ofList ('-' :: c :: cs)) w := by
  have here : (String.ofList ('-' :: c :: cs)).toList.drop 1 = c :: cs := by simp
  have sign : Lexeme.read preferDecimal '-' (c :: cs) = (.symbol .minus, 1) := rfl
  have minus : Token.scan preferDecimal (String.ofList ('-' :: c :: cs)) 0 = ⟨.symbol .minus, 0, 1⟩ := by
    simp [Token.scan, Token.read, isSpace, sign]
  have last := lastNumber_of_literal here digit read
  refine yields_of_parsed (fun _ => ofText_negated (by rw [minus]) (by rw [minus]; exact last)) ?_
  intro σ host s
  simp only [Expr.evaluate, pure_bind]
  rw [negated]
  rfl

end Formula

end Reckoner
