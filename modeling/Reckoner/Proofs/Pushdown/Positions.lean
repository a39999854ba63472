import Mathlib
import Reckoner.Proofs.Pushdown.Automaton
import Reckoner.Proofs.Scanning.Cut

namespace Reckoner.Pushdown

open Grammar

namespace Control

variable {c d : Control} {l : Lexeme} {fraction : Bool} {v : Value}

theorem more_of_read (moves : c.move l fraction = .read d) : l ≠ .eof := by
  rintro rfl
  obtain ⟨phase, frames⟩ := c
  cases phase with
  | operand p =>
    simp only [move, operandMove, Prefixes.add?, primaryMove] at moves
    split at moves <;> cases moves
  | name p name => cases moves
  | arguments p name reversed => cases moves
  | primary p e => cases moves
  | rest rank e =>
    simp only [move, restMove, Continuation.ofLexeme] at moves
    split at moves
    · cases moves
    · cases frames with
      | nil => cases moves
      | cons frame frames =>
        cases frame with
        | left rank op left => cases moves
        | bracket p => cases moves
        | assignment p name => cases moves
        | argument p name reversed =>
          simp only [endMove, Lexeme.isSeparator, Bool.false_eq_true, if_false] at moves
          split at moves <;> cases moves

theorem continuation_comma (rank : Nat) :
    Continuation.ofLexeme rank (.symbol .comma) = .none := by
  simp [Continuation.ofLexeme, Operation.ofSymbol?]

theorem comma_of_split {fraction' : Bool} (moves : c.move l fraction = .split d) :
    fraction = true ∧ c.move (.symbol .comma) fraction' = .read d := by
  rcases move_cases c l fraction with ⟨_, reads⟩ | ⟨_, stays⟩ | ⟨_, fails⟩ | ⟨rank, e, phase, complete⟩
  · cases moves.symm.trans reads
  · cases moves.symm.trans stays
  · cases moves.symm.trans fails
  obtain ⟨_, frames⟩ := c
  subst phase
  rw [move_end complete] at moves ⊢
  rcases frames with _ | ⟨_ | _ | _ | ⟨p, name, reversed⟩, frames⟩
  · simp only [endMove] at moves
    split at moves <;> cases moves
  · cases moves
  · simp only [endMove] at moves
    split at moves <;> cases moves
  · cases moves
  · simp only [endMove] at moves
    split at moves
    · cases moves
    · split at moves
      · rename_i given
        cases moves
        exact ⟨given, rfl⟩
      · cases moves

theorem comma_of_stay {fraction' : Bool} (moves : c.move (.number v) true = .stay d) :
    c.move (.symbol .comma) fraction' = .stay d := by
  obtain ⟨phase, frames⟩ := c
  cases phase with
  | operand p =>
    simp only [move, operandMove, Prefixes.add?, primaryMove] at moves
    split at moves <;> cases moves
  | name p name => exact moves
  | arguments p name reversed => exact moves
  | primary p e => exact moves
  | rest rank e =>
    by_cases inside : rank < innermostRank frames
    · rw [move_rest inside] at moves ⊢
      rw [continuation_comma]
      exact moves
    rw [move_end (Nat.not_lt.mp inside)] at moves ⊢
    rcases frames with _ | ⟨_ | _ | _ | ⟨p, name, reversed⟩, frames⟩
    · cases moves
    · exact moves
    · cases moves
    · exact moves
    · cases moves

end Control

variable {nesting : Nat} {preferDecimal : Bool} {text text' : String} {s s' e : State} {n : Nat}

theorem goes_cases (stepped : s.step nesting preferDecimal text = .goes s') :
    ((Token.scan preferDecimal text s.position).lexeme ≠ .eof ∧
        s'.position = (Token.scan preferDecimal text s.position).stop) ∨
      (CommaFraction text (Token.scan preferDecimal text s.position) ∧
        s'.position = (Token.scan preferDecimal text s.position).position + 1) ∨
      s'.position = s.position := by
  have stepped := outcome_of_goes stepped
  generalize moves : s.control.move (Token.scan preferDecimal text s.position).lexeme
    (cursorAt preferDecimal text s.position).isCommaFraction = m at stepped
  cases m with
  | read d =>
    cases stepped
    exact .inl ⟨Control.more_of_read moves, rfl⟩
  | split d =>
    cases stepped
    have fraction := (@Control.comma_of_split _ _ _ _ false moves).1
    exact .inr (.inl ⟨(isCommaFraction_cursorAt _).mp fraction, rfl⟩)
  | stay d =>
    cases stepped
    exact .inr (.inr rfl)
  | accept e => cases stepped
  | fail fault => cases stepped

theorem Runs.position_le (runs : Runs nesting preferDecimal text s e) : s.position ≤ e.position := by
  induction runs with
  | refl => exact Nat.le_refl _
  | @next s s' e stepped _ ih =>
    have begins := Token.le_position preferDecimal text s.position
    rcases goes_cases stepped with ⟨-, there⟩ | ⟨-, there⟩ | there
    · rw [Token.stop] at there
      omega
    · omega
    · omega

theorem Runs.within (runs : Runs nesting preferDecimal text s e)
    (inside : s.position ≤ text.toList.length) : e.position ≤ text.toList.length := by
  induction runs with
  | refl => exact inside
  | @next s s' e stepped _ ih =>
    have bound := Token.stop_le_length preferDecimal text s.position inside
    apply ih
    rcases goes_cases stepped with ⟨-, there⟩ | ⟨fraction, there⟩ | there
    · omega
    · have := fraction.behind.2.2.1
      omega
    · omega

theorem Runs.past (runs : Runs nesting preferDecimal text s e) (moved : s.position ≠ e.position) :
    (Token.scan preferDecimal text s.position).lexeme ≠ .eof ∧
      ((Token.scan preferDecimal text s.position).stop ≤ e.position ∨
        CommaFraction text (Token.scan preferDecimal text s.position) ∧
          (Token.scan preferDecimal text s.position).position + 1 = e.position) := by
  induction runs with
  | refl => exact absurd rfl moved
  | @next s s' e stepped rest ih =>
    rcases goes_cases stepped with ⟨some, there⟩ | ⟨fraction, there⟩ | there
    · exact ⟨some, .inl (there ▸ rest.position_le)⟩
    · obtain ⟨v, number⟩ := fraction.1
      refine ⟨by rw [number]; nofun, ?_⟩
      by_cases arrived : s'.position = e.position
      · exact .inr ⟨fraction, there ▸ arrived⟩
      obtain ⟨-, -, -, further, single⟩ := fraction.behind
      obtain ⟨-, passed | ⟨fraction', -⟩⟩ := ih arrived
      · rw [there] at passed
        exact .inl (Nat.le_trans further passed)
      · rw [there] at fraction'
        exact absurd fraction' single
    · rw [there] at ih
      exact ih moved

theorem step_of_token {preferDecimal' : Bool}
    (same : Token.scan preferDecimal' text' s.position = Token.scan preferDecimal text s.position)
    (comma : text'.toList[(Token.scan preferDecimal text s.position).position]? =
      text.toList[(Token.scan preferDecimal text s.position).position]?) :
    s.step nesting preferDecimal' text' = s.step nesting preferDecimal text := by
  have fraction : (cursorAt preferDecimal' text' s.position).isCommaFraction =
      (cursorAt preferDecimal text s.position).isCommaFraction := by
    rw [Bool.eq_iff_iff, isCommaFraction_cursorAt, isCommaFraction_cursorAt, same, CommaFraction,
      CommaFraction, comma]
  have token : (cursorAt preferDecimal' text' s.position).token =
    (cursorAt preferDecimal text s.position).token := same
  have error (fault : SyntaxFault) : (cursorAt preferDecimal' text' s.position).error fault =
      (cursorAt preferDecimal text s.position).error fault := by
    rw [Cursor.error, Cursor.error, token]
  have deep : Expr.tooDeep (cursorAt preferDecimal' text' s.position) =
      Expr.tooDeep (cursorAt preferDecimal text s.position) := by
    rw [Expr.tooDeep, Expr.tooDeep, token]
  have outcome (m : Move) :
      m.outcome preferDecimal' text' s.position = m.outcome preferDecimal text s.position := by
    cases m with
    | fail fault => exact congrArg Outcome.fails (error fault)
    | _ => simp only [Move.outcome, same]
  simp only [State.step, same, fraction, outcome, error, deep]

end Reckoner.Pushdown
