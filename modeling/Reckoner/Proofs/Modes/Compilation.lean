import Mathlib
import Reckoner.Proofs.Modes.Literals
import Reckoner.Proofs.Postorder
import Reckoner.Proofs.Pushdown.Parser
import Reckoner.Proofs.Pushdown.Positions

namespace Reckoner

/-- No constants but whole ones. -/
def Expr.Whole (e : Expr) : Prop := ∀ v, .pushConstant v ∈ e.postorder → v.tag = .integer

namespace Expr

@[simp] theorem whole_constant {v : Value} : (constant v).Whole ↔ v.tag = .integer := by
  simp [Whole, postorder]

@[simp] theorem whole_read (name : String) : (read name).Whole := by
  simp [Whole, postorder]

@[simp] theorem whole_remove (name : String) : (remove name).Whole := by
  simp [Whole, postorder]

@[simp] theorem whole_assign {name : String} {e : Expr} : (assign name e).Whole ↔ e.Whole := by
  simp [Whole, postorder]

@[simp] theorem whole_unary {op : UnaryOp} {e : Expr} : (unary op e).Whole ↔ e.Whole := by
  simp [Whole, postorder]

@[simp] theorem whole_binary {op : Operation} {left right : Expr} :
    (binary op left right).Whole ↔ left.Whole ∧ right.Whole := by
  cases op <;> simp [Whole, postorder, Operation.instruction, or_imp, forall_and]

@[simp] theorem whole_call {name : String} {es : List Expr} :
    (call name es).Whole ↔ ∀ e ∈ es, e.Whole := by
  have all (v : Value) : .pushConstant v ∈ postorderAll es ↔ ∃ e ∈ es, .pushConstant v ∈ e.postorder := by
    induction es with
    | nil => simp [postorderAll]
    | cons e es ih => simp [postorderAll, ih]
  simp only [Whole, postorder, List.mem_append, List.mem_singleton, reduceCtorEq, or_false, all]
  constructor
  · exact fun whole e member v inside => whole v ⟨e, member, inside⟩
  · rintro whole v ⟨e, member, inside⟩
    exact whole e member v inside

@[simp] theorem whole_wrap {p : Prefixes} {e : Expr} : (p.wrap e).Whole ↔ e.Whole := by
  unfold Prefixes.wrap
  dsimp only
  split <;> split <;> simp

end Expr

namespace Pushdown

open Grammar

def Frame.Whole : Frame → Prop
  | .left _ _ e => e.Whole
  | .argument _ _ reversed => ∀ e ∈ reversed, e.Whole
  | _ => True

def Phase.Whole : Phase → Prop
  | .arguments _ _ reversed => ∀ e ∈ reversed, e.Whole
  | .primary _ e => e.Whole
  | .rest _ e => e.Whole
  | _ => True

/-- No constants but whole ones in what has been read. -/
def Control.Whole (c : Control) : Prop := c.phase.Whole ∧ ∀ frame ∈ c.frames, frame.Whole

/-- A move that goes on or accepts, with no constants but whole ones. -/
def Move.Whole : Move → Prop
  | .read d => d.Whole
  | .split d => d.Whole
  | .stay d => d.Whole
  | .accept e => e.Whole
  | .fail _ => False

def Move.Leaves : Move → Prop
  | .read _ => False
  | .accept _ => False
  | _ => True

namespace Control

section

variable {p : Prefixes} {frames : List Frame} {l : Lexeme}

theorem whole_of_operandMove (whole : (operandMove p frames l).Whole) :
    ∀ frame ∈ frames, frame.Whole := by
  unfold operandMove at whole
  split at whole
  · exact whole.2
  split at whole
  · cases whole
  unfold primaryMove at whole
  split at whole
  · exact (List.forall_mem_cons.mp whole.2).2
  · split at whole
    · exact whole.2
    · exact whole.2
  · exact whole.2
  · cases whole

theorem whole_of_nameMove {name : String} (whole : (nameMove p name frames l).Whole) :
    ∀ frame ∈ frames, frame.Whole := by
  unfold nameMove at whole
  split at whole
  · exact (List.forall_mem_cons.mp whole.2).2
  · exact whole.2
  · exact whole.2

theorem whole_of_argumentsMove {name : String} {reversed : List Expr}
    (whole : (argumentsMove p name reversed frames l).Whole) :
    (∀ e ∈ reversed, e.Whole) ∧ ∀ frame ∈ frames, frame.Whole := by
  unfold argumentsMove at whole
  split at whole
  · obtain ⟨call, outer⟩ := whole
    exact ⟨by simpa [Phase.Whole] using call, outer⟩
  split at whole
  · cases whole
  · exact List.forall_mem_cons.mp whole.2

theorem whole_of_factorialMove {e : Expr} (whole : (factorialMove p e frames l).Whole) :
    e.Whole ∧ ∀ frame ∈ frames, frame.Whole := by
  unfold factorialMove at whole
  split at whole
  · exact ⟨by simpa [Phase.Whole] using whole.1, whole.2⟩
  · exact ⟨by simpa [Phase.Whole] using whole.1, whole.2⟩

theorem whole_of_endMove {e : Expr} {fraction : Bool} (whole : (endMove e l fraction frames).Whole) :
    e.Whole ∧ ∀ frame ∈ frames, frame.Whole := by
  rcases frames with _ | ⟨⟨rank, op, left⟩ | ⟨p⟩ | ⟨p, name⟩ | ⟨p, name, reversed⟩, frames⟩
  · simp only [endMove] at whole
    split at whole
    · exact ⟨whole, List.forall_mem_nil _⟩
    · cases whole
  · obtain ⟨both, outer⟩ := whole
    obtain ⟨first, second⟩ := Expr.whole_binary.mp both
    exact ⟨second, List.forall_mem_cons.mpr ⟨first, outer⟩⟩
  · simp only [endMove] at whole
    split at whole
    · exact ⟨whole.1, List.forall_mem_cons.mpr ⟨trivial, whole.2⟩⟩
    · cases whole
  · exact ⟨Expr.whole_assign.mp whole.1, List.forall_mem_cons.mpr ⟨trivial, whole.2⟩⟩
  · have all : (⟨.arguments p name (e :: reversed), frames⟩ : Control).Whole := by
      simp only [endMove] at whole
      split at whole
      · exact whole
      · split at whole
        · exact whole
        · exact whole
    obtain ⟨first, others⟩ := List.forall_mem_cons.mp all.1
    exact ⟨first, List.forall_mem_cons.mpr ⟨others, all.2⟩⟩

end

theorem whole_of_move {c : Control} {l : Lexeme} {fraction : Bool} {m : Move}
    (moves : c.move l fraction = m) (whole : m.Whole) : c.Whole := by
  subst moves
  obtain ⟨phase, frames⟩ := c
  cases phase with
  | operand p => exact ⟨trivial, whole_of_operandMove whole⟩
  | name p name => exact ⟨trivial, whole_of_nameMove whole⟩
  | arguments p name reversed => exact whole_of_argumentsMove whole
  | primary p e => exact whole_of_factorialMove whole
  | rest rank e =>
    by_cases inside : rank < innermostRank frames
    · rw [move_rest inside] at whole
      split at whole
      · exact whole
      · exact List.forall_mem_cons.mp whole.2
      · exact List.forall_mem_cons.mp whole.2
    · rw [move_end (Nat.not_lt.mp inside)] at whole
      exact whole_of_endMove whole

theorem number_cases (c : Control) (fraction : Bool) :
    (∃ p, ∀ v, c.move (.number v) fraction = .read ⟨.primary p (.constant v), c.frames⟩) ∨
      ∃ m, m.Leaves ∧ ∀ v, c.move (.number v) fraction = m := by
  obtain ⟨phase, frames⟩ := c
  cases phase with
  | operand p =>
    cases delete : p.delete with
    | false =>
      refine .inl ⟨p, fun v => ?_⟩
      simp [move, operandMove, Prefixes.add?, delete, primaryMove]
    | true =>
      refine .inr ⟨.fail .variableExpected, trivial, fun v => ?_⟩
      simp [move, operandMove, Prefixes.add?, delete, Lexeme.isIdentifier]
  | name p name => exact .inr ⟨.stay _, trivial, fun _ => rfl⟩
  | arguments p name reversed => exact .inr ⟨.stay _, trivial, fun _ => rfl⟩
  | primary p e => exact .inr ⟨.stay _, trivial, fun _ => rfl⟩
  | rest rank e =>
    by_cases inside : rank < innermostRank frames
    · exact .inr ⟨.stay _, trivial, fun _ => move_rest inside⟩
    have complete := Nat.not_lt.mp inside
    rcases frames with _ | ⟨_ | _ | _ | ⟨p, name, reversed⟩, frames⟩
    · exact .inr ⟨.fail .operatorExpected, trivial, fun _ => move_end complete⟩
    · exact .inr ⟨.stay _, trivial, fun _ => move_end complete⟩
    · exact .inr ⟨.fail .closingBracketExpected, trivial, fun _ => move_end complete⟩
    · exact .inr ⟨.stay _, trivial, fun _ => move_end complete⟩
    · cases fraction with
      | false => exact .inr ⟨.stay _, trivial, fun _ => move_end complete⟩
      | true => exact .inr ⟨.split _, trivial, fun _ => move_end complete⟩

end Control

variable {nesting : Nat} {preferDecimal : Bool} {text : String} {s s' : State} {e : Expr}

theorem step_modes (other : ¬ (Token.scan preferDecimal text s.position).lexeme.Fractional) :
    s.step nesting (!preferDecimal) text = s.step nesting preferDecimal text :=
  step_of_token (Token.scan_modes other) rfl

theorem step_of_left {v w : Value} {m : Move} (leaves : m.Leaves)
    (moves : ∀ v, s.control.move (.number v)
      (cursorAt preferDecimal text s.position).isCommaFraction = m)
    (number : (Token.scan preferDecimal text s.position).lexeme = .number v)
    (number' : (Token.scan (!preferDecimal) text s.position).lexeme = .number w)
    (stepped : s.step nesting preferDecimal text = .goes s') :
    s.step nesting (!preferDecimal) text = .goes s' := by
  have position := (Token.scan_akin preferDecimal text s.position).1
  have readable : Readable (!preferDecimal) text s.position := by
    rw [Readable, number']
    rfl
  have fraction : (cursorAt (!preferDecimal) text s.position).isCommaFraction =
      (cursorAt preferDecimal text s.position).isCommaFraction := by
    rw [Bool.eq_iff_iff, isCommaFraction_cursorAt, isCommaFraction_cursorAt, CommaFraction,
      CommaFraction, number, number', position]
    simp
  obtain ⟨-, within⟩ := of_goes stepped
  have stepped := outcome_of_goes stepped
  rw [number, moves] at stepped
  rw [step_of_readable readable within, number', fraction, moves]
  cases m with
  | read d => cases leaves
  | accept e => cases leaves
  | fail fault => cases stepped
  | stay d => exact stepped
  | split d =>
    rw [Move.outcome, position]
    exact stepped

/-- From a state on the automaton accepts the expression in the other mode, and what it has read and
    reads next is whole. -/
structure Shared (nesting : Nat) (preferDecimal : Bool) (text : String) (s : State) (e : Expr) : Prop where
  whole : s.control.Whole
  readable : Readable preferDecimal text s.position
  readable' : Readable (!preferDecimal) text s.position
  number : ∀ v, (Token.scan preferDecimal text s.position).lexeme = .number v →
    ¬ CommaFraction text (Token.scan preferDecimal text s.position) → v.tag = .integer
  accepts : ∃ s', Runs nesting (!preferDecimal) text s s' ∧ s'.step nesting (!preferDecimal) text = .accepts e

theorem number_of_fractional {p : Nat} (readable : Readable preferDecimal text p)
    (fractional : (Token.scan preferDecimal text p).lexeme.Fractional) :
    ∃ v, (Token.scan preferDecimal text p).lexeme = .number v ∧ v.tag ≠ .integer := by
  unfold Readable at readable
  generalize (Token.scan preferDecimal text p).lexeme = l at *
  cases l with
  | number v => exact ⟨v, rfl, fractional⟩
  | error fault => cases readable
  | _ => cases fractional

theorem number_modes {p : Nat} {v : Value}
    (number : (Token.scan preferDecimal text p).lexeme = .number v)
    (readable : Readable (!preferDecimal) text p) :
    ∃ w, (Token.scan (!preferDecimal) text p).lexeme = .number w := by
  rcases (Token.scan_akin preferDecimal text p).2.2 with same | ⟨-, fractional⟩
  · exact ⟨v, same.trans number⟩
  · obtain ⟨w, number', -⟩ := number_of_fractional readable fractional
    exact ⟨w, number'⟩

namespace Shared

theorem of_unfractional (readable : Readable preferDecimal text s.position) (whole : s.control.Whole)
    (other : ¬ (Token.scan preferDecimal text s.position).lexeme.Fractional)
    (accepts : ∃ s', Runs nesting (!preferDecimal) text s s' ∧
      s'.step nesting (!preferDecimal) text = .accepts e) :
    Shared nesting preferDecimal text s e := by
  have readable' : Readable (!preferDecimal) text s.position := by
    rw [Readable, Token.scan_modes other]
    exact readable
  refine ⟨whole, readable, readable', ?_, accepts⟩
  intro v number _
  rw [number] at other
  exact Classical.not_not.mp other

theorem of_comma {m : Move} {v w : Value} (whole : s.control.Whole) (leaves : m.Leaves)
    (moves : ∀ v, s.control.move (.number v)
      (cursorAt preferDecimal text s.position).isCommaFraction = m)
    (number : (Token.scan preferDecimal text s.position).lexeme = .number v)
    (number' : (Token.scan (!preferDecimal) text s.position).lexeme = .number w)
    (fraction : CommaFraction text (Token.scan preferDecimal text s.position))
    (stepped : s.step nesting preferDecimal text = .goes s')
    (later : Shared nesting preferDecimal text s' e) :
    Shared nesting preferDecimal text s e := by
  obtain ⟨s'', runs, accepts⟩ := later.accepts
  have readable' : Readable (!preferDecimal) text s.position := by
    rw [Readable, number']
    rfl
  exact ⟨whole, (of_goes stepped).1, readable', fun _ _ single => absurd fraction single, s'',
    .next (step_of_left leaves moves number number' stepped) runs, accepts⟩

theorem left {m : Move} {v : Value} (number : (Token.scan preferDecimal text s.position).lexeme = .number v)
    (other : v.tag ≠ .integer)
    (taken : s.control.move (Token.scan preferDecimal text s.position).lexeme
      (cursorAt preferDecimal text s.position).isCommaFraction = m) (whole : m.Whole) :
    m.Leaves ∧ ∀ v, s.control.move (.number v)
      (cursorAt preferDecimal text s.position).isCommaFraction = m := by
  rw [number] at taken
  rcases s.control.number_cases (cursorAt preferDecimal text s.position).isCommaFraction with
    ⟨p, reads⟩ | ⟨m', leaves, same⟩
  · obtain rfl := (reads v).symm.trans taken
    exact absurd (Expr.whole_constant.mp whole.1) other
  · obtain rfl := (same v).symm.trans taken
    exact ⟨leaves, same⟩

theorem last (accepts : s.step nesting preferDecimal text = .accepts e) (whole : e.Whole) :
    Shared nesting preferDecimal text s e := by
  obtain ⟨ends, rank, -, same⟩ := of_accepts accepts
  have unfractional : ¬ (Token.scan preferDecimal text s.position).lexeme.Fractional := by
    rw [ends]
    exact id
  have before : s.control.Whole := by
    rw [same]
    exact ⟨whole, List.forall_mem_nil _⟩
  exact of_unfractional (by rw [Readable, ends]; rfl) before unfractional
    ⟨s, .refl s, (step_modes unfractional).trans accepts⟩

theorem next (stepped : s.step nesting preferDecimal text = .goes s')
    (later : Shared nesting preferDecimal text s' e) : Shared nesting preferDecimal text s e := by
  have readable := (of_goes stepped).1
  have moves := outcome_of_goes stepped
  generalize taken : s.control.move (Token.scan preferDecimal text s.position).lexeme
    (cursorAt preferDecimal text s.position).isCommaFraction = m at moves
  have whole : m.Whole := by
    cases m with
    | read | split | stay =>
      cases moves
      exact later.whole
    | accept | fail => cases moves
  have before := Control.whole_of_move taken whole
  by_cases fractional : (Token.scan preferDecimal text s.position).lexeme.Fractional
  · obtain ⟨v, number, other⟩ := number_of_fractional readable fractional
    obtain ⟨leaves, same⟩ := left number other taken whole
    cases m with
    | read | accept => cases leaves
    | fail => cases moves
    | stay d =>
      -- the next state has the same token, which is no whole number, so there it is left again
      cases moves
      have fraction : CommaFraction text (Token.scan preferDecimal text s.position) :=
        Classical.byContradiction fun single => other (later.number v number single)
      obtain ⟨w, number'⟩ := number_modes number later.readable'
      exact of_comma before leaves same number number' fraction stepped later
    | split d =>
      -- the next state stands at the number behind the comma, which is a whole one
      cases moves
      have fraction : CommaFraction text (Token.scan preferDecimal text s.position) :=
        (isCommaFraction_cursorAt _).mp (@Control.comma_of_split _ _ _ _ false taken).1
      have single := fraction.behind.2.2.2.2
      obtain ⟨w, number'⟩ :=
        fraction.modes later.readable fun v number => later.number v number single
      exact of_comma before leaves same number number' fraction stepped later
  · obtain ⟨s'', runs, accepts⟩ := later.accepts
    exact of_unfractional readable before fractional
      ⟨s'', .next ((step_modes fractional).trans stepped) runs, accepts⟩

end Shared

/-- Backwards from where the text is accepted: what is read further on decides of every number before
    it whether it may differ between the modes. -/
theorem Runs.shared (runs : Runs nesting preferDecimal text s s')
    (accepts : s'.step nesting preferDecimal text = .accepts e) (whole : e.Whole) :
    Shared nesting preferDecimal text s e := by
  induction runs with
  | refl => exact .last accepts whole
  | next stepped _ ih => exact .next stepped (ih accepts)

end Pushdown

theorem Expr.ofText_modes {nesting : Nat} {preferDecimal : Bool} {text : String} {e : Expr}
    (parsed : ofText preferDecimal text nesting = .ok e) (whole : e.Whole) :
    ofText (!preferDecimal) text nesting = .ok e := by
  obtain ⟨s, runs, accepts⟩ := Pushdown.ofText_eq_ok_iff.mp parsed
  exact Pushdown.ofText_eq_ok_iff.mpr (runs.shared accepts whole).accepts

end Reckoner
