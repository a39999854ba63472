import Reckoner.Proofs.Evaluation.Compiled
import Reckoner.Proofs.Pushdown.Nesting
import Reckoner.Proofs.Pushdown.Positions

namespace Reckoner

namespace Pushdown

open Grammar

def closers : List Frame → List Char
  | [] => []
  | .bracket _ :: frames => ')' :: closers frames
  | .argument .. :: frames => ')' :: closers frames
  | _ :: frames => closers frames

/-- Characters with which a formula can end at a control. -/
def Control.ending (c : Control) : List Char :=
  match c.phase with
  | .operand _ => 'a' :: closers c.frames
  | .arguments .. => ')' :: closers c.frames
  | _ => closers c.frames

def Remain (text : String) (p : Nat) (cs : List Char) : Prop :=
  (text.toList.drop p).dropWhile isSpace = cs

def Completes (nesting : Nat) (preferDecimal : Bool) (text : String) (s : State) : Prop :=
  ∃ s' e, Runs nesting preferDecimal text s s' ∧ s'.step nesting preferDecimal text = .accepts e

variable {nesting : Nat} {preferDecimal : Bool} {text : String} {s s' : State} {c d : Control}
  {p : Nat} {cs : List Char}

theorem closers_cases (frames : List Frame) :
    closers frames = [] ∨ ∃ frames', closers frames = ')' :: closers frames' := by
  induction frames with
  | nil => exact .inl rfl
  | cons frame frames ih =>
    cases frame with
    | left => exact ih
    | bracket => exact .inr ⟨frames, rfl⟩
    | assignment => exact ih
    | argument => exact .inr ⟨frames, rfl⟩

theorem dropWhile_closers (frames : List Frame) :
    (closers frames).dropWhile isSpace = closers frames := by
  rcases closers_cases frames with none | ⟨frames', some⟩
  · rw [none]
    rfl
  · rw [some]
    exact List.dropWhile_cons_of_neg (by decide)

theorem Remain.scan_eof (remain : Remain text p []) :
    (Token.scan preferDecimal text p).lexeme = .eof := by
  unfold Remain at remain
  unfold Token.scan Token.read
  rw [remain]

theorem Remain.scan {a : Char} (remain : Remain text p (a :: cs)) {l : Lexeme}
    (read : Lexeme.read preferDecimal a cs = (l, 1)) :
    (Token.scan preferDecimal text p).lexeme = l ∧
      text.toList.drop (Token.scan preferDecimal text p).stop = cs := by
  have here : text.toList.drop (Token.scan preferDecimal text p).position = a :: cs := by
    rw [Token.position_eq, ← List.drop_drop, drop_length_takeWhile]
    exact remain
  have scanned := Token.scan_of_here preferDecimal text p here
  rw [read] at scanned
  constructor
  · rw [scanned]
  · have length := congrArg Token.length scanned
    rw [Token.stop, length, ← List.drop_drop, here]
    rfl

theorem read_bracketClose (cs : List Char) :
    Lexeme.read preferDecimal ')' cs = (.symbol .bracketClose, 1) := by
  have single : Symbol.read? ')' cs = some (.bracketClose, 1) := by
    cases cs <;> rfl
  have other : ¬ Literal.startsNumber ')' cs = true := Bool.false_ne_true
  rw [Lexeme.read, if_neg other, if_neg (by decide), single]

theorem read_name (preferDecimal : Bool) (frames : List Frame) :
    Lexeme.read preferDecimal 'a' (closers frames) = (.identifier "a", 1) := by
  have other : ¬ Literal.startsNumber 'a' (closers frames) = true := Bool.false_ne_true
  rw [Lexeme.read, if_neg other, if_pos (by decide)]
  rcases closers_cases frames with none | ⟨frames', some⟩
  · rw [none]
    rfl
  · rw [some, List.takeWhile_cons_of_neg (by decide)]
    rfl

namespace Completes

theorem stay (readable : Readable preferDecimal text p) (within : depth c.frames ≤ nesting)
    (moves : c.move (Token.scan preferDecimal text p).lexeme
      (cursorAt preferDecimal text p).isCommaFraction = .stay d)
    (rest : Completes nesting preferDecimal text ⟨d, p⟩) : Completes nesting preferDecimal text ⟨c, p⟩ := by
  obtain ⟨s, e, runs, accepts⟩ := rest
  refine ⟨s, e, .next ?_ runs, accepts⟩
  rw [step_of_readable readable within, moves]
  rfl

theorem read (readable : Readable preferDecimal text p) (within : depth c.frames ≤ nesting)
    (moves : c.move (Token.scan preferDecimal text p).lexeme
      (cursorAt preferDecimal text p).isCommaFraction = .read d)
    (rest : Completes nesting preferDecimal text ⟨d, (Token.scan preferDecimal text p).stop⟩) :
    Completes nesting preferDecimal text ⟨c, p⟩ := by
  obtain ⟨s, e, runs, accepts⟩ := rest
  refine ⟨s, e, .next ?_ runs, accepts⟩
  rw [step_of_readable readable within, moves]
  rfl

end Completes

def Closes (preferDecimal : Bool) (text : String) (p : Nat) : Prop :=
  (Token.scan preferDecimal text p).lexeme = .eof ∨
    (Token.scan preferDecimal text p).lexeme = .symbol .bracketClose

theorem Closes.readable (closes : Closes preferDecimal text p) : Readable preferDecimal text p := by
  unfold Readable
  rcases closes with lexeme | lexeme <;> rw [lexeme] <;> rfl

theorem Remain.closes {frames : List Frame} (remain : Remain text p (closers frames)) :
    Closes preferDecimal text p := by
  rcases closers_cases frames with none | ⟨frames', some⟩
  · rw [none] at remain
    exact .inl remain.scan_eof
  · rw [some] at remain
    exact .inr (remain.scan (read_bracketClose _)).1

theorem Remain.bracketClose (preferDecimal : Bool) {frames : List Frame}
    (remain : Remain text p (')' :: closers frames)) :
    (Token.scan preferDecimal text p).lexeme = .symbol .bracketClose ∧
      Remain text (Token.scan preferDecimal text p).stop (closers frames) := by
  obtain ⟨lexeme, behind⟩ := remain.scan (read_bracketClose (closers frames))
  refine ⟨lexeme, ?_⟩
  rw [Remain, behind, dropWhile_closers]

namespace Completes

variable {frames : List Frame} {e : Expr} {r : Prefixes} {name : String} {reversed : List Expr}

/-- Where nothing continues an expression, it completes the innermost construct. -/
theorem climb (closes : Closes preferDecimal text p) (within : depth frames ≤ nesting)
    (ends : ∀ rank, innermostRank frames ≤ rank →
      Completes nesting preferDecimal text ⟨⟨.rest rank e, frames⟩, p⟩)
    (rank : Nat) : Completes nesting preferDecimal text ⟨⟨.rest rank e, frames⟩, p⟩ := by
  by_cases inside : rank < innermostRank frames
  · refine .stay closes.readable within ?_ (climb closes within ends (rank + 1))
    rw [Control.move_rest inside]
    rcases closes with lexeme | lexeme <;> rw [lexeme] <;>
      simp [Continuation.ofLexeme, Operation.ofSymbol?]
  · exact ends rank (Nat.not_lt.mp inside)
termination_by innermostRank frames - rank

theorem primary (closes : Closes preferDecimal text p) (within : depth frames ≤ nesting)
    (rest : Completes nesting preferDecimal text ⟨⟨.rest 0 (r.wrap e), frames⟩, p⟩) :
    Completes nesting preferDecimal text ⟨⟨.primary r e, frames⟩, p⟩ := by
  refine .stay closes.readable within (if_neg ?_) rest
  rcases closes with lexeme | lexeme <;> rw [lexeme] <;> nofun

theorem arguments (remain : Remain text p (')' :: closers frames)) (within : depth frames ≤ nesting)
    (rest : ∀ e p, Remain text p (closers frames) →
      Completes nesting preferDecimal text ⟨⟨.rest 0 e, frames⟩, p⟩) :
    Completes nesting preferDecimal text ⟨⟨.arguments r name reversed, frames⟩, p⟩ := by
  obtain ⟨lexeme, behind⟩ := remain.bracketClose preferDecimal
  have closes : Closes preferDecimal text p := .inr lexeme
  exact .read closes.readable within (if_pos lexeme)
    (.primary behind.closes within (rest _ _ behind))

theorem rest (frames : List Frame) (rank : Nat) (e : Expr) (p : Nat)
    (remain : Remain text p (closers frames)) (within : depth frames ≤ nesting) :
    Completes nesting preferDecimal text ⟨⟨.rest rank e, frames⟩, p⟩ := by
  have closes : Closes preferDecimal text p := remain.closes
  refine climb closes within (fun rank complete => ?_) rank
  have moves := @Control.move_end rank e frames (Token.scan preferDecimal text p).lexeme
    (cursorAt preferDecimal text p).isCommaFraction complete
  rcases frames with _ | ⟨⟨rank, op, left⟩ | ⟨r⟩ | ⟨r, name⟩ | ⟨r, name, reversed⟩, frames⟩
  · refine ⟨_, e, .refl _, ?_⟩
    rw [step_of_readable closes.readable within]
    exact congrArg (Move.outcome preferDecimal text p) (moves.trans (if_pos remain.scan_eof))
  · exact .stay closes.readable within moves (rest frames rank (.binary op left e) p remain within)
  · obtain ⟨lexeme, behind⟩ := remain.bracketClose preferDecimal
    have outer : depth frames ≤ nesting := Nat.le_of_succ_le within
    exact .read closes.readable within (moves.trans (if_pos lexeme))
      (.primary behind.closes outer (rest frames 0 (r.wrap e) _ behind outer))
  · have outer : depth frames ≤ nesting := Nat.le_of_succ_le within
    exact .stay closes.readable within moves
      (.primary closes outer (rest frames 0 (r.wrap (.assign name e)) p remain outer))
  · obtain ⟨lexeme, -⟩ := remain.bracketClose preferDecimal
    have unseparated : ¬ (Token.scan preferDecimal text p).lexeme.isSeparator = true := by
      rw [lexeme]
      exact Bool.false_ne_true
    have noFraction : ¬ (cursorAt preferDecimal text p).isCommaFraction = true := by
      rw [isCommaFraction_cursorAt]
      rintro ⟨⟨v, number⟩, -⟩
      cases lexeme.symm.trans number
    have outer : depth frames ≤ nesting := Nat.le_of_succ_le within
    exact .stay closes.readable within (moves.trans ((if_neg unseparated).trans (if_neg noFraction)))
      (.arguments remain outer fun e p remain => rest frames 0 e p remain outer)

theorem behindPrimary (remain : Remain text p (closers frames)) (within : depth frames ≤ nesting) :
    Completes nesting preferDecimal text ⟨⟨.primary r e, frames⟩, p⟩ :=
  primary remain.closes within (rest frames 0 (r.wrap e) p remain within)

theorem behindName (remain : Remain text p (closers frames)) (within : depth frames ≤ nesting) :
    Completes nesting preferDecimal text ⟨⟨.name r name, frames⟩, p⟩ := by
  have closes : Closes preferDecimal text p := remain.closes
  have moves : (⟨.name r name, frames⟩ : Control).move (Token.scan preferDecimal text p).lexeme
      (cursorAt preferDecimal text p).isCommaFraction = .stay ⟨.primary r (.read name), frames⟩ := by
    rcases closes with lexeme | lexeme <;> rw [lexeme] <;> rfl
  exact .stay closes.readable within moves (behindPrimary remain within)

theorem operand (remain : Remain text p ('a' :: closers frames)) (within : depth frames ≤ nesting) :
    Completes nesting preferDecimal text ⟨⟨.operand r, frames⟩, p⟩ := by
  obtain ⟨lexeme, behind⟩ := remain.scan (read_name preferDecimal frames)
  have readable : Readable preferDecimal text p := by
    rw [Readable, lexeme]
    rfl
  have further : Remain text (Token.scan preferDecimal text p).stop (closers frames) := by
    rw [Remain, behind, dropWhile_closers]
  have moves : (⟨.operand r, frames⟩ : Control).move (.identifier "a")
      (cursorAt preferDecimal text p).isCommaFraction =
        if r.delete then .read ⟨.primary r (.remove "a"), frames⟩
        else .read ⟨.name r "a", frames⟩ := by
    simp [Control.move, Control.operandMove, Prefixes.add?, Lexeme.isIdentifier, Control.primaryMove]
  rw [← lexeme] at moves
  by_cases delete : r.delete = true
  · exact .read readable within (moves.trans (if_pos delete)) (behindPrimary further within)
  · exact .read readable within (moves.trans (if_neg delete)) (behindName further within)

end Completes

end Pushdown

namespace Formula

end Formula

end Reckoner
