import Reckoner.Expr.Parse
import Reckoner.Proofs.Grammar.Reading

namespace Reckoner.Pushdown

open Grammar

/-- A construct under way. Brackets, assignments and calls keep the prefixes before them. -/
inductive Frame
  | left (rank : Nat) (op : Operation) (e : Expr)
  | bracket (p : Prefixes)
  | assignment (p : Prefixes) (name : String)
  | argument (p : Prefixes) (name : String) (reversed : List Expr)

/-- How many constructs under way count towards the nesting limit. -/
def depth : List Frame → Nat
  | [] => 0
  | .left .. :: frames => depth frames
  | _ :: frames => depth frames + 1

def innermostRank : List Frame → Nat
  | .left rank _ _ :: _ => rank
  | _ => loosestRank

/-- Where the automaton is in the innermost construct: before an operand, behind a name, between
    arguments, behind a primary, or behind an expression of a rank. -/
inductive Phase
  | operand (p : Prefixes)
  | name (p : Prefixes) (name : String)
  | arguments (p : Prefixes) (name : String) (reversed : List Expr)
  | primary (p : Prefixes) (e : Expr)
  | rest (rank : Nat) (e : Expr)

structure Control where
  phase : Phase
  frames : List Frame

/-- What a control does at a token: it goes on behind the token, or behind the comma alone with
    which the token begins, or without reading it; or the text ends here, well or badly. -/
inductive Move
  | read (next : Control)
  | split (next : Control)
  | stay (next : Control)
  | accept (e : Expr)
  | fail (fault : SyntaxFault)

namespace Control

def start : Control := ⟨.operand default, []⟩

def primaryMove (p : Prefixes) (frames : List Frame) : Lexeme → Move
  | .symbol .bracketOpen => .read ⟨.operand default, .bracket p :: frames⟩
  | .identifier name =>
    if p.delete then .read ⟨.primary p (.remove name), frames⟩ else .read ⟨.name p name, frames⟩
  | .number v => .read ⟨.primary p (.constant v), frames⟩
  | _ => .fail .operandExpected

def operandMove (p : Prefixes) (frames : List Frame) (l : Lexeme) : Move :=
  match p.add? l with
  | some q => .read ⟨.operand q, frames⟩
  | none =>
    if p.delete && !l.isIdentifier then .fail .variableExpected else primaryMove p frames l

def nameMove (p : Prefixes) (name : String) (frames : List Frame) (l : Lexeme) : Move :=
  match l with
  | .symbol .equal => .read ⟨.operand default, .assignment p name :: frames⟩
  | .symbol .bracketOpen => .read ⟨.arguments p name [], frames⟩
  | _ => .stay ⟨.primary p (.read name), frames⟩

def argumentsMove (p : Prefixes) (name : String) (reversed : List Expr) (frames : List Frame)
    (l : Lexeme) : Move :=
  if l = .symbol .bracketClose then .read ⟨.primary p (.call name reversed.reverse), frames⟩
  else if l = .eof then .fail .closingBracketExpected
  else .stay ⟨.operand default, .argument p name reversed :: frames⟩

def factorialMove (p : Prefixes) (e : Expr) (frames : List Frame) (l : Lexeme) : Move :=
  if l = .symbol .factorial then .read ⟨.rest 0 (p.wrap (.unary .factorial e)), frames⟩
  else .stay ⟨.rest 0 (p.wrap e), frames⟩

def endMove (e : Expr) (l : Lexeme) (fraction : Bool) : List Frame → Move
  | [] => if l = .eof then .accept e else .fail .operatorExpected
  | .left rank op left :: frames => .stay ⟨.rest rank (.binary op left e), frames⟩
  | .bracket p :: frames =>
    if l = .symbol .bracketClose then .read ⟨.primary p e, frames⟩ else .fail .closingBracketExpected
  | .assignment p name :: frames => .stay ⟨.primary p (.assign name e), frames⟩
  | .argument p name reversed :: frames =>
    if l.isSeparator then .read ⟨.arguments p name (e :: reversed), frames⟩
    else if fraction then .split ⟨.arguments p name (e :: reversed), frames⟩
    else .stay ⟨.arguments p name (e :: reversed), frames⟩

def restMove (rank : Nat) (e : Expr) (frames : List Frame) (l : Lexeme) (fraction : Bool) : Move :=
  if rank < innermostRank frames then
    match Continuation.ofLexeme (rank + 1) l with
    | .none => .stay ⟨.rest (rank + 1) e, frames⟩
    | .operator op => .read ⟨.operand default, .left rank op e :: frames⟩
    | .factor => .stay ⟨.operand default, .left rank (.number .multiply) e :: frames⟩
  else endMove e l fraction frames

def move (c : Control) (l : Lexeme) (fraction : Bool) : Move :=
  match c.phase with
  | .operand p => operandMove p c.frames l
  | .name p name => nameMove p name c.frames l
  | .arguments p name reversed => argumentsMove p name reversed c.frames l
  | .primary p e => factorialMove p e c.frames l
  | .rest rank e => restMove rank e c.frames l fraction

theorem move_rest {rank : Nat} {e : Expr} {frames : List Frame} {l : Lexeme} {fraction : Bool}
    (inside : rank < innermostRank frames) :
    move ⟨.rest rank e, frames⟩ l fraction = match Continuation.ofLexeme (rank + 1) l with
      | .none => .stay ⟨.rest (rank + 1) e, frames⟩
      | .operator op => .read ⟨.operand default, .left rank op e :: frames⟩
      | .factor => .stay ⟨.operand default, .left rank (.number .multiply) e :: frames⟩ :=
  if_pos inside

theorem move_end {rank : Nat} {e : Expr} {frames : List Frame} {l : Lexeme} {fraction : Bool}
    (complete : innermostRank frames ≤ rank) :
    move ⟨.rest rank e, frames⟩ l fraction = endMove e l fraction frames :=
  if_neg (Nat.not_lt.mpr complete)

theorem move_cases (c : Control) (l : Lexeme) (fraction : Bool) :
    (∃ d, c.move l fraction = .read d) ∨ (∃ d, c.move l fraction = .stay d) ∨
      (∃ fault, c.move l fraction = .fail fault) ∨
      ∃ rank e, c.phase = .rest rank e ∧ innermostRank c.frames ≤ rank := by
  obtain ⟨phase, frames⟩ := c
  cases phase with
  | operand p =>
    simp only [move, operandMove]
    split
    · exact .inl ⟨_, rfl⟩
    split
    · exact .inr (.inr (.inl ⟨_, rfl⟩))
    unfold primaryMove
    split
    · exact .inl ⟨_, rfl⟩
    · split <;> exact .inl ⟨_, rfl⟩
    · exact .inl ⟨_, rfl⟩
    · exact .inr (.inr (.inl ⟨_, rfl⟩))
  | name p name =>
    simp only [move, nameMove]
    split
    · exact .inl ⟨_, rfl⟩
    · exact .inl ⟨_, rfl⟩
    · exact .inr (.inl ⟨_, rfl⟩)
  | arguments p name reversed =>
    simp only [move, argumentsMove]
    split
    · exact .inl ⟨_, rfl⟩
    split
    · exact .inr (.inr (.inl ⟨_, rfl⟩))
    · exact .inr (.inl ⟨_, rfl⟩)
  | primary p e =>
    simp only [move, factorialMove]
    split
    · exact .inl ⟨_, rfl⟩
    · exact .inr (.inl ⟨_, rfl⟩)
  | rest rank e =>
    by_cases inside : rank < innermostRank frames
    · rw [move_rest inside]
      split
      · exact .inr (.inl ⟨_, rfl⟩)
      · exact .inl ⟨_, rfl⟩
      · exact .inr (.inl ⟨_, rfl⟩)
    · exact .inr (.inr (.inr ⟨rank, e, rfl, Nat.not_lt.mp inside⟩))

theorem of_accept {c : Control} {l : Lexeme} {fraction : Bool} {e : Expr}
    (moves : c.move l fraction = .accept e) :
    l = .eof ∧ ∃ rank, loosestRank ≤ rank ∧ c = ⟨.rest rank e, []⟩ := by
  rcases move_cases c l fraction with ⟨_, reads⟩ | ⟨_, stays⟩ | ⟨_, fails⟩ | ⟨rank, e', phase, complete⟩
  · cases moves.symm.trans reads
  · cases moves.symm.trans stays
  · cases moves.symm.trans fails
  obtain ⟨_, frames⟩ := c
  subst phase
  rw [move_end complete] at moves
  rcases frames with _ | ⟨_ | _ | _ | _, frames⟩
  · simp only [endMove] at moves
    split at moves
    · rename_i ends
      cases moves
      exact ⟨ends, rank, complete, rfl⟩
    · cases moves
  · cases moves
  · simp only [endMove] at moves
    split at moves <;> cases moves
  · cases moves
  · simp only [endMove] at moves
    split at moves
    · cases moves
    · split at moves <;> cases moves

section

variable {p : Prefixes} {name : String} {reversed : List Expr} {frames : List Frame} {e : Expr}
  {l : Lexeme} {fraction : Bool}

theorem move_outermost_end : move ⟨.rest loosestRank e, []⟩ l fraction =
    if l = .eof then .accept e else .fail .operatorExpected :=
  move_end (Nat.le_refl loosestRank)

theorem move_left_end {rank : Nat} {op : Operation} {left : Expr} :
    move ⟨.rest rank e, .left rank op left :: frames⟩ l fraction =
      .stay ⟨.rest rank (.binary op left e), frames⟩ :=
  move_end (Nat.le_refl rank)

theorem move_bracket_end : move ⟨.rest loosestRank e, .bracket p :: frames⟩ l fraction =
    if l = .symbol .bracketClose then .read ⟨.primary p e, frames⟩
    else .fail .closingBracketExpected :=
  move_end (Nat.le_refl loosestRank)

theorem move_assignment_end : move ⟨.rest loosestRank e, .assignment p name :: frames⟩ l fraction =
    .stay ⟨.primary p (.assign name e), frames⟩ :=
  move_end (Nat.le_refl loosestRank)

theorem move_argument_end :
    move ⟨.rest loosestRank e, .argument p name reversed :: frames⟩ l fraction =
      if l.isSeparator then .read ⟨.arguments p name (e :: reversed), frames⟩
      else if fraction then .split ⟨.arguments p name (e :: reversed), frames⟩
      else .stay ⟨.arguments p name (e :: reversed), frames⟩ :=
  move_end (Nat.le_refl loosestRank)

end

end Control

/-- A control at a position of a text. -/
structure State where
  control : Control
  position : Nat

inductive Outcome
  | goes (s : State)
  | accepts (e : Expr)
  | fails (e : ParseError)

/-- What a move at a position comes to. -/
def Move.outcome (preferDecimal : Bool) (text : String) (p : Nat) : Move → Outcome
  | read next => .goes ⟨next, (Token.scan preferDecimal text p).stop⟩
  | split next => .goes ⟨next, (Token.scan preferDecimal text p).position + 1⟩
  | stay next => .goes ⟨next, p⟩
  | accept e => .accepts e
  | fail fault => .fails ((cursorAt preferDecimal text p).error fault)

/-- A step of the automaton in a text. A lexical fault ends it whatever its control, and so does a
    token inside more constructs than may nest. -/
def State.step (nesting : Nat) (preferDecimal : Bool) (text : String) (s : State) : Outcome :=
  match (Token.scan preferDecimal text s.position).lexeme with
  | .error fault => .fails ((cursorAt preferDecimal text s.position).error (.lexical fault))
  | l =>
    if nesting < depth s.control.frames then .fails (Expr.tooDeep (cursorAt preferDecimal text s.position))
    else (s.control.move l (cursorAt preferDecimal text s.position).isCommaFraction).outcome
      preferDecimal text s.position

/-- The states that the automaton goes through. -/
inductive Runs (nesting : Nat) (preferDecimal : Bool) (text : String) : State → State → Prop
  | refl (s : State) : Runs nesting preferDecimal text s s
  | next {s s' s'' : State} (stepped : s.step nesting preferDecimal text = .goes s')
      (rest : Runs nesting preferDecimal text s' s'') : Runs nesting preferDecimal text s s''

variable {nesting : Nat} {preferDecimal : Bool} {text : String} {s s' s'' : State}

theorem Runs.trans (first : Runs nesting preferDecimal text s s')
    (second : Runs nesting preferDecimal text s' s'') : Runs nesting preferDecimal text s s'' := by
  induction first with
  | refl => exact second
  | next stepped _ ih => exact .next stepped (ih second)

theorem Runs.single (stepped : s.step nesting preferDecimal text = .goes s') :
    Runs nesting preferDecimal text s s' :=
  .next stepped (.refl s')

theorem Runs.keeps {invariant : State → Prop}
    (kept : ∀ s s', s.step nesting preferDecimal text = .goes s' → invariant s → invariant s')
    (runs : Runs nesting preferDecimal text s s') (holds : invariant s) : invariant s' := by
  induction runs with
  | refl => exact holds
  | next stepped _ ih => exact ih (kept _ _ stepped holds)

theorem Runs.last (runs : Runs nesting preferDecimal text s s'') :
    s'' = s ∨ ∃ s', Runs nesting preferDecimal text s s' ∧
      s'.step nesting preferDecimal text = .goes s'' := by
  induction runs with
  | refl => exact .inl rfl
  | next stepped _ ih =>
    rcases ih with rfl | ⟨m, runs, last⟩
    · exact .inr ⟨_, .refl _, stepped⟩
    · exact .inr ⟨m, .next stepped runs, last⟩

/-- The automaton is deterministic: of two states that it goes through, it comes to one from the
    other. -/
theorem Runs.linear (first : Runs nesting preferDecimal text s s')
    (second : Runs nesting preferDecimal text s s'') :
    Runs nesting preferDecimal text s' s'' ∨ Runs nesting preferDecimal text s'' s' := by
  induction first with
  | refl => exact .inl second
  | next stepped rest ih =>
    cases second with
    | refl => exact .inr (.next stepped rest)
    | next stepped' rest' =>
      cases stepped.symm.trans stepped'
      exact ih rest'

def Final (nesting : Nat) (preferDecimal : Bool) (text : String) (s : State) : Prop :=
  ∀ s', s.step nesting preferDecimal text ≠ .goes s'

theorem Final.runs (final : Final nesting preferDecimal text s)
    (runs : Runs nesting preferDecimal text s s') : s' = s := by
  cases runs with
  | refl => rfl
  | next stepped => exact absurd stepped (final _)

theorem Runs.same_final (first : Runs nesting preferDecimal text s s')
    (final : Final nesting preferDecimal text s') (second : Runs nesting preferDecimal text s s'')
    (final' : Final nesting preferDecimal text s'') : s' = s'' := by
  rcases first.linear second with runs | runs
  · exact (final.runs runs).symm
  · exact final'.runs runs

theorem final_of_accepts {e : Expr} (accepts : s.step nesting preferDecimal text = .accepts e) :
    Final nesting preferDecimal text s := by
  intro s' stepped
  cases accepts.symm.trans stepped

theorem final_of_fails {e : ParseError} (fails : s.step nesting preferDecimal text = .fails e) :
    Final nesting preferDecimal text s := by
  intro s' stepped
  cases fails.symm.trans stepped

theorem step_of_fault {fault : LexicalFault}
    (lexeme : (Token.scan preferDecimal text s.position).lexeme = .error fault) :
    s.step nesting preferDecimal text =
      .fails ((cursorAt preferDecimal text s.position).error (.lexical fault)) := by
  unfold State.step
  rw [lexeme]

theorem step_of_no_fault (readable : Readable preferDecimal text s.position) :
    s.step nesting preferDecimal text =
      if nesting < depth s.control.frames then
        .fails (Expr.tooDeep (cursorAt preferDecimal text s.position))
      else (s.control.move (Token.scan preferDecimal text s.position).lexeme
        (cursorAt preferDecimal text s.position).isCommaFraction).outcome preferDecimal text
          s.position := by
  unfold State.step
  unfold Readable at readable
  split
  · rename_i fault lexeme
    rw [lexeme] at readable
    cases readable
  · rfl

theorem step_of_readable (readable : Readable preferDecimal text s.position)
    (within : depth s.control.frames ≤ nesting) :
    s.step nesting preferDecimal text =
      (s.control.move (Token.scan preferDecimal text s.position).lexeme
        (cursorAt preferDecimal text s.position).isCommaFraction).outcome preferDecimal text
          s.position :=
  (step_of_no_fault readable).trans (if_neg (Nat.not_lt.mpr within))

theorem step_of_deep (readable : Readable preferDecimal text s.position)
    (deep : nesting < depth s.control.frames) :
    s.step nesting preferDecimal text = .fails (Expr.tooDeep (cursorAt preferDecimal text s.position)) :=
  (step_of_no_fault readable).trans (if_pos deep)

theorem step_cases (nesting : Nat) (preferDecimal : Bool) (text : String) (s : State) :
    (∃ fault, (Token.scan preferDecimal text s.position).lexeme = .error fault) ∨
      Readable preferDecimal text s.position ∧
        (nesting < depth s.control.frames ∨ depth s.control.frames ≤ nesting) := by
  rcases readable_or_fault preferDecimal text s.position with readable | fault
  · exact .inr ⟨readable, Nat.lt_or_ge ..⟩
  · exact .inl fault

theorem of_goes (stepped : s.step nesting preferDecimal text = .goes s') :
    Readable preferDecimal text s.position ∧ depth s.control.frames ≤ nesting := by
  rcases step_cases nesting preferDecimal text s with ⟨fault, lexeme⟩ | ⟨readable, deep | within⟩
  · cases (step_of_fault lexeme).symm.trans stepped
  · cases (step_of_deep readable deep).symm.trans stepped
  · exact ⟨readable, within⟩

theorem outcome_of_goes (stepped : s.step nesting preferDecimal text = .goes s') :
    (s.control.move (Token.scan preferDecimal text s.position).lexeme
      (cursorAt preferDecimal text s.position).isCommaFraction).outcome preferDecimal text
        s.position = .goes s' := by
  obtain ⟨readable, within⟩ := of_goes stepped
  rw [← step_of_readable readable within]
  exact stepped

theorem of_accepts {e : Expr} (accepts : s.step nesting preferDecimal text = .accepts e) :
    (Token.scan preferDecimal text s.position).lexeme = .eof ∧
      ∃ rank, loosestRank ≤ rank ∧ s.control = ⟨.rest rank e, []⟩ := by
  rcases step_cases nesting preferDecimal text s with ⟨fault, lexeme⟩ | ⟨readable, deep | within⟩
  · cases (step_of_fault lexeme).symm.trans accepts
  · cases (step_of_deep readable deep).symm.trans accepts
  · rw [step_of_readable readable within] at accepts
    generalize moves : s.control.move _ _ = m at accepts
    cases m <;> cases accepts
    exact Control.of_accept moves

section

variable {q : Nat} {e : Expr}

theorem rest_accepts (ends : (Token.scan preferDecimal text q).lexeme = .eof) (rank : Nat)
    (inside : rank ≤ loosestRank) :
    ∃ s, Runs nesting preferDecimal text ⟨⟨.rest rank e, []⟩, q⟩ s ∧
      s.step nesting preferDecimal text = .accepts e := by
  have readable : Readable preferDecimal text q := by
    rw [Readable, ends]
    rfl
  by_cases loosest : rank = loosestRank
  · subst loosest
    refine ⟨_, .refl _, ?_⟩
    rw [step_of_readable readable (Nat.zero_le _), ends, Control.move_outermost_end]
    rfl
  · have tighter : rank < innermostRank [] := Nat.lt_of_le_of_ne inside loosest
    obtain ⟨s, runs, accepts⟩ := rest_accepts ends (rank + 1) tighter
    refine ⟨s, .next ?_ runs, accepts⟩
    rw [step_of_readable readable (Nat.zero_le _), ends, Control.move_rest tighter]
    rfl
termination_by loosestRank - rank

theorem primary_accepts (r : Prefixes) (ends : (Token.scan preferDecimal text q).lexeme = .eof) :
    ∃ s, Runs nesting preferDecimal text ⟨⟨.primary r e, []⟩, q⟩ s ∧
      s.step nesting preferDecimal text = .accepts (r.wrap e) := by
  obtain ⟨s, runs, accepts⟩ := rest_accepts ends 0 (Nat.zero_le loosestRank)
  refine ⟨s, .next ?_ runs, accepts⟩
  rw [step_of_readable (by rw [Readable, ends]; rfl) (Nat.zero_le _), ends]
  rfl

end

end Reckoner.Pushdown
