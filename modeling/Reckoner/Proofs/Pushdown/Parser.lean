import Reckoner.Proofs.Outcome
import Reckoner.Proofs.Pushdown.Automaton

namespace Reckoner

namespace Pushdown

open Grammar

variable {nesting : Nat} {preferDecimal : Bool} {text : String} {s s' : State} {α β : Type}

def Follows (nesting : Nat) (preferDecimal : Bool) (text : String) (s : State) (x : Except ParseError α)
    (shows : α → State → Prop) : Prop :=
  match x with
  | .ok a => ∃ s', Runs nesting preferDecimal text s s' ∧ shows a s'
  | .error e => ∃ s', Runs nesting preferDecimal text s s' ∧ s'.step nesting preferDecimal text = .fails e

def Arrives (preferDecimal : Bool) (text : String) {property : α × Cursor → Prop}
    (control : α → Control) (r : Subtype property) (s : State) : Prop :=
  ∃ q, Readable preferDecimal text q ∧ r.1.2 = cursorAt preferDecimal text q ∧
    s = ⟨control r.1.1, q⟩

namespace Follows

variable {x : Except ParseError α} {f : α → Except ParseError β} {shows : α → State → Prop}
  {shows' : β → State → Prop} {c d : Control} {p : Nat}

theorem after (runs : Runs nesting preferDecimal text s s')
    (follows : Follows nesting preferDecimal text s' x shows) :
    Follows nesting preferDecimal text s x shows := by
  cases x with
  | ok a =>
    obtain ⟨s'', runs', shown⟩ := follows
    exact ⟨s'', runs.trans runs', shown⟩
  | error e =>
    obtain ⟨s'', runs', failed⟩ := follows
    exact ⟨s'', runs.trans runs', failed⟩

theorem bind (first : Follows nesting preferDecimal text s x shows)
    (second : ∀ a s', shows a s' → Follows nesting preferDecimal text s' (f a) shows') :
    Follows nesting preferDecimal text s (x >>= f) shows' := by
  cases x with
  | ok a =>
    obtain ⟨s', runs, shown⟩ := first
    exact (second a s' shown).after runs
  | error e => exact first

theorem done {a : α} (shown : shows a s) : Follows nesting preferDecimal text s (.ok a) shows :=
  ⟨s, .refl s, shown⟩

theorem stay (readable : Readable preferDecimal text p) (within : depth c.frames ≤ nesting)
    (moves : c.move (Token.scan preferDecimal text p).lexeme
      (cursorAt preferDecimal text p).isCommaFraction = .stay d)
    (continues : Follows nesting preferDecimal text ⟨d, p⟩ x shows) :
    Follows nesting preferDecimal text ⟨c, p⟩ x shows := by
  refine continues.after (.single ?_)
  rw [step_of_readable readable within, moves]
  rfl

theorem refuse (fault : SyntaxFault) (readable : Readable preferDecimal text p)
    (within : depth c.frames ≤ nesting)
    (moves : c.move (Token.scan preferDecimal text p).lexeme
      (cursorAt preferDecimal text p).isCommaFraction = .fail fault) :
    Follows nesting preferDecimal text ⟨c, p⟩
      (.error ((cursorAt preferDecimal text p).error fault)) shows := by
  refine ⟨_, .refl _, ?_⟩
  rw [step_of_readable readable within, moves]
  rfl

theorem read {more : (cursorAt preferDecimal text p).lexeme ≠ .eof}
    {f : { d : Cursor // d.size < (cursorAt preferDecimal text p).size } → Except ParseError β}
    (readable : Readable preferDecimal text p) (within : depth c.frames ≤ nesting)
    (moves : c.move (Token.scan preferDecimal text p).lexeme
      (cursorAt preferDecimal text p).isCommaFraction = .read d)
    (continues : ∀ shorter, Readable preferDecimal text (Token.scan preferDecimal text p).stop →
      Follows nesting preferDecimal text ⟨d, (Token.scan preferDecimal text p).stop⟩
        (f ⟨cursorAt preferDecimal text (Token.scan preferDecimal text p).stop, shorter⟩) shows') :
    Follows nesting preferDecimal text ⟨c, p⟩ ((cursorAt preferDecimal text p).next more >>= f) shows' := by
  have stepped : (⟨c, p⟩ : State).step nesting preferDecimal text =
      .goes ⟨d, (Token.scan preferDecimal text p).stop⟩ := by
    rw [step_of_readable readable within, moves]
    rfl
  rcases readable_or_fault preferDecimal text (Token.scan preferDecimal text p).stop with
    further | ⟨fault, lexeme⟩
  · obtain ⟨shorter, next⟩ := next_succeeds more further
    rw [next]
    exact (continues shorter further).after (.single stepped)
  · rw [next_fails lexeme]
    exact ⟨_, .single stepped, step_of_fault lexeme⟩

theorem split {more : (cursorAt preferDecimal text p).lexeme ≠ .eof}
    {f : { d : Cursor // d.size < (cursorAt preferDecimal text p).size } → Except ParseError β}
    (readable : Readable preferDecimal text p) (within : depth c.frames ≤ nesting)
    (moves : c.move (Token.scan preferDecimal text p).lexeme
      (cursorAt preferDecimal text p).isCommaFraction = .split d)
    (continues : ∀ shorter,
      Readable preferDecimal text ((Token.scan preferDecimal text p).position + 1) →
      Follows nesting preferDecimal text ⟨d, (Token.scan preferDecimal text p).position + 1⟩
        (f ⟨cursorAt preferDecimal text ((Token.scan preferDecimal text p).position + 1), shorter⟩)
        shows') :
    Follows nesting preferDecimal text ⟨c, p⟩
      ((cursorAt preferDecimal text p).afterComma more >>= f) shows' := by
  have stepped : (⟨c, p⟩ : State).step nesting preferDecimal text =
      .goes ⟨d, (Token.scan preferDecimal text p).position + 1⟩ := by
    rw [step_of_readable readable within, moves]
    rfl
  rcases readable_or_fault preferDecimal text ((Token.scan preferDecimal text p).position + 1) with
    further | ⟨fault, lexeme⟩
  · obtain ⟨shorter, next⟩ := afterComma_succeeds more further
    rw [next]
    exact (continues shorter further).after (.single stepped)
  · rw [afterComma_fails lexeme]
    exact ⟨_, .single stepped, step_of_fault lexeme⟩

theorem descend {spare : Nat} {f : Nat → Except ParseError β}
    (level : spare + depth c.frames = nesting + 1) (readable : Readable preferDecimal text p)
    (continues : ∀ inner, inner + depth c.frames = nesting → depth c.frames ≤ nesting →
      Follows nesting preferDecimal text ⟨c, p⟩ (f inner) shows') :
    Follows nesting preferDecimal text ⟨c, p⟩
      (Expr.deeper spare (cursorAt preferDecimal text p) >>= f) shows' := by
  cases spare with
  | zero =>
    have deep : nesting < depth c.frames := by omega
    exact ⟨_, .refl _, step_of_deep readable deep⟩
  | succ inner => exact continues inner (by omega) (by omega)

end Follows

theorem prefixes_follows (r : Prefixes) (p : Nat) {frames : List Frame}
    (within : depth frames ≤ nesting) (readable : Readable preferDecimal text p) :
    Follows nesting preferDecimal text ⟨⟨.operand r, frames⟩, p⟩
      (Expr.prefixes r (cursorAt preferDecimal text p)) fun x s =>
        Arrives preferDecimal text (fun r => ⟨.operand r, frames⟩) x s ∧
          x.1.1.add? (Token.scan preferDecimal text s.position).lexeme = none := by
  rw [Expr.prefixes]
  split
  · rename_i none
    exact .done ⟨⟨p, readable, rfl, rfl⟩, none⟩
  · rename_i r' added
    have moves : (⟨.operand r, frames⟩ : Control).move (Token.scan preferDecimal text p).lexeme
        (cursorAt preferDecimal text p).isCommaFraction = .read ⟨.operand r', frames⟩ := by
      have added : r.add? (Token.scan preferDecimal text p).lexeme = some r' := added
      simp only [Control.move, Control.operandMove, added]
    apply Follows.read readable within moves
    intro shorter further
    apply (prefixes_follows r' _ within further).bind
    rintro ⟨⟨r'', c⟩, bound⟩ s ⟨⟨q, readable', rfl, rfl⟩, none⟩
    exact .done ⟨⟨q, readable', rfl, rfl⟩, none⟩
termination_by (cursorAt preferDecimal text p).size

theorem closing_follows {p : Nat} {r : Prefixes} {e : Expr} {frames : List Frame}
    {f : { d : Cursor // d.size < (cursorAt preferDecimal text p).size } → Except ParseError β}
    {shows : β → State → Prop} (within : depth frames + 1 ≤ nesting)
    (readable : Readable preferDecimal text p)
    (continues : ∀ shorter, Readable preferDecimal text (Token.scan preferDecimal text p).stop →
      Follows nesting preferDecimal text ⟨⟨.primary r e, frames⟩, (Token.scan preferDecimal text p).stop⟩
        (f ⟨cursorAt preferDecimal text (Token.scan preferDecimal text p).stop, shorter⟩) shows) :
    Follows nesting preferDecimal text ⟨⟨.rest loosestRank e, .bracket r :: frames⟩, p⟩
      (Expr.closing (cursorAt preferDecimal text p) >>= f) shows := by
  unfold Expr.closing
  split
  · rename_i closes
    exact .read readable within (Control.move_bracket_end.trans (if_pos closes)) continues
  · rename_i other
    exact .refuse .closingBracketExpected readable within
      (Control.move_bracket_end.trans (if_neg other))

theorem factorialMark_follows {p bound : Nat} {r : Prefixes} {e : Expr} {frames : List Frame}
    {before : (cursorAt preferDecimal text p).size < bound} (within : depth frames ≤ nesting)
    (readable : Readable preferDecimal text p) :
    Follows nesting preferDecimal text ⟨⟨.primary r e, frames⟩, p⟩
      (Expr.factorialMark e (cursorAt preferDecimal text p) before)
      (Arrives preferDecimal text fun e => ⟨.rest 0 (r.wrap e), frames⟩) := by
  unfold Expr.factorialMark
  split
  · rename_i mark
    refine .read readable within (if_pos mark) ?_
    intro shorter further
    exact .done ⟨_, further, rfl, rfl⟩
  · rename_i other
    exact .stay readable within (if_neg other) (.done ⟨_, readable, rfl, rfl⟩)

theorem separator_follows {p : Nat} {r : Prefixes} {name : String} {reversed : List Expr} {e : Expr}
    {frames : List Frame} (within : depth frames + 1 ≤ nesting)
    (readable : Readable preferDecimal text p) :
    Follows nesting preferDecimal text
      ⟨⟨.rest loosestRank e, .argument r name reversed :: frames⟩, p⟩
      (Expr.separator (cursorAt preferDecimal text p)) fun d s => ∃ q,
        Readable preferDecimal text q ∧ d.1 = cursorAt preferDecimal text q ∧
        s = ⟨⟨.arguments r name (e :: reversed), frames⟩, q⟩ := by
  unfold Expr.separator
  split
  · rename_i separates
    refine .read readable within (Control.move_argument_end.trans (if_pos separates)) ?_
    intro shorter further
    exact .done ⟨_, further, rfl, rfl⟩
  rename_i noSeparator
  split
  · rename_i fraction
    refine .split readable within (Control.move_argument_end.trans
      ((if_neg noSeparator).trans (if_pos fraction))) ?_
    intro shorter further
    exact .done ⟨_, further, rfl, rfl⟩
  · rename_i noFraction
    exact .stay readable within (Control.move_argument_end.trans
      ((if_neg noSeparator).trans (if_neg noFraction))) (.done ⟨p, readable, rfl, rfl⟩)

/-- A right operand becomes a part of the left one, and the same rank continues. -/
theorem joins_left {p rank : Nat} {op : Operation} {left right : Expr} {frames : List Frame}
    (within : depth frames ≤ nesting) (readable : Readable preferDecimal text p) :
    Runs nesting preferDecimal text ⟨⟨.rest rank right, .left rank op left :: frames⟩, p⟩
      ⟨⟨.rest rank (.binary op left right), frames⟩, p⟩ := by
  apply Runs.single
  rw [step_of_readable readable within]
  exact congrArg (Move.outcome preferDecimal text p) Control.move_left_end

mutual

theorem ofRank_follows (spare rank p : Nat) (frames : List Frame)
    (level : spare + depth frames = nesting) (inside : rank ≤ innermostRank frames)
    (readable : Readable preferDecimal text p) :
    Follows nesting preferDecimal text ⟨⟨.operand default, frames⟩, p⟩
      (Expr.ofRank spare rank (cursorAt preferDecimal text p))
      (Arrives preferDecimal text fun e => ⟨.rest rank e, frames⟩) := by
  rw [Expr.ofRank.eq_def]
  cases rank with
  | zero => exact operand_follows spare p level readable
  | succ rank =>
    apply (ofRank_follows spare rank p frames level (Nat.le_of_succ_le inside) readable).bind
    rintro ⟨⟨first, c⟩, shorter⟩ s ⟨q, further, rfl, rfl⟩
    have less : (cursorAt preferDecimal text q).size < (cursorAt preferDecimal text p).size := shorter
    exact continued_follows spare rank q level inside further
termination_by ((cursorAt preferDecimal text p).size, 2 * rank + 2)
decreasing_by
  all_goals
    apply Expr.lex_of_sizes
    omega

theorem continued_follows (spare rank p : Nat) {bound : Nat} {left : Expr} {frames : List Frame}
    {before : (cursorAt preferDecimal text p).size < bound}
    (level : spare + depth frames = nesting) (inside : rank < innermostRank frames)
    (readable : Readable preferDecimal text p) :
    Follows nesting preferDecimal text ⟨⟨.rest rank left, frames⟩, p⟩
      (Expr.continued spare rank bound left (cursorAt preferDecimal text p) before)
      (Arrives preferDecimal text fun e => ⟨.rest (rank + 1) e, frames⟩) := by
  have moves := @Control.move_rest rank left frames (Token.scan preferDecimal text p).lexeme
    (cursorAt preferDecimal text p).isCommaFraction inside
  have within : depth frames ≤ nesting := by omega
  rw [Expr.continued.eq_def]
  split
  · rename_i none
    rw [show Continuation.ofLexeme (rank + 1) (Token.scan preferDecimal text p).lexeme = .none
      from none] at moves
    exact .stay readable within moves (.done ⟨_, readable, rfl, rfl⟩)
  · rename_i op operator
    rw [show Continuation.ofLexeme (rank + 1) (Token.scan preferDecimal text p).lexeme =
      .operator op from operator] at moves
    refine .read readable within moves ?_
    intro shorter further
    apply (ofRank_follows spare rank _ (.left rank op left :: frames) level (Nat.le_refl _)
      further).bind
    rintro ⟨⟨right, c⟩, shorter'⟩ s ⟨q, further', rfl, rfl⟩
    have less : (cursorAt preferDecimal text q).size <
        (cursorAt preferDecimal text (Token.scan preferDecimal text p).stop).size := shorter'
    exact (continued_follows spare rank q level inside further').after (joins_left within further')
  · rename_i factor
    rw [show Continuation.ofLexeme (rank + 1) (Token.scan preferDecimal text p).lexeme = .factor
      from factor] at moves
    refine .stay readable within moves ?_
    apply (ofRank_follows spare rank p (.left rank (.number .multiply) left :: frames) level
      (Nat.le_refl _) readable).bind
    rintro ⟨⟨right, c⟩, shorter⟩ s ⟨q, further, rfl, rfl⟩
    have less : (cursorAt preferDecimal text q).size < (cursorAt preferDecimal text p).size := shorter
    exact (continued_follows spare rank q level inside further).after (joins_left within further)
termination_by ((cursorAt preferDecimal text p).size, 2 * rank + 3)
decreasing_by
  all_goals
    apply Expr.lex_of_sizes
    omega

theorem operand_follows (spare p : Nat) {frames : List Frame}
    (level : spare + depth frames = nesting) (readable : Readable preferDecimal text p) :
    Follows nesting preferDecimal text ⟨⟨.operand default, frames⟩, p⟩
      (Expr.operand spare (cursorAt preferDecimal text p))
      (Arrives preferDecimal text fun e => ⟨.rest 0 e, frames⟩) := by
  have within : depth frames ≤ nesting := by omega
  rw [Expr.operand.eq_def]
  apply (prefixes_follows default p within readable).bind
  rintro ⟨⟨r, c⟩, bound⟩ s ⟨⟨q, further, rfl, rfl⟩, unsigned⟩
  have less : (cursorAt preferDecimal text q).size ≤ (cursorAt preferDecimal text p).size := bound
  have unsigned : r.add? (Token.scan preferDecimal text q).lexeme = none := unsigned
  dsimp only
  split
  · rename_i refused
    refine .refuse .variableExpected further within ?_
    simp only [Control.move, Control.operandMove, unsigned]
    exact if_pos refused
  rename_i allowed
  apply (primary_follows spare q level further unsigned allowed).bind
  rintro ⟨⟨e, c⟩, shorter⟩ s ⟨q', further', rfl, rfl⟩
  apply (factorialMark_follows within further').bind
  rintro ⟨⟨e', c⟩, shorter'⟩ s ⟨q'', further'', rfl, rfl⟩
  exact .done ⟨_, further'', rfl, rfl⟩
termination_by ((cursorAt preferDecimal text p).size, 1)
decreasing_by
  all_goals
    apply Expr.lex_of_sizes
    omega

theorem primary_follows (spare p : Nat) {r : Prefixes} {frames : List Frame}
    (level : spare + depth frames = nesting) (readable : Readable preferDecimal text p)
    (unsigned : r.add? (Token.scan preferDecimal text p).lexeme = none)
    (allowed : ¬ (r.delete && !(cursorAt preferDecimal text p).lexeme.isIdentifier) = true) :
    Follows nesting preferDecimal text ⟨⟨.operand r, frames⟩, p⟩
      (Expr.primary spare r.delete (cursorAt preferDecimal text p))
      (Arrives preferDecimal text fun e => ⟨.primary r e, frames⟩) := by
  have moves : (⟨.operand r, frames⟩ : Control).move (Token.scan preferDecimal text p).lexeme
      (cursorAt preferDecimal text p).isCommaFraction =
        Control.primaryMove r frames (Token.scan preferDecimal text p).lexeme := by
    simp only [Control.move, Control.operandMove, unsigned]
    exact if_neg allowed
  have within : depth frames ≤ nesting := by omega
  rw [Expr.primary.eq_def]
  split
  · rename_i opens
    refine .read readable within (moves.trans (congrArg _ opens)) ?_
    intro shorter further
    refine .descend (by simp only [depth]; omega) further ?_
    intro inner level' within'
    apply (ofRank_follows inner loosestRank _ (.bracket r :: frames) level' (Nat.le_refl _) further).bind
    rintro ⟨⟨e, c⟩, shorter'⟩ s ⟨q, further', rfl, rfl⟩
    apply closing_follows within' further'
    intro shorter'' further''
    exact .done ⟨_, further'', rfl, rfl⟩
  · rename_i name identifier
    have named : Control.primaryMove r frames (Token.scan preferDecimal text p).lexeme =
        if r.delete then .read ⟨.primary r (.remove name), frames⟩
        else .read ⟨.name r name, frames⟩ := congrArg _ identifier
    cases delete : r.delete with
    | true =>
      refine .read readable within (moves.trans (named.trans (if_pos delete))) ?_
      intro shorter further
      exact .done ⟨_, further, rfl, rfl⟩
    | false =>
      refine .read readable within (moves.trans (named.trans (if_neg (Bool.eq_false_iff.mp delete)))) ?_
      intro shorter further
      exact named_follows spare _ level further
  · rename_i v number
    refine .read readable within (moves.trans (congrArg _ number)) ?_
    intro shorter further
    exact .done ⟨_, further, rfl, rfl⟩
  · rename_i noBracket noName noNumber
    refine .refuse .operandExpected readable within (moves.trans ?_)
    unfold Control.primaryMove
    split
    · rename_i opens
      exact absurd opens noBracket
    · rename_i name identifier
      exact absurd identifier (noName name)
    · rename_i v number
      exact absurd number (noNumber v)
    · rfl
termination_by ((cursorAt preferDecimal text p).size, 0)
decreasing_by
  all_goals
    apply Expr.lex_of_sizes
    omega

theorem named_follows (spare p : Nat) {bound : Nat} {r : Prefixes} {name : String}
    {frames : List Frame} {before : (cursorAt preferDecimal text p).size < bound}
    (level : spare + depth frames = nesting) (readable : Readable preferDecimal text p) :
    Follows nesting preferDecimal text ⟨⟨.name r name, frames⟩, p⟩
      (Expr.named spare name bound (cursorAt preferDecimal text p) before)
      (Arrives preferDecimal text fun e => ⟨.primary r e, frames⟩) := by
  have moves : (⟨.name r name, frames⟩ : Control).move (Token.scan preferDecimal text p).lexeme
      (cursorAt preferDecimal text p).isCommaFraction =
        Control.nameMove r name frames (Token.scan preferDecimal text p).lexeme := rfl
  have within : depth frames ≤ nesting := by omega
  rw [Expr.named.eq_def]
  split
  · rename_i equals
    refine .read readable within (moves.trans (congrArg _ equals)) ?_
    intro shorter further
    refine .descend (by simp only [depth]; omega) further ?_
    intro inner level' within'
    apply (ofRank_follows inner loosestRank _ (.assignment r name :: frames) level' (Nat.le_refl _)
      further).bind
    rintro ⟨⟨e, c⟩, shorter'⟩ s ⟨q, further', rfl, rfl⟩
    exact .stay further' within' Control.move_assignment_end (.done ⟨_, further', rfl, rfl⟩)
  · rename_i opens
    refine .read readable within (moves.trans (congrArg _ opens)) ?_
    intro shorter further
    apply (arguments_follows spare _ level further).bind
    rintro ⟨⟨es, c⟩, shorter'⟩ s ⟨q, further', rfl, rfl⟩
    exact .done ⟨_, further', rfl, rfl⟩
  · rename_i noEqual noBracket
    have other : Control.nameMove r name frames (Token.scan preferDecimal text p).lexeme =
        .stay ⟨.primary r (.read name), frames⟩ := by
      unfold Control.nameMove
      split
      · rename_i equals
        exact absurd equals noEqual
      · rename_i opens
        exact absurd opens noBracket
      · rfl
    exact .stay readable within (moves.trans other) (.done ⟨_, readable, rfl, rfl⟩)
termination_by ((cursorAt preferDecimal text p).size, 0)
decreasing_by
  all_goals
    apply Expr.lex_of_sizes
    omega

theorem arguments_follows (spare p : Nat) {bound : Nat} {r : Prefixes} {name : String}
    {reversed : List Expr} {frames : List Frame}
    {before : (cursorAt preferDecimal text p).size < bound}
    (level : spare + depth frames = nesting) (readable : Readable preferDecimal text p) :
    Follows nesting preferDecimal text ⟨⟨.arguments r name reversed, frames⟩, p⟩
      (Expr.arguments spare bound reversed (cursorAt preferDecimal text p) before)
      (Arrives preferDecimal text fun es => ⟨.primary r (.call name es), frames⟩) := by
  have within : depth frames ≤ nesting := by omega
  rw [Expr.arguments.eq_def]
  split
  · rename_i closes
    refine .read readable within (if_pos closes) ?_
    intro shorter further
    exact .done ⟨_, further, rfl, rfl⟩
  rename_i open_
  split
  · rename_i ends
    exact .refuse .closingBracketExpected readable within ((if_neg open_).trans (if_pos ends))
  rename_i more
  refine .stay readable within ((if_neg open_).trans (if_neg more)) ?_
  refine .descend (by simp only [depth]; omega) readable ?_
  intro inner level' within'
  apply (ofRank_follows inner loosestRank p (.argument r name reversed :: frames) level'
    (Nat.le_refl _) readable).bind
  rintro ⟨⟨e, c⟩, shorter⟩ s ⟨q, further, rfl, rfl⟩
  apply (separator_follows within' further).bind
  rintro ⟨c, shorter'⟩ s ⟨q', further', rfl, rfl⟩
  have less : (cursorAt preferDecimal text q').size < (cursorAt preferDecimal text p).size :=
    Nat.lt_of_le_of_lt shorter' shorter
  exact arguments_follows spare q' level further'
termination_by ((cursorAt preferDecimal text p).size, 2 * loosestRank + 3)
decreasing_by
  all_goals
    apply Expr.lex_of_sizes
    omega

end

/-- From the beginning of a text the automaton accepts the parser's expression or fails with the
    parser's error. -/
theorem ofText_follows (nesting : Nat) (preferDecimal : Bool) (text : String) :
    Follows nesting preferDecimal text ⟨.start, 0⟩ (Expr.ofText preferDecimal text nesting) fun e s =>
      s.step nesting preferDecimal text = .accepts e := by
  unfold Expr.ofText
  have here := (List.drop_zero (l := text.toList)).symm
  rcases readable_or_fault preferDecimal text 0 with readable | ⟨fault, lexeme⟩
  · obtain ⟨bound, begin⟩ := read_succeeds here readable
    rw [begin]
    have level : nesting + depth [] = nesting := rfl
    apply (ofRank_follows nesting loosestRank 0 [] level (Nat.le_refl _) readable).bind
    rintro ⟨⟨e, c⟩, shorter⟩ s ⟨q, further, rfl, rfl⟩
    dsimp only
    split
    · rename_i ends
      refine .done ?_
      rw [step_of_readable further (Nat.zero_le nesting)]
      exact congrArg (Move.outcome preferDecimal text q) (Control.move_outermost_end.trans (if_pos ends))
    · rename_i more
      exact .refuse .operatorExpected further (Nat.zero_le nesting)
        (Control.move_outermost_end.trans (if_neg more))
  · rw [read_fails here lexeme]
    exact ⟨_, .refl _, step_of_fault lexeme⟩

theorem ofText_eq_ok_iff {e : Expr} : Expr.ofText preferDecimal text nesting = .ok e ↔
    ∃ s, Runs nesting preferDecimal text ⟨.start, 0⟩ s ∧ s.step nesting preferDecimal text = .accepts e := by
  have follows := ofText_follows nesting preferDecimal text
  cases parsed : Expr.ofText preferDecimal text nesting with
  | ok e' =>
    rw [parsed] at follows
    obtain ⟨s, runs, accepts⟩ := follows
    constructor
    · rintro ⟨⟩
      exact ⟨s, runs, accepts⟩
    · rintro ⟨s', runs', accepts'⟩
      obtain rfl := runs.same_final (final_of_accepts accepts) runs' (final_of_accepts accepts')
      cases accepts.symm.trans accepts'
      rfl
  | error fault =>
    rw [parsed] at follows
    obtain ⟨s, runs, fails⟩ := follows
    constructor
    · rintro ⟨⟩
    · rintro ⟨s', runs', accepts'⟩
      obtain rfl := runs.same_final (final_of_fails fails) runs' (final_of_accepts accepts')
      cases fails.symm.trans accepts'

def State.accepted? (nesting : Nat) (preferDecimal : Bool) (text : String) : Nat → State → Option Expr
  | 0, _ => none
  | n + 1, s =>
    match s.step nesting preferDecimal text with
    | .goes s' => accepted? nesting preferDecimal text n s'
    | .accepts e => some e
    | .fails _ => none

theorem State.runs_of_accepted {n : Nat} {s : State} {e : Expr}
    (accepted : s.accepted? nesting preferDecimal text n = some e) :
    ∃ s', Runs nesting preferDecimal text s s' ∧ s'.step nesting preferDecimal text = .accepts e := by
  induction n generalizing s with
  | zero => cases accepted
  | succ n ih =>
    rw [State.accepted?] at accepted
    split at accepted
    · rename_i next stepped
      obtain ⟨s', runs, accepts⟩ := ih accepted
      exact ⟨s', .next stepped runs, accepts⟩
    · rename_i e' accepts
      cases accepted
      exact ⟨s, .refl s, accepts⟩
    · cases accepted

theorem ofText_of_accepted {n : Nat} {e : Expr}
    (accepted : State.accepted? nesting preferDecimal text n ⟨.start, 0⟩ = some e) :
    Expr.ofText preferDecimal text nesting = .ok e :=
  ofText_eq_ok_iff.mpr (State.runs_of_accepted accepted)

theorem ofText_eq_error_iff {fault : ParseError} : Expr.ofText preferDecimal text nesting = .error fault ↔
    ∃ s, Runs nesting preferDecimal text ⟨.start, 0⟩ s ∧ s.step nesting preferDecimal text = .fails fault := by
  have follows := ofText_follows nesting preferDecimal text
  cases parsed : Expr.ofText preferDecimal text nesting with
  | ok e =>
    rw [parsed] at follows
    obtain ⟨s, runs, accepts⟩ := follows
    constructor
    · rintro ⟨⟩
    · rintro ⟨s', runs', fails⟩
      obtain rfl := runs.same_final (final_of_accepts accepts) runs' (final_of_fails fails)
      cases accepts.symm.trans fails
  | error fault' =>
    rw [parsed] at follows
    obtain ⟨s, runs, fails⟩ := follows
    constructor
    · rintro ⟨⟩
      exact ⟨s, runs, fails⟩
    · rintro ⟨s', runs', fails'⟩
      obtain rfl := runs.same_final (final_of_fails fails) runs' (final_of_fails fails')
      cases fails.symm.trans fails'
      rfl

end Pushdown

end Reckoner
