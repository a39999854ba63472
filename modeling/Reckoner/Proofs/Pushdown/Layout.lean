import Mathlib
import Reckoner.Proofs.Evaluation.Compiled
import Reckoner.Proofs.Pushdown.Parser
import Reckoner.Proofs.Pushdown.Positions
import Reckoner.Proofs.Scanning.Layout

namespace Reckoner.Pushdown

open Grammar Layout

namespace Control

variable {c d : Control}

theorem move_separator {s : Symbol} (separator : s ∈ separators) (fraction fraction' : Bool) :
    c.move (.symbol s) fraction' = c.move (.symbol .comma) fraction := by
  obtain ⟨phase, frames⟩ := c
  have choice : s = .comma ∨ s = .semicolon := by simpa [separators] using separator
  cases phase with
  | operand p | name p name | arguments p name reversed | primary p e =>
    rcases choice with rfl | rfl <;> rfl
  | rest rank e =>
    by_cases inside : rank < innermostRank frames
    · have none : Continuation.ofLexeme (rank + 1) (.symbol s) = .none := by
        rcases choice with rfl | rfl <;> simp [Continuation.ofLexeme, Operation.ofSymbol?]
      rw [move_rest inside, move_rest inside, none, continuation_comma]
    rw [move_end (Nat.not_lt.mp inside), move_end (Nat.not_lt.mp inside)]
    rcases frames with _ | ⟨_ | _ | _ | _, frames⟩ <;> rcases choice with rfl | rfl <;> rfl

end Control

/-- What a move reads of a token: all of it, or the comma alone with which it begins. -/
def Move.consumed (t : Token) : Move → List Token
  | read _ => [t]
  | split _ => [⟨.symbol .comma, t.position, 1⟩]
  | _ => []

/-- What the step from a state reads. -/
def State.consumed (preferDecimal : Bool) (text : String) (s : State) : List Token :=
  (s.control.move (Token.scan preferDecimal text s.position).lexeme
    (cursorAt preferDecimal text s.position).isCommaFraction).consumed
      (Token.scan preferDecimal text s.position)

/-- What the automaton reads on its way from a state to another. -/
inductive Consumes (nesting : Nat) (preferDecimal : Bool) (text : String) : State → List Token → State → Prop
  | refl (s : State) : Consumes nesting preferDecimal text s [] s
  | next {s s' e : State} {ts : List Token} (stepped : s.step nesting preferDecimal text = .goes s')
      (rest : Consumes nesting preferDecimal text s' ts e) :
      Consumes nesting preferDecimal text s (s.consumed preferDecimal text ++ ts) e

/-- The tokens that the parser reads of a text that it accepts. -/
def Consumed (nesting : Nat) (preferDecimal : Bool) (text : String) (ts : List Token) : Prop :=
  ∃ s e, Consumes nesting preferDecimal text ⟨.start, 0⟩ ts s ∧ s.step nesting preferDecimal text = .accepts e

variable {nesting : Nat} {preferDecimal : Bool} {text text' : String} {s s' e : State} {ts us : List Token}

def State.tokens? (nesting : Nat) (preferDecimal : Bool) (text : String) : Nat → State → Option (List Token)
  | 0, _ => none
  | n + 1, s =>
    match s.step nesting preferDecimal text with
    | .goes s' => (tokens? nesting preferDecimal text n s').map (s.consumed preferDecimal text ++ ·)
    | .accepts _ => some []
    | .fails _ => none

theorem State.consumes_of_tokens {n : Nat} (tokens : s.tokens? nesting preferDecimal text n = some ts) :
    ∃ s' e, Consumes nesting preferDecimal text s ts s' ∧
      s'.step nesting preferDecimal text = .accepts e := by
  induction n generalizing s ts with
  | zero => cases tokens
  | succ n ih =>
    rw [State.tokens?] at tokens
    split at tokens
    · rename_i next stepped
      obtain ⟨us, others, rfl⟩ := Option.map_eq_some_iff.mp tokens
      obtain ⟨s', e, consumes, accepts⟩ := ih others
      exact ⟨s', e, .next stepped consumes, accepts⟩
    · rename_i e accepts
      cases tokens
      exact ⟨s, e, .refl s, accepts⟩
    · cases tokens

theorem Runs.consumes (runs : Runs nesting preferDecimal text s e) :
    ∃ ts, Consumes nesting preferDecimal text s ts e := by
  induction runs with
  | refl s => exact ⟨[], .refl s⟩
  | next stepped _ ih =>
    obtain ⟨ts, consumes⟩ := ih
    exact ⟨_, .next stepped consumes⟩

theorem Consumes.runs (consumes : Consumes nesting preferDecimal text s ts e) :
    Runs nesting preferDecimal text s e := by
  induction consumes with
  | refl s => exact .refl s
  | next stepped _ ih => exact .next stepped ih

theorem Consumes.unique (first : Consumes nesting preferDecimal text s ts e)
    (final : Final nesting preferDecimal text e) (second : Consumes nesting preferDecimal text s us s')
    (final' : Final nesting preferDecimal text s') : ts = us := by
  induction first generalizing us with
  | refl s =>
    cases second with
    | refl => rfl
    | next stepped => exact absurd stepped (final _)
  | next stepped _ ih =>
    cases second with
    | refl => exact absurd stepped (final' _)
    | next stepped' rest' =>
      cases stepped.symm.trans stepped'
      rw [ih final rest']

theorem consumed_cases (stepped : s.step nesting preferDecimal text = .goes s') :
    let t := Token.scan preferDecimal text s.position
    let moves := s.control.move t.lexeme (cursorAt preferDecimal text s.position).isCommaFraction
    Readable preferDecimal text s.position ∧ depth s.control.frames ≤ nesting ∧
      ((moves = .read s'.control ∧ s.consumed preferDecimal text = [t] ∧ s'.position = t.stop) ∨
        (moves = .split s'.control ∧
          s.consumed preferDecimal text = [⟨.symbol .comma, t.position, 1⟩] ∧
          s'.position = t.position + 1) ∨
        (moves = .stay s'.control ∧ s.consumed preferDecimal text = [] ∧ s'.position = s.position)) := by
  intro t moves
  obtain ⟨readable, within⟩ := of_goes stepped
  have stepped := outcome_of_goes stepped
  refine ⟨readable, within, ?_⟩
  unfold State.consumed
  generalize same : s.control.move (Token.scan preferDecimal text s.position).lexeme
    (cursorAt preferDecimal text s.position).isCommaFraction = m at stepped
  cases m with
  | read d =>
    cases stepped
    exact .inl ⟨same, rfl, rfl⟩
  | split d =>
    cases stepped
    exact .inr (.inl ⟨same, rfl, rfl⟩)
  | stay d =>
    cases stepped
    exact .inr (.inr ⟨same, rfl, rfl⟩)
  | accept e => cases stepped
  | fail fault => cases stepped

theorem Consumes.reads (consumes : Consumes nesting preferDecimal text s ts e) :
    Reads preferDecimal text s.position ts e.position := by
  induction consumes with
  | refl s => exact .done _
  | next stepped _ ih =>
    obtain ⟨readable, -, ⟨moves, consumed, there⟩ | ⟨moves, consumed, there⟩ | ⟨-, consumed, there⟩⟩ :=
      consumed_cases stepped
    · rw [consumed]
      rw [there] at ih
      exact .token rfl (Control.more_of_read moves) readable ih
    · rw [consumed]
      rw [there] at ih
      have fraction := (@Control.comma_of_split _ _ _ _ false moves).1
      exact .comma rfl ((isCommaFraction_cursorAt _).mp fraction) ih
    · rw [consumed]
      rw [there] at ih
      exact ih

variable {c d : Control} {p p' : Nat} {x : Expr}

theorem looks_fraction (same : Looks preferDecimal text text' p p') :
    (cursorAt preferDecimal text' p').isCommaFraction = (cursorAt preferDecimal text p).isCommaFraction := by
  rw [Bool.eq_iff_iff, isCommaFraction_cursorAt, isCommaFraction_cursorAt]
  exact same.2

theorem step_of_looks (same : Looks preferDecimal text text' p p')
    (readable : Readable preferDecimal text p) (within : depth c.frames ≤ nesting) :
    (⟨c, p'⟩ : State).step nesting preferDecimal text' =
      (c.move (Token.scan preferDecimal text p).lexeme
        (cursorAt preferDecimal text p).isCommaFraction).outcome preferDecimal text' p' := by
  have readable' : Readable preferDecimal text' p' := by
    rw [Readable, same.1]
    exact readable
  rw [step_of_readable readable' within, same.1, looks_fraction same]

theorem step_of_separator {s : Symbol} (separator : s ∈ separators)
    (shown : (Token.scan preferDecimal text' p').lexeme = .symbol s)
    (within : depth c.frames ≤ nesting) (fraction : Bool) :
    (⟨c, p'⟩ : State).step nesting preferDecimal text' =
      (c.move (.symbol .comma) fraction).outcome preferDecimal text' p' := by
  have readable' : Readable preferDecimal text' p' := by
    rw [Readable, shown]
    rfl
  rw [step_of_readable readable' within, shown, Control.move_separator separator fraction]

theorem looks_of_eof (ends : (Token.scan preferDecimal text p).lexeme = .eof)
    (ends' : (Token.scan preferDecimal text' p').lexeme = .eof) : Looks preferDecimal text text' p p' := by
  refine ⟨ends'.trans ends.symm, ?_⟩
  rw [CommaFraction, CommaFraction, ends, ends']
  constructor <;> rintro ⟨⟨v, ⟨⟩⟩, -⟩

theorem stay_alike (alike : Alike preferDecimal text text' p ts p')
    (readable : Readable preferDecimal text p) (within : depth c.frames ≤ nesting)
    (moves : c.move (Token.scan preferDecimal text p).lexeme
      (cursorAt preferDecimal text p).isCommaFraction = .stay d) :
    (⟨c, p'⟩ : State).step nesting preferDecimal text' = .goes ⟨d, p'⟩ := by
  have stays (same : Looks preferDecimal text text' p p') :
      (⟨c, p'⟩ : State).step nesting preferDecimal text' = .goes ⟨d, p'⟩ := by
    rw [step_of_looks same readable within, moves]
    rfl
  cases alike with
  | done ends ends' => exact stays (looks_of_eof ends ends')
  | token same | comma same => exact stays same
  | separator symbol shown separator shown' =>
    rw [step_of_separator separator shown' within (cursorAt preferDecimal text p).isCommaFraction]
    rcases shown with scanned | fraction
    · rw [scanned, symbol] at moves
      rw [moves]
      rfl
    · obtain ⟨v, number⟩ := fraction.1
      rw [number, (isCommaFraction_cursorAt p).mpr fraction] at moves
      rw [Control.comma_of_stay moves]
      rfl

/-- A step in one layout is a step in the other, and what is behind it is read alike. -/
theorem step_alike (stepped : s.step nesting preferDecimal text = .goes s')
    (alike : Alike preferDecimal text text' s.position (s.consumed preferDecimal text ++ ts) p') :
    ∃ p'', (⟨s.control, p'⟩ : State).step nesting preferDecimal text' = .goes ⟨s'.control, p''⟩ ∧
      Alike preferDecimal text text' s'.position ts p'' := by
  obtain ⟨readable, within,
      ⟨moves, consumed, there⟩ | ⟨moves, consumed, there⟩ | ⟨moves, consumed, there⟩⟩ :=
    consumed_cases stepped
  · rw [consumed] at alike
    rw [there]
    cases alike with
    | token same _ rest =>
      refine ⟨_, ?_, rest⟩
      rw [step_of_looks same readable within, moves]
      rfl
    | comma same symbol fraction =>
      obtain ⟨v, number⟩ := fraction.1
      cases symbol.symm.trans number
    | separator symbol _ separator shown' rest =>
      refine ⟨_, ?_, rest⟩
      rw [symbol] at moves
      rw [step_of_separator separator shown' within, moves]
      rfl
  · rw [consumed] at alike
    rw [there]
    obtain ⟨isFraction, separates⟩ := @Control.comma_of_split _ _ _ _ false moves
    obtain ⟨⟨v, number⟩, -⟩ := (isCommaFraction_cursorAt _).mp isFraction
    cases alike with
    | token same scanned =>
      rw [scanned] at number
      cases number
    | comma same _ _ rest =>
      refine ⟨_, ?_, rest⟩
      rw [step_of_looks same readable within, moves]
      rfl
    | separator _ _ separator shown' rest =>
      refine ⟨_, ?_, rest⟩
      rw [step_of_separator separator shown' within false, separates]
      rfl
  · rw [consumed] at alike
    rw [there]
    exact ⟨p', stay_alike alike readable within moves, alike⟩

theorem accepts_alike (accepts : s.step nesting preferDecimal text = .accepts x)
    (ends' : (Token.scan preferDecimal text' p').lexeme = .eof) :
    (⟨s.control, p'⟩ : State).step nesting preferDecimal text' = .accepts x := by
  obtain ⟨ends, rank, -, same⟩ := of_accepts accepts
  have readable : Readable preferDecimal text s.position := by
    rw [Readable, ends]
    rfl
  have within : depth s.control.frames ≤ nesting := by
    rw [same]
    exact Nat.zero_le _
  rw [step_of_readable readable within] at accepts
  rw [step_of_looks (looks_of_eof ends ends') readable within]
  generalize s.control.move (Token.scan preferDecimal text s.position).lexeme
    (cursorAt preferDecimal text s.position).isCommaFraction = m at accepts
  cases m <;> cases accepts
  rfl

/-- In a text that is read alike the automaton accepts the same expression. -/
theorem Consumes.alike (consumes : Consumes nesting preferDecimal text s ts e)
    (accepts : e.step nesting preferDecimal text = .accepts x)
    (alike : Alike preferDecimal text text' s.position ts p') :
    ∃ e', Runs nesting preferDecimal text' ⟨s.control, p'⟩ e' ∧
      e'.step nesting preferDecimal text' = .accepts x := by
  induction consumes generalizing p' with
  | refl s =>
    cases alike with
    | done _ ends' => exact ⟨_, .refl _, accepts_alike accepts ends'⟩
  | next stepped _ ih =>
    obtain ⟨p'', stepped', rest⟩ := step_alike stepped alike
    obtain ⟨e', runs, accepts'⟩ := ih accepts rest
    exact ⟨e', .next stepped' runs, accepts'⟩

theorem Consumed.spells (consumed : Consumed nesting preferDecimal text ts) :
    Spells preferDecimal text ts := by
  obtain ⟨s, e, consumes, accepts⟩ := consumed
  exact ⟨_, consumes.reads, (of_accepts accepts).1⟩

theorem consumed_of_parsed (parsed : Expr.ofText preferDecimal text nesting = .ok x) :
    ∃! ts, Consumed nesting preferDecimal text ts := by
  obtain ⟨s, runs, accepts⟩ := ofText_eq_ok_iff.mp parsed
  obtain ⟨ts, consumes⟩ := runs.consumes
  refine ⟨ts, ⟨s, x, consumes, accepts⟩, fun us ⟨s', x', consumes', accepts'⟩ => ?_⟩
  exact consumes'.unique (final_of_accepts accepts') consumes (final_of_accepts accepts)

theorem ofText_of_relaid (parsed : Expr.ofText preferDecimal text nesting = .ok x)
    (consumed : Consumed nesting preferDecimal text ts) (relaid : Relaid 0 ts text.toList text'.toList) :
    Expr.ofText preferDecimal text' nesting = .ok x := by
  obtain ⟨s, e, consumes, accepts⟩ := consumed
  obtain rfl : x = e := Except.ok.inj (parsed.symm.trans (ofText_eq_ok_iff.mpr ⟨s, consumes.runs, accepts⟩))
  exact ofText_eq_ok_iff.mpr
    (consumes.alike accepts (alike_of_relaid consumes.reads ((of_accepts accepts).1) relaid))

/-- A text that compiles has the same program if white space is put in where a token of the parser begins
    or ends, if a comma that separates arguments becomes a semicolon, and in any other layout of these
    tokens. A comma is a token of its own also where the text has a comma fraction and an argument is
    complete. -/
theorem compile_ignores_layout {p : Program}
    (compiled : (Formula.compile preferDecimal text nesting).outcome = .ok p) :
    (∃! ts, Consumed nesting preferDecimal text ts) ∧ ∀ ts, Consumed nesting preferDecimal text ts →
      Spells preferDecimal text ts ∧
      (∀ t ∈ ts, ∀ w : String, (∀ c ∈ w.toList, isSpace c = true) → ∀ i, i = t.position ∨ i = t.stop →
        (Formula.compile preferDecimal (widened text w i) nesting).outcome = .ok p) ∧
      (∀ t ∈ ts, t.lexeme = .symbol .comma → text.toList[t.position]? = some ',' ∧
        (Formula.compile preferDecimal (withSemicolon text t.position) nesting).outcome = .ok p) ∧
      ∀ text' : String, Relaid 0 ts text.toList text'.toList →
        (Formula.compile preferDecimal text' nesting).outcome = .ok p := by
  obtain ⟨e, parsed, rfl⟩ := Formula.program_of_compile compiled
  refine ⟨consumed_of_parsed parsed, fun ts consumed => ?_⟩
  have spells := consumed.spells
  have relays (text' : String) (relaid : Relaid 0 ts text.toList text'.toList) :
      (Formula.compile preferDecimal text' nesting).outcome = .ok e.program :=
    Formula.compile_of_parsed (ofText_of_relaid parsed consumed relaid)
  refine ⟨spells, fun t member w blank i place => ?_, fun t member comma => ?_, relays⟩
  · exact relays _ (relaid_widened spells member blank place)
  · obtain ⟨there, relaid⟩ := relaid_withSemicolon spells member comma
    exact ⟨there, relays _ relaid⟩

theorem compile_ignores_layout_of_fraction :
    let p : Program := ⟨[.pushVariable "a", .pushConstant (.integer 2), .call "f" 2], 2⟩
    (Formula.compile true "f(a,2)").outcome = .ok p ∧ (Formula.compile true "f(a, 2)").outcome = .ok p ∧
      (Formula.compile true "f(a;2)").outcome = .ok p := by
  intro p
  have tokens : State.tokens? usualNesting true "f(a,2)" 40 ⟨.start, 0⟩ = some [⟨.identifier "f", 0, 1⟩,
      ⟨.symbol .bracketOpen, 1, 1⟩, ⟨.identifier "a", 2, 1⟩, ⟨.symbol .comma, 3, 1⟩,
      ⟨.number (.integer 2), 4, 1⟩, ⟨.symbol .bracketClose, 5, 1⟩] := by decide +kernel
  have consumed : Consumed usualNesting true "f(a,2)" _ := State.consumes_of_tokens tokens
  have parsed : Expr.ofText true "f(a,2)" = .ok (.call "f" [.read "a", .constant (.integer 2)]) := by cbv
  have compiled : (Formula.compile true "f(a,2)").outcome = .ok p := Formula.compile_of_parsed parsed
  obtain ⟨-, same⟩ := compile_ignores_layout compiled
  obtain ⟨-, spaced, separated, -⟩ := same _ consumed
  exact ⟨compiled, spaced ⟨.symbol .comma, 3, 1⟩ (by simp) " " (by simp [isSpace]) 4 (.inr rfl),
    (separated ⟨.symbol .comma, 3, 1⟩ (by simp) rfl).2⟩

end Reckoner.Pushdown
