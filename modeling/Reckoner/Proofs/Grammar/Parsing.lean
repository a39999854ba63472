import Mathlib
import Reckoner.Proofs.Evaluation.Compiled
import Reckoner.Proofs.Grammar.Derivation
import Reckoner.Proofs.Postorder

namespace Reckoner

namespace Grammar

variable {preferDecimal : Bool} {text : String}

theorem signs_completes {ps : List Symbol} {ts : List Token} {delete : Bool} {frames : List Frame}
    {p q : Nat} (run : ∀ s ∈ ps, s ∈ signs) (spelled : ts.map Token.lexeme = ps.map Lexeme.symbol)
    (read : Reads preferDecimal text p ts q)
    (rest : Completes preferDecimal text (.operand (delete ^^ odd .hash ps)) frames q) :
    Completes preferDecimal text (.operand delete) frames p := by
  induction ps generalizing ts delete p with
  | nil =>
    obtain rfl := List.map_eq_nil_iff.mp spelled
    cases read with
    | done => simpa [odd] using rest
  | cons s ps ih =>
    cases ts with
    | nil => cases spelled
    | cons t ts =>
      have lexeme : t.lexeme = .symbol s := (List.cons.inj spelled).1
      have sign : s ∈ signs := run s (List.mem_cons_self ..)
      have other : t.lexeme ≠ .symbol .comma := by
        rw [lexeme]
        intro comma
        cases comma
        simp [signs] at sign
      obtain ⟨rfl, read'⟩ := read.uncons other
      refine .sign lexeme sign (ih (fun s' member => run s' (List.mem_cons_of_mem _ member))
        (List.cons.inj spelled).2 read' ?_)
      rw [odd_cons] at rest
      by_cases hash : s = .hash
      · simpa [hash] using rest
      · rw [beq_false_of_ne hash]
        simpa [hash] using rest

mutual

theorem Phrase.completes {rank p q : Nat} {ts : List Token} {e : Expr} {frames : List Frame} :
    Phrase text rank ts e → Reads preferDecimal text p ts q →
      Completes preferDecimal text (.rest false) frames q →
      Completes preferDecimal text (.operand false) frames p
  | .operand run spelled body, whole, rest => by
    obtain ⟨q₁, signs, read⟩ := whole.split
    refine signs_completes run spelled signs ?_
    rw [Bool.false_xor]
    exact body.completes read (rest.remark (.inl rfl))
  | .marked run spelled body factorial, whole, rest => by
    obtain ⟨q₂, before, last⟩ := whole.split
    obtain ⟨q₁, signs, read⟩ := before.split
    obtain ⟨rfl, done⟩ := last.uncons (by simp [factorial])
    cases done
    refine signs_completes run spelled signs ?_
    rw [Bool.false_xor]
    exact body.completes read (.mark factorial rest)
  | .single inner, whole, rest => inner.completes whole rest
  | .binary first symbol operator second, whole, rest => by
    obtain ⟨q₁, read, after⟩ := whole.split
    obtain ⟨rfl, read'⟩ := after.uncons fun comma => by
      cases symbol.symm.trans comma
      exact absurd (by simp [separators]) (Completes.operator_other operator).2
    exact first.completes read (.operator symbol operator (second.completes read' rest))
  | .product first name second, whole, rest => by
    obtain ⟨q₁, read, read'⟩ := whole.split
    obtain ⟨t, name, begins, identifier⟩ := name
    obtain rfl := Option.some.inj (begins.symm.trans (read'.head second.head))
    exact first.completes read (.factor identifier (second.completes read' rest))
termination_by structural phrase => phrase

theorem Primary.completes {delete : Bool} {p q : Nat} {ts : List Token} {e : Expr}
    {frames : List Frame} :
    Primary text delete ts e → Reads preferDecimal text p ts q →
      Completes preferDecimal text (.rest true) frames q →
      Completes preferDecimal text (.operand delete) frames p
  | .bracket opens inner closes, whole, rest => by
    obtain ⟨q₂, before, last⟩ := whole.split
    obtain ⟨rfl, done⟩ := last.uncons (by simp [closes])
    cases done
    obtain ⟨rfl, read⟩ := before.uncons (by simp [opens])
    exact .bracket opens (inner.completes read (.closed closes rest))
  | .number number, whole, rest => by
    obtain ⟨rfl, done⟩ := whole.uncons (by simp [number])
    cases done
    exact .number number rest
  | .read identifier, whole, rest => by
    obtain ⟨rfl, done⟩ := whole.uncons (by simp [identifier])
    cases done
    exact .name identifier (.read rest)
  | .remove identifier, whole, rest => by
    obtain ⟨rfl, done⟩ := whole.uncons (by simp [identifier])
    cases done
    exact .remove identifier rest
  | .assign identifier equals value, whole, rest => by
    obtain ⟨rfl, after⟩ := whole.uncons (by simp [identifier])
    obtain ⟨rfl, read⟩ := after.uncons (by simp [equals])
    exact .name identifier (.assign equals (value.completes read (.assigned rest)))
  | .call identifier opens args, whole, rest => by
    obtain ⟨rfl, after⟩ := whole.uncons (by simp [identifier])
    obtain ⟨rfl, read⟩ := after.uncons (by simp [opens])
    exact .name identifier (.call opens (args.completes read rest))
termination_by structural primary => primary

theorem Arguments.completes {p q : Nat} {ts : List Token} {es : List Expr} {frames : List Frame} :
    Arguments text ts es → Reads preferDecimal text p ts q →
      Completes preferDecimal text (.rest true) frames q →
      Completes preferDecimal text .arguments frames p
  | .close closes, whole, rest => by
    obtain ⟨rfl, done⟩ := whole.uncons (by simp [closes])
    cases done
    exact .close closes rest
  | .separated first symbol separator args, whole, rest => by
    obtain ⟨q₁, read, between⟩ := whole.split
    cases between with
    | token scanned _ _ read' =>
      subst scanned
      exact .argument (first.completes read (.next (.separator symbol separator)
        (args.completes read' rest)))
    | comma scanned fraction read' =>
      subst scanned
      exact .argument (first.completes read (.next (.comma fraction) (args.completes read' rest)))
  | .adjacent first apart args, whole, rest => by
    obtain ⟨q₁, read, read'⟩ := whole.split
    have apart := apart _ (read'.head args.head)
    exact .argument (first.completes read (.next (.none apart) (args.completes read' rest)))
termination_by structural args => args

end

def Stops (preferDecimal : Bool) (text : String) (rank p : Nat) : Prop :=
  ∀ r ≤ rank, Continuation.ofLexeme r (Token.scan preferDecimal text p).lexeme = .none

theorem ends_of_stops {frames : List Frame} {p : Nat}
    (completes : Completes preferDecimal text (.rest false) frames p)
    (stops : Stops preferDecimal text 5 p) : Ends preferDecimal text frames p := by
  cases completes with
  | @operator _ _ _ rank s op symbol operator _ =>
    have none := stops rank (rank_le_of_operator operator)
    have known := (ofSymbol?_eq_some_iff rank s op).mpr operator
    simp [symbol, Continuation.ofLexeme, known] at none
  | factor identifier _ =>
    have none := stops 2 (by omega)
    simp [identifier, Continuation.ofLexeme] at none
  | finish ends => exact ends
  | assigned rest => exact rest
  | closed closes rest => exact ⟨closes, rest⟩
  | next gap rest => exact ⟨_, gap, rest⟩

theorem add?_eq_none {r : Prefixes} {l : Lexeme} (none : r.add? l = none) :
    ∀ s ∈ signs, l ≠ .symbol s := by
  rintro s sign rfl
  simp only [signs, List.mem_cons, List.not_mem_nil, or_false] at sign
  rcases sign with rfl | rfl | rfl | rfl <;> simp [Prefixes.add?] at none

theorem add?_eq_some {r r' : Prefixes} {l : Lexeme} (added : r.add? l = some r') :
    ∃ s ∈ signs, l = .symbol s ∧ r'.delete = (r.delete ^^ s == .hash) := by
  unfold Prefixes.add? at added
  split at added <;> cases added
  · exact ⟨.plus, by simp [signs], rfl, (Bool.xor_false _).symm⟩
  · exact ⟨.minus, by simp [signs], rfl, (Bool.xor_false _).symm⟩
  · exact ⟨.bitNot, by simp [signs], rfl, (Bool.xor_false _).symm⟩
  · exact ⟨.hash, by simp [signs], rfl, (Bool.xor_true _).symm⟩

theorem gap_at {p q : Nat} (gap : Gap preferDecimal text p q)
    {frames : List Frame} (rest : Completes preferDecimal text .arguments frames q) :
    q = if (Token.scan preferDecimal text p).lexeme.isSeparator then (Token.scan preferDecimal text p).stop
      else if (cursorAt preferDecimal text p).isCommaFraction then
        (Token.scan preferDecimal text p).position + 1
      else p := by
  cases gap with
  | separator symbol separator => exact (if_pos ((isSeparator_iff _).mpr ⟨_, separator, symbol⟩)).symm
  | comma fraction =>
    obtain ⟨v, number⟩ := fraction.1
    rw [if_neg (by simp [number, Lexeme.isSeparator]), if_pos ((isCommaFraction_cursorAt p).mpr fraction)]
  | none apart =>
    have noSeparator : (Token.scan preferDecimal text p).lexeme.isSeparator ≠ true := by
      intro separates
      obtain ⟨s, separator, symbol⟩ := (isSeparator_iff _).mp separates
      cases rest with
      | argument rest =>
        rcases Completes.operand_symbol symbol rest with ⟨sign, _⟩ | ⟨rfl, _⟩
        · simp only [separators, List.mem_cons, List.not_mem_nil, or_false] at separator
          rcases separator with rfl | rfl <;> simp [signs] at sign
        · simp [separators] at separator
      | close closes =>
        cases symbol.symm.trans closes
        simp [separators] at separator
    rw [if_neg noSeparator, if_neg (mt (isCommaFraction_cursorAt p).mp apart)]

end Grammar

namespace Pushdown

open Grammar

def outline : List Frame → List Grammar.Frame
  | [] => []
  | .left .. :: frames => outline frames
  | .bracket _ :: frames => .bracket :: outline frames
  | .assignment .. :: frames => .assignment :: outline frames
  | .argument .. :: frames => .argument :: outline frames

def State.Viable (preferDecimal : Bool) (text : String) (s : State) : Prop :=
  match s.control.phase with
  | .operand r => Grammar.Completes preferDecimal text (.operand r.delete) (outline s.control.frames) s.position
  | .name .. => Grammar.Completes preferDecimal text .name (outline s.control.frames) s.position
  | .arguments .. => Grammar.Completes preferDecimal text .arguments (outline s.control.frames) s.position
  | .primary .. => Grammar.Completes preferDecimal text (.rest true) (outline s.control.frames) s.position
  | .rest rank _ => Grammar.Completes preferDecimal text (.rest false) (outline s.control.frames) s.position ∧
      Stops preferDecimal text rank s.position

def Outcome.Viable (preferDecimal : Bool) (text : String) : Outcome → Prop
  | goes s => s.Viable preferDecimal text
  | accepts _ => True
  | fails fault => ∃ c, fault = Expr.tooDeep c

variable {nesting : Nat} {preferDecimal : Bool} {text : String} {s s' : State} {frames : List Frame}
  {r : Prefixes} {name : String} {reversed : List Expr} {rank p : Nat} {e : Expr}

theorem viable_operand
    (completes : Grammar.Completes preferDecimal text (.operand r.delete) (outline frames) p) :
    ((Control.operandMove r frames (Token.scan preferDecimal text p).lexeme).outcome
      preferDecimal text p).Viable preferDecimal text := by
  unfold Control.operandMove
  split
  · rename_i r' added
    obtain ⟨s, sign, symbol, toggled⟩ := add?_eq_some added
    show Grammar.Completes preferDecimal text (.operand r'.delete) (outline frames) _
    rw [toggled]
    generalize r.delete = delete at completes
    cases completes with
    | sign symbol' _ rest =>
      cases symbol.symm.trans symbol'
      exact rest
    | number number => simp [symbol] at number
    | bracket opens =>
      cases symbol.symm.trans opens
      simp [signs] at sign
    | remove identifier | name identifier => simp [symbol] at identifier
  rename_i unsigned
  have unsigned := add?_eq_none unsigned
  generalize delete : r.delete = deleted at completes
  cases completes with
  | sign symbol sign => exact absurd symbol (unsigned _ sign)
  | number number rest =>
    rw [number, if_neg (by simp)]
    exact rest
  | bracket opens rest =>
    rw [opens, if_neg (by simp)]
    exact rest
  | remove identifier rest =>
    rw [identifier, if_neg (by simp [Lexeme.isIdentifier]), Control.primaryMove, if_pos delete]
    exact rest
  | name identifier rest =>
    rw [identifier, if_neg (by simp), Control.primaryMove, if_neg (by simp [delete])]
    exact rest

theorem viable_name (completes : Grammar.Completes preferDecimal text .name (outline frames) p) :
    ((Control.nameMove r name frames (Token.scan preferDecimal text p).lexeme).outcome
      preferDecimal text p).Viable preferDecimal text := by
  unfold Control.nameMove
  split
  · rename_i equals
    cases completes with
    | read rest => exact (rest.no_equals equals).elim
    | call opens => simp [equals] at opens
    | assign _ rest => exact rest
  · rename_i opens
    cases completes with
    | read rest => exact .argument (rest.take_call opens)
    | assign equals => simp [opens] at equals
    | call _ rest => exact rest
  · rename_i noEqual noBracket
    cases completes with
    | read rest => exact rest
    | assign equals => exact absurd equals noEqual
    | call opens => exact absurd opens noBracket

theorem viable_arguments (completes : Grammar.Completes preferDecimal text .arguments (outline frames) p) :
    ((Control.argumentsMove r name reversed frames (Token.scan preferDecimal text p).lexeme).outcome
      preferDecimal text p).Viable preferDecimal text := by
  unfold Control.argumentsMove
  cases completes with
  | close closes rest =>
    rw [if_pos closes]
    exact rest
  | argument rest =>
    have noClose : (Token.scan preferDecimal text p).lexeme ≠ .symbol .bracketClose := by
      intro closes
      rcases Grammar.Completes.operand_symbol closes rest with ⟨sign, _⟩ | ⟨other, _⟩
      · simp [signs] at sign
      · cases other
    rw [if_neg noClose, if_neg rest.operand_more]
    exact rest

theorem viable_primary (completes : Grammar.Completes preferDecimal text (.rest true) (outline frames) p) :
    ((Control.factorialMove r e frames (Token.scan preferDecimal text p).lexeme).outcome
      preferDecimal text p).Viable preferDecimal text := by
  have stops (q : Nat) : Stops preferDecimal text 0 q := by
    intro k zero
    obtain rfl := Nat.le_zero.mp zero
    unfold Continuation.ofLexeme
    split <;> simp [Operation.ofSymbol?]
  unfold Control.factorialMove
  split
  · rename_i factorial
    exact ⟨completes.take_mark factorial, stops _⟩
  · rename_i other
    exact ⟨completes.remark (.inr other), stops p⟩

theorem viable_continued (inside : rank < innermostRank frames)
    (completes : Grammar.Completes preferDecimal text (.rest false) (outline frames) p)
    (stops : Stops preferDecimal text rank p) :
    (((⟨.rest rank e, frames⟩ : Control).move (Token.scan preferDecimal text p).lexeme
      (cursorAt preferDecimal text p).isCommaFraction).outcome preferDecimal text p).Viable
        preferDecimal text := by
  rw [Control.move_rest inside]
  split
  · rename_i none
    refine ⟨completes, fun r bounded => ?_⟩
    rcases Nat.le_or_eq_of_le_succ bounded with below | rfl
    · exact stops r below
    · exact none
  · rename_i op found
    obtain ⟨s, symbol, operator⟩ := ofLexeme_operator found
    exact completes.take_operator symbol operator
  · rename_i found
    obtain ⟨-, name, identifier⟩ := ofLexeme_factor found
    exact completes.take_factor identifier

theorem viable_end (complete : innermostRank frames ≤ rank)
    (completes : Grammar.Completes preferDecimal text (.rest false) (outline frames) p)
    (stops : Stops preferDecimal text rank p) :
    ((Control.endMove e (Token.scan preferDecimal text p).lexeme
      (cursorAt preferDecimal text p).isCommaFraction frames).outcome preferDecimal text p).Viable
        preferDecimal text := by
  have weaken {k : Nat} (less : k ≤ rank) : Stops preferDecimal text k p :=
    fun r bounded => stops r (Nat.le_trans bounded less)
  rcases frames with _ | ⟨⟨k, op, left⟩ | ⟨r⟩ | ⟨r, name⟩ | ⟨r, name, reversed⟩, frames⟩
  · have ends : (Token.scan preferDecimal text p).lexeme = .eof :=
      ends_of_stops completes (weaken complete)
    simp only [Control.endMove]
    rw [if_pos ends]
    trivial
  · exact ⟨completes, weaken complete⟩
  · obtain ⟨closes, rest⟩ := ends_of_stops completes (weaken complete)
    simp only [Control.endMove]
    rw [if_pos closes]
    exact rest
  · exact ends_of_stops completes (weaken complete)
  · obtain ⟨q, gap, rest⟩ := ends_of_stops completes (weaken complete)
    have there := gap_at gap rest
    simp only [Control.endMove]
    split
    · rename_i separates
      rw [there, if_pos separates] at rest
      exact rest
    rename_i noSeparator
    rw [there, if_neg noSeparator] at rest
    split
    · rename_i fraction
      rw [if_pos fraction] at rest
      exact rest
    · rename_i noFraction
      rw [if_neg noFraction] at rest
      exact rest

theorem State.Viable.readable (viable : s.Viable preferDecimal text) :
    Readable preferDecimal text s.position := by
  obtain ⟨⟨phase, frames⟩, p⟩ := s
  cases phase with
  | operand | name | arguments | primary => exact Grammar.Completes.readable viable
  | rest => exact viable.1.readable

/-- A text that can be completed can still be completed behind every step. -/
theorem State.Viable.step (nesting : Nat) (viable : s.Viable preferDecimal text) :
    (s.step nesting preferDecimal text).Viable preferDecimal text := by
  have readable := viable.readable
  rcases Nat.lt_or_ge nesting (depth s.control.frames) with deep | within
  · rw [step_of_deep readable deep]
    exact ⟨_, rfl⟩
  rw [step_of_readable readable within]
  obtain ⟨⟨phase, frames⟩, p⟩ := s
  cases phase with
  | operand r => exact viable_operand viable
  | name r name => exact viable_name viable
  | arguments r name reversed => exact viable_arguments viable
  | primary r e => exact viable_primary viable
  | rest rank e =>
    obtain ⟨completes, stops⟩ := viable
    by_cases inside : rank < innermostRank frames
    · exact viable_continued inside completes stops
    · have complete := Nat.not_lt.mp inside
      dsimp only
      rw [Control.move_end complete]
      exact viable_end complete completes stops

end Pushdown

namespace Grammar

variable {preferDecimal : Bool} {text : String}

/-- Derived tokens that a text can be read as make the parser accept it, or stop at the nesting
    limit. -/
theorem ofText_of_derived (nesting : Nat) {ts : List Token} {e : Expr}
    (spells : Spells preferDecimal text ts) (phrase : Phrase text 5 ts e) :
    (∃ e, Expr.ofText preferDecimal text nesting = .ok e) ∨
      ∃ c, Expr.ofText preferDecimal text nesting = .error (Expr.tooDeep c) := by
  obtain ⟨q, read, finished⟩ := spells
  have viable : Pushdown.State.Viable preferDecimal text ⟨.start, 0⟩ :=
    phrase.completes read (.finish finished)
  cases parsed : Expr.ofText preferDecimal text nesting with
  | ok e => exact .inl ⟨e, rfl⟩
  | error fault =>
    obtain ⟨s, runs, fails⟩ := Pushdown.ofText_eq_error_iff.mp parsed
    have kept : s.Viable preferDecimal text := by
      refine runs.keeps (fun s s' stepped viable => ?_) viable
      have further := viable.step nesting
      rw [stepped] at further
      exact further
    have stopped := kept.step nesting
    rw [fails] at stopped
    obtain ⟨c, rfl⟩ := stopped
    exact .inr ⟨c, rfl⟩

/-- A text compiles to the postorder of a tree that the grammar derives from all its tokens, and a
    text with such a tree compiles unless it nests too deeply. -/
theorem compile_accepts_phrases (preferDecimal : Bool) (text : String) (nesting : Nat) :
    (∀ p, (Formula.compile preferDecimal text nesting).outcome = .ok p →
      ∃ ts e, Spells preferDecimal text ts ∧ Phrase text 5 ts e ∧ p.code = e.postorder) ∧
    ∀ ts e, Spells preferDecimal text ts → Phrase text 5 ts e →
      (∃ p, (Formula.compile preferDecimal text nesting).outcome = .ok p) ∨
        ∃ fault, (Formula.compile preferDecimal text nesting).outcome = .error fault ∧
          fault.fault = .tooDeeplyNested := by
  constructor
  · intro p compiled
    obtain ⟨e, parsed, rfl⟩ := Formula.program_of_compile compiled
    obtain ⟨ts, spells, phrase⟩ := derived_of_ofText parsed
    exact ⟨ts, e, spells, phrase, e.code_eq_postorder⟩
  · intro ts e spells phrase
    rcases ofText_of_derived nesting spells phrase with ⟨e', parsed⟩ | ⟨c, parsed⟩
    · exact .inl ⟨e'.program, Formula.compile_of_parsed parsed⟩
    · exact .inr ⟨Expr.tooDeep c, by rw [Formula.compile, parsed]; rfl, rfl⟩

theorem compile_accepts_comma_fraction :
    ∃ ts e, Spells true "f(a,5)" ts ∧ Phrase "f(a,5)" 5 ts e ∧
      e.postorder = [.pushVariable "a", .pushConstant (.integer 5), .call "f" 2] := by
  have parsed : Expr.ofText true "f(a,5)" =
      .ok (.call "f" [.read "a", .constant (.integer 5)]) := by cbv
  obtain ⟨ts, e, spells, phrase, same⟩ :=
    (compile_accepts_phrases true "f(a,5)" usualNesting).1 _ (Formula.compile_of_parsed parsed)
  exact ⟨ts, e, spells, phrase, same.symm⟩

end Grammar

end Reckoner
