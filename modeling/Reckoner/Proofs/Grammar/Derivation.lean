import Reckoner.Proofs.Grammar.Acceptance
import Reckoner.Proofs.Pushdown.Parser

namespace Reckoner

namespace Grammar

theorem odd_cons (s t : Symbol) (ps : List Symbol) :
    odd s (t :: ps) = if t = s then !odd s ps else odd s ps := by
  unfold odd
  rw [List.count_cons]
  by_cases same : t = s
  · subst same
    simp only [BEq.rfl, ite_true]
    by_cases h : ps.count t % 2 = 1
    · have : (ps.count t + 1) % 2 = 0 := by omega
      simp [h, this]
    · have : (ps.count t + 1) % 2 = 1 := by omega
      simp [h, this]
  · simp [same]

theorem odd_append (s t : Symbol) (ps : List Symbol) :
    odd s (ps ++ [t]) = if t = s then !odd s ps else odd s ps := by
  rw [← odd_cons]
  unfold odd
  rw [(List.perm_append_singleton t ps).count_eq]

def prefixesOf (ps : List Symbol) : Prefixes := ⟨odd .minus ps, odd .bitNot ps, odd .hash ps⟩

theorem add?_prefixesOf {ps : List Symbol} {l : Lexeme} {q : Prefixes}
    (added : (prefixesOf ps).add? l = some q) :
    ∃ s ∈ signs, l = .symbol s ∧ q = prefixesOf (ps ++ [s]) := by
  unfold Prefixes.add? at added
  split at added <;> cases added <;>
    exact ⟨_, by simp [signs], rfl, by simp [prefixesOf, odd_append]⟩

theorem isSeparator_iff (l : Lexeme) :
    l.isSeparator = true ↔ ∃ s ∈ separators, l = .symbol s := by
  unfold Lexeme.isSeparator
  split <;> simp_all [separators]

theorem ofLexeme_operator {rank : Nat} {l : Lexeme} {op : Operation}
    (found : Continuation.ofLexeme rank l = .operator op) :
    ∃ s, l = .symbol s ∧ (s, op) ∈ operators rank := by
  unfold Continuation.ofLexeme at found
  split at found
  · rename_i s
    split at found
    · rename_i op' known
      cases found
      exact ⟨s, rfl, (ofSymbol?_eq_some_iff rank s op).mp known⟩
    · cases found
  · split at found <;> cases found
  · cases found

theorem ofLexeme_factor {rank : Nat} {l : Lexeme}
    (found : Continuation.ofLexeme rank l = .factor) : rank = 2 ∧ ∃ name, l = .identifier name := by
  unfold Continuation.ofLexeme at found
  split at found
  · split at found <;> cases found
  · rename_i name
    split at found
    · exact ⟨by assumption, name, rfl⟩
    · cases found
  · cases found

theorem Phrase.loosen {text : String} {rank rank' : Nat} {ts : List Token} {e : Expr}
    (less : rank ≤ rank') (phrase : Phrase text rank ts e) : Phrase text rank' ts e := by
  induction less with
  | refl => exact phrase
  | step _ ih => exact .single ih

variable {preferDecimal : Bool} {text : String}

theorem head_not_fraction {p q : Nat} {ts : List Token} (read : Reads preferDecimal text p ts q)
    (apart : ¬ CommaFraction text (Token.scan preferDecimal text p)) :
    ∀ t ∈ ts.head?, ¬ CommaFraction text t := by
  cases read with
  | done => simp
  | token scanned => simpa [← scanned] using apart
  | comma => simp [CommaFraction]

theorem reads_token {p : Nat} (readable : Readable preferDecimal text p)
    (more : (Token.scan preferDecimal text p).lexeme ≠ .eof) :
    Reads preferDecimal text p [Token.scan preferDecimal text p]
      (Token.scan preferDecimal text p).stop :=
  .token rfl more readable (.done _)

theorem Gap.arguments {p q r : Nat} {ts us : List Token} {e : Expr} {es : List Expr}
    (gap : Gap preferDecimal text p q) (first : Phrase text 5 ts e)
    (read : Reads preferDecimal text q us r) (args : Arguments text us es) :
    ∃ vs, Reads preferDecimal text p vs r ∧ Arguments text (ts ++ vs) (e :: es) := by
  cases gap with
  | separator symbol separator =>
    exact ⟨_, .token rfl (by simp [symbol]) (by rw [symbol]; rfl) read,
      .separated first symbol separator args⟩
  | comma fraction =>
    exact ⟨_, .comma rfl fraction read, .separated first rfl (by simp [separators]) args⟩
  | none apart => exact ⟨_, read, .adjacent first (head_not_fraction read apart) args⟩

end Grammar

namespace Pushdown

open Grammar

section

variable (preferDecimal : Bool) (text : String)

def Signed (r : Prefixes) (p q : Nat) : Prop :=
  ∃ ps ts, Reads preferDecimal text p ts q ∧ (∀ s ∈ ps, s ∈ signs) ∧
    ts.map Token.lexeme = ps.map Lexeme.symbol ∧ r = prefixesOf ps

/-- Between two positions there is a name behind prefixes that do not delete it. -/
inductive Named (r : Prefixes) (name : String) (p : Nat) : Nat → Prop
  | intro {q : Nat} (signed : Signed preferDecimal text r p q) (kept : r.delete = false)
      (identifier : (Token.scan preferDecimal text q).lexeme = .identifier name) :
      Named r name p (Token.scan preferDecimal text q).stop

/-- The name is the one of a function, and the bracket before its arguments stands behind it. -/
inductive Calls (r : Prefixes) (name : String) (p : Nat) : Nat → Prop
  | intro {q : Nat} (named : Named preferDecimal text r name p q)
      (opens : (Token.scan preferDecimal text q).lexeme = .symbol .bracketOpen) :
      Calls r name p (Token.scan preferDecimal text q).stop

/-- Between two positions there are these arguments, the last one first, each with what separates it
    from the next one. -/
inductive Passed (p : Nat) : List Expr → Nat → Prop
  | none : Passed p [] p
  | argument {reversed : List Expr} {q q' q'' : Nat} {ts : List Token} {e : Expr}
      (before : Passed p reversed q) (read : Reads preferDecimal text q ts q')
      (phrase : Phrase text 5 ts e) (gap : Gap preferDecimal text q' q'') :
      Passed p (e :: reversed) q''

/-- Between two positions there is an operator of the rank above, or nothing before a factor. -/
inductive Joins : Nat → Operation → Nat → Nat → Prop
  | operator {rank p : Nat} {s : Symbol} {op : Operation}
      (symbol : (Token.scan preferDecimal text p).lexeme = .symbol s)
      (operator : (s, op) ∈ operators (rank + 1)) :
      Joins rank op p (Token.scan preferDecimal text p).stop
  | factor {p : Nat} {name : String}
      (identifier : (Token.scan preferDecimal text p).lexeme = .identifier name) :
      Joins 1 (.number .multiply) p p

/-- What the frames keep is derived from the tokens before a position. -/
inductive Opened : List Frame → Nat → Prop
  | start : Opened [] 0
  | left {frames : List Frame} {rank p q r : Nat} {op : Operation} {ts : List Token} {left : Expr}
      (outer : Opened frames p) (inside : rank < innermostRank frames)
      (read : Reads preferDecimal text p ts q) (first : Phrase text (rank + 1) ts left)
      (joins : Joins preferDecimal text rank op q r) : Opened (.left rank op left :: frames) r
  | bracket {frames : List Frame} {r : Prefixes} {p q : Nat} (outer : Opened frames p)
      (signed : Signed preferDecimal text r p q) (kept : r.delete = false)
      (opens : (Token.scan preferDecimal text q).lexeme = .symbol .bracketOpen) :
      Opened (.bracket r :: frames) (Token.scan preferDecimal text q).stop
  | assignment {frames : List Frame} {r : Prefixes} {name : String} {p q : Nat}
      (outer : Opened frames p) (named : Named preferDecimal text r name p q)
      (equals : (Token.scan preferDecimal text q).lexeme = .symbol .equal) :
      Opened (.assignment r name :: frames) (Token.scan preferDecimal text q).stop
  | argument {frames : List Frame} {r : Prefixes} {name : String} {reversed : List Expr}
      {p q q' : Nat} (outer : Opened frames p) (calls : Calls preferDecimal text r name p q)
      (passed : Passed preferDecimal text q reversed q') :
      Opened (.argument r name reversed :: frames) q'

/-- What the automaton has read derives what it keeps. An expression that may still be continued at the
    rank above counts as one of that rank. -/
inductive Derived : State → Prop
  | operand {frames : List Frame} {r : Prefixes} {p q : Nat}
      (opened : Opened preferDecimal text frames p) (signed : Signed preferDecimal text r p q) :
      Derived ⟨⟨.operand r, frames⟩, q⟩
  | name {frames : List Frame} {r : Prefixes} {name : String} {p q : Nat}
      (opened : Opened preferDecimal text frames p)
      (named : Named preferDecimal text r name p q) : Derived ⟨⟨.name r name, frames⟩, q⟩
  | arguments {frames : List Frame} {r : Prefixes} {name : String} {reversed : List Expr}
      {p q q' : Nat} (opened : Opened preferDecimal text frames p)
      (calls : Calls preferDecimal text r name p q)
      (passed : Passed preferDecimal text q reversed q') :
      Derived ⟨⟨.arguments r name reversed, frames⟩, q'⟩
  | primary {frames : List Frame} {r : Prefixes} {delete : Bool} {p q q' : Nat} {ts : List Token}
      {e : Expr} (opened : Opened preferDecimal text frames p)
      (signed : Signed preferDecimal text r p q) (same : r.delete = delete)
      (read : Reads preferDecimal text q ts q') (body : Primary text delete ts e) :
      Derived ⟨⟨.primary r e, frames⟩, q'⟩
  | rest {frames : List Frame} {rank p q : Nat} {ts : List Token} {e : Expr}
      (opened : Opened preferDecimal text frames p) (read : Reads preferDecimal text p ts q)
      (phrase : Phrase text (min (rank + 1) (innermostRank frames)) ts e) :
      Derived ⟨⟨.rest rank e, frames⟩, q⟩

end

variable {nesting : Nat} {preferDecimal : Bool} {text : String} {s s' : State} {frames : List Frame}
  {r r' : Prefixes} {name : String} {reversed : List Expr} {rank p q q' : Nat} {ts us : List Token}
  {e : Expr}

theorem Signed.none (p : Nat) : Signed preferDecimal text default p p :=
  ⟨[], [], .done p, List.forall_mem_nil _, rfl, rfl⟩

theorem Signed.add (signed : Signed preferDecimal text r p q)
    (readable : Readable preferDecimal text q)
    (added : r.add? (Token.scan preferDecimal text q).lexeme = some r') :
    Signed preferDecimal text r' p (Token.scan preferDecimal text q).stop := by
  obtain ⟨ps, ts, read, all, spelled, rfl⟩ := signed
  obtain ⟨s, sign, symbol, rfl⟩ := add?_prefixesOf added
  refine ⟨ps ++ [s], ts ++ [Token.scan preferDecimal text q],
    read.append (reads_token readable (by simp [symbol])), ?_, by simp [spelled, symbol], rfl⟩
  intro s' member
  rcases List.mem_append.mp member with earlier | last
  · exact all s' earlier
  · exact List.mem_singleton.mp last ▸ sign

theorem Signed.phrase (signed : Signed preferDecimal text r p q)
    (read : Reads preferDecimal text q us q') (body : Primary text r.delete us e) :
    (∃ ts, Reads preferDecimal text p ts q' ∧ Phrase text 0 ts (r.wrap e)) ∧
      ((Token.scan preferDecimal text q').lexeme = .symbol .factorial →
        ∃ ts, Reads preferDecimal text p ts (Token.scan preferDecimal text q').stop ∧
          Phrase text 0 ts (r.wrap (.unary .factorial e))) := by
  obtain ⟨ps, ts, before, all, spelled, rfl⟩ := signed
  refine ⟨⟨ts ++ us, before.append read, .operand all spelled body⟩, fun mark => ?_⟩
  have marked : Reads preferDecimal text q' [Token.scan preferDecimal text q'] _ :=
    reads_token (by rw [Readable, mark]; rfl) (by simp [mark])
  exact ⟨_, (before.append read).append marked, .marked all spelled body mark⟩

theorem Passed.arguments (passed : Passed preferDecimal text p reversed q) {es : List Expr}
    (read : Reads preferDecimal text q us q') (args : Arguments text us es) :
    ∃ vs, Reads preferDecimal text p vs q' ∧ Arguments text vs (reversed.reverse ++ es) := by
  induction passed generalizing us es with
  | none => exact ⟨us, read, args⟩
  | argument _ first phrase gap ih =>
    obtain ⟨vs, behind, args⟩ := gap.arguments phrase read args
    obtain ⟨vs', whole, args⟩ := ih (first.append behind) args
    exact ⟨vs', whole, by simpa using args⟩

theorem Named.primary (named : Named preferDecimal text r name p q) :
    ∃ q₀ t, Signed preferDecimal text r p q₀ ∧ Reads preferDecimal text q₀ [t] q ∧
      t.lexeme = .identifier name ∧ r.delete = false := by
  obtain ⟨signed, kept, identifier⟩ := named
  exact ⟨_, _, signed, reads_token (by rw [Readable, identifier]; rfl) (by simp [identifier]),
    identifier, kept⟩

theorem Joins.phrase {op : Operation} {left right : Expr} (joins : Joins preferDecimal text rank op q q')
    (before : Reads preferDecimal text p ts q) (first : Phrase text (rank + 1) ts left)
    {r : Nat} (read : Reads preferDecimal text q' us r) (second : Phrase text rank us right) :
    ∃ vs, Reads preferDecimal text p vs r ∧ Phrase text (rank + 1) vs (.binary op left right) := by
  cases joins with
  | operator symbol operator =>
    have joined := (reads_token (by rw [Readable, symbol]; rfl) (by simp [symbol])).append read
    exact ⟨_, before.append joined, .binary first symbol operator second⟩
  | factor identifier =>
    exact ⟨_, before.append read,
      .product first ⟨_, _, read.head second.head, identifier⟩ second⟩

namespace Derived

theorem operand_goes (opened : Opened preferDecimal text frames p)
    (signed : Signed preferDecimal text r p q) (readable : Readable preferDecimal text q)
    (goes : (Control.operandMove r frames (Token.scan preferDecimal text q).lexeme).outcome
      preferDecimal text q = .goes s') : Derived preferDecimal text s' := by
  unfold Control.operandMove at goes
  split at goes
  · rename_i added
    cases goes
    exact .operand opened (signed.add readable added)
  split at goes
  · cases goes
  rename_i allowed
  unfold Control.primaryMove at goes
  split at goes
  · rename_i opens
    cases goes
    have kept : r.delete = false := by simpa [opens, Lexeme.isIdentifier] using allowed
    exact .operand (.bracket opened signed kept opens) (.none _)
  · rename_i name identifier
    split at goes
    · rename_i deleted
      cases goes
      have read := reads_token readable (by simp [identifier])
      exact .primary opened signed deleted read (.remove identifier)
    · rename_i kept
      cases goes
      exact .name opened (.intro signed (Bool.eq_false_iff.mpr kept) identifier)
  · rename_i v number
    cases goes
    have kept : r.delete = false := by simpa [number, Lexeme.isIdentifier] using allowed
    have read := reads_token readable (by simp [number])
    exact .primary opened signed kept read (.number number)
  · cases goes

theorem name_goes (opened : Opened preferDecimal text frames p)
    (named : Named preferDecimal text r name p q)
    (goes : (Control.nameMove r name frames (Token.scan preferDecimal text q).lexeme).outcome
      preferDecimal text q = .goes s') : Derived preferDecimal text s' := by
  unfold Control.nameMove at goes
  split at goes
  · rename_i equals
    cases goes
    exact .operand (.assignment opened named equals) (.none _)
  · rename_i opens
    cases goes
    exact .arguments opened (.intro named opens) .none
  · cases goes
    obtain ⟨q₀, t, signed, read, identifier, kept⟩ := named.primary
    exact .primary opened signed kept read (.read identifier)

theorem arguments_goes (opened : Opened preferDecimal text frames p)
    (calls : Calls preferDecimal text r name p q)
    (passed : Passed preferDecimal text q reversed q') (readable : Readable preferDecimal text q')
    (goes : (Control.argumentsMove r name reversed frames
      (Token.scan preferDecimal text q').lexeme).outcome preferDecimal text q' = .goes s') :
    Derived preferDecimal text s' := by
  unfold Control.argumentsMove at goes
  split at goes
  · rename_i closes
    cases goes
    obtain ⟨named, opens⟩ := calls
    obtain ⟨q₀, t, signed, read, identifier, kept⟩ := named.primary
    have opening := reads_token (by rw [Readable, opens]; rfl) (by simp [opens])
    obtain ⟨vs, inside, args⟩ :=
      passed.arguments (reads_token readable (by simp [closes])) (.close closes)
    rw [List.append_nil] at args
    exact .primary opened signed kept (read.append (opening.append inside))
      (.call identifier opens args)
  split at goes
  · cases goes
  · cases goes
    exact .operand (.argument opened calls passed) (.none _)

theorem primary_goes (opened : Opened preferDecimal text frames p)
    (signed : Signed preferDecimal text r p q) (read : Reads preferDecimal text q ts q')
    (body : Primary text r.delete ts e)
    (goes : (Control.factorialMove r e frames (Token.scan preferDecimal text q').lexeme).outcome
      preferDecimal text q' = .goes s') : Derived preferDecimal text s' := by
  obtain ⟨⟨us, whole, phrase⟩, marked⟩ := signed.phrase read body
  unfold Control.factorialMove at goes
  split at goes
  · rename_i mark
    cases goes
    obtain ⟨us, whole, phrase⟩ := marked mark
    exact .rest opened whole (phrase.loosen (Nat.zero_le _))
  · cases goes
    exact .rest opened whole (phrase.loosen (Nat.zero_le _))

theorem continued_goes (opened : Opened preferDecimal text frames p)
    (inside : rank < innermostRank frames) (read : Reads preferDecimal text p ts q)
    (phrase : Phrase text (rank + 1) ts e)
    (goes : ((⟨.rest rank e, frames⟩ : Control).move (Token.scan preferDecimal text q).lexeme
      (cursorAt preferDecimal text q).isCommaFraction).outcome preferDecimal text q = .goes s') :
    Derived preferDecimal text s' := by
  rw [Control.move_rest inside] at goes
  split at goes
  · cases goes
    exact .rest opened read (phrase.loosen (Nat.le_min.mpr ⟨Nat.le_succ _, inside⟩))
  · rename_i op operator
    cases goes
    obtain ⟨s, symbol, operator⟩ := ofLexeme_operator operator
    exact .operand (.left opened inside read phrase (.operator symbol operator)) (.none _)
  · rename_i factor
    cases goes
    obtain ⟨two, name, identifier⟩ := ofLexeme_factor factor
    obtain rfl : rank = 1 := Nat.succ.inj two
    exact .operand (.left opened inside read phrase (.factor identifier)) (.none _)

theorem end_goes (opened : Opened preferDecimal text frames p)
    (read : Reads preferDecimal text p ts q) (phrase : Phrase text (innermostRank frames) ts e)
    (readable : Readable preferDecimal text q)
    (goes : (Control.endMove e (Token.scan preferDecimal text q).lexeme
      (cursorAt preferDecimal text q).isCommaFraction frames).outcome preferDecimal text q =
        .goes s') : Derived preferDecimal text s' := by
  cases opened with
  | start =>
    simp only [Control.endMove] at goes
    split at goes <;> cases goes
  | left outer inside before first joins =>
    cases goes
    obtain ⟨us, whole, both⟩ := joins.phrase before first read phrase
    exact .rest outer whole (both.loosen (Nat.le_min.mpr ⟨Nat.le_refl _, inside⟩))
  | @bracket _ r _ _ outer signed kept opens =>
    simp only [Control.endMove] at goes
    split at goes
    · rename_i closes
      cases goes
      have opening := reads_token (by rw [Readable, opens]; rfl) (by simp [opens])
      have closing := reads_token readable (by simp [closes])
      exact .primary outer signed kept (opening.append (read.append closing))
        (.bracket opens phrase closes)
    · cases goes
  | @assignment _ r _ _ _ outer named equals =>
    cases goes
    obtain ⟨q₀, t, signed, before, identifier, kept⟩ := named.primary
    have sign := reads_token (by rw [Readable, equals]; rfl) (by simp [equals])
    exact .primary outer signed kept (before.append (sign.append read))
      (.assign identifier equals phrase)
  | argument outer calls passed =>
    simp only [Control.endMove] at goes
    split at goes
    · rename_i separates
      cases goes
      obtain ⟨s, separator, symbol⟩ := (isSeparator_iff _).mp separates
      exact .arguments outer calls (.argument passed read phrase (.separator symbol separator))
    split at goes
    · rename_i fraction
      cases goes
      exact .arguments outer calls
        (.argument passed read phrase (.comma ((isCommaFraction_cursorAt q).mp fraction)))
    · rename_i noFraction
      cases goes
      exact .arguments outer calls
        (.argument passed read phrase (.none (mt (isCommaFraction_cursorAt q).mpr noFraction)))

/-- What the automaton has read derives what it keeps from one step to the next. -/
theorem goes (stepped : s.step nesting preferDecimal text = .goes s')
    (derived : Derived preferDecimal text s) : Derived preferDecimal text s' := by
  have readable := (of_goes stepped).1
  have moves := outcome_of_goes stepped
  cases derived with
  | operand opened signed => exact operand_goes opened signed readable moves
  | name opened named => exact name_goes opened named moves
  | arguments opened calls passed => exact arguments_goes opened calls passed readable moves
  | primary opened signed same read body =>
    exact primary_goes opened signed read (same ▸ body) moves
  | @rest frames rank p q ts e opened read phrase =>
    by_cases inside : rank < innermostRank frames
    · rw [Nat.min_eq_left inside] at phrase
      exact continued_goes opened inside read phrase moves
    · have complete := Nat.not_lt.mp inside
      rw [Nat.min_eq_right (Nat.le_succ_of_le complete)] at phrase
      dsimp only at moves
      rw [Control.move_end complete] at moves
      exact end_goes opened read phrase readable moves

theorem phrase_of_accepts (accepts : s.step nesting preferDecimal text = .accepts e)
    (derived : Derived preferDecimal text s) :
    ∃ ts, Spells preferDecimal text ts ∧ Phrase text loosestRank ts e := by
  obtain ⟨ends, rank, complete, same⟩ := of_accepts accepts
  obtain ⟨control, q⟩ := s
  subst same
  cases derived with
  | rest opened read phrase =>
    cases opened
    exact ⟨_, ⟨q, read, ends⟩, phrase.loosen (Nat.min_le_right _ _)⟩

end Derived

end Pushdown

theorem Grammar.derived_of_ofText {nesting : Nat} {preferDecimal : Bool} {text : String} {e : Expr}
    (parsed : Expr.ofText preferDecimal text nesting = .ok e) :
    ∃ ts, Spells preferDecimal text ts ∧ Phrase text 5 ts e := by
  obtain ⟨s, runs, accepts⟩ := Pushdown.ofText_eq_ok_iff.mp parsed
  have begins : Pushdown.Derived preferDecimal text ⟨.start, 0⟩ := .operand .start (.none 0)
  exact (runs.keeps (fun _ _ => Pushdown.Derived.goes) begins).phrase_of_accepts accepts

end Reckoner
