import Reckoner.Proofs.Descent.Parser
import Reckoner.Proofs.Pushdown.Nesting

namespace Reckoner.Descent

open Grammar

def Stretch.Forward (x : Stretch) : Prop := 0 < x.consumed ∧ x.before.position < x.after.position

namespace State

/-- What holds between a state and those that come after it. -/
structure Leads (s s' : State) : Prop where
  consumed_le : s.consumed ≤ s'.consumed
  token_eq : s'.consumed = s.consumed → s'.token = s.token
  forward : (∀ x ∈ s.record, x.Forward) → ∀ x ∈ s'.record, x.Forward

/-- The current token is the one that is read from a position, and the scan goes on behind it. -/
structure Stands (preferDecimal : Bool) (text : String) (p : Nat) (s : State) : Prop where
  readable : Readable preferDecimal text p
  token : s.token = Token.scan preferDecimal text p
  position : s.position = (Token.scan preferDecimal text p).stop

end State

variable {preferDecimal : Bool} {text : String} {s s' s'' : State} {p q : Nat} {α β γ δ : Type}

namespace State.Leads

theorem refl (s : State) : s.Leads s := ⟨Nat.le_refl _, fun _ => rfl, id⟩

theorem trans (first : s.Leads s') (second : s'.Leads s'') : s.Leads s'' where
  consumed_le := Nat.le_trans first.consumed_le second.consumed_le
  token_eq same := by
    have early := first.consumed_le
    have late := second.consumed_le
    rw [second.token_eq (by omega), first.token_eq (by omega)]
  forward before := second.forward (first.forward before)

theorem consumed_lt (leads : s.Leads s') (further : s.token.position < s'.token.position) :
    s.consumed < s'.consumed := by
  refine Nat.lt_of_le_of_ne leads.consumed_le fun same => ?_
  rw [leads.token_eq same.symm] at further
  exact Nat.lt_irrefl _ further

theorem noted (activity : Activity) (leads : s.Leads s')
    (further : s.token.position < s'.token.position) : s'.Leads (s'.note activity s) where
  consumed_le := Nat.le_refl _
  token_eq _ := rfl
  forward before :=
    List.forall_mem_cons.mpr ⟨⟨Nat.sub_pos_of_lt (leads.consumed_lt further), further⟩, before⟩

end State.Leads

theorem position_lt_of_size_lt
    (less : (cursorAt preferDecimal text q).size < (cursorAt preferDecimal text p).size) :
    (Token.scan preferDecimal text p).position < (Token.scan preferDecimal text q).position := by
  simp only [Cursor.size, cursorAt_here, List.length_drop] at less
  omega

def Follows (s : State) (x : Parser α) (y : Except ParseError β) (shows : β → α → State → Prop) : Prop :=
  match y with
  | .ok b => ∃ a s', x s = some (.ok a, s') ∧ s.Leads s' ∧ shows b a s'
  | .error e => ∃ s', x s = some (.error e, s') ∧ s.Leads s'

def Arrives (preferDecimal : Bool) (text : String) {property : α × Cursor → Prop}
    (r : Subtype property) (a : α) (s : State) : Prop :=
  ∃ q, s.Stands preferDecimal text q ∧ r.1 = (a, cursorAt preferDecimal text q)

theorem run_bind (x : Parser α) (f : α → Parser γ) (s : State) :
    (x >>= f) s = (x s).bind fun r => ExceptT.bindCont f r.1 r.2 := rfl

theorem bind_of_ok {x : Parser α} {f : α → Parser γ} {a : α} (ran : x s = some (.ok a, s')) :
    (x >>= f) s = f a s' := by
  rw [run_bind, ran]
  rfl

theorem bind_of_error {x : Parser α} {f : α → Parser γ} {e : ParseError}
    (failed : x s = some (.error e, s')) : (x >>= f) s = some (.error e, s') := by
  rw [run_bind, failed]
  rfl

namespace Follows

variable {x : Parser α} {y : Except ParseError β} {f : α → Parser γ} {g : β → Except ParseError δ}
  {shows : β → α → State → Prop} {shows' : δ → γ → State → Prop}

theorem done {a : α} {b : β} (shown : shows b a s) : Follows s (pure a) (.ok b) shows :=
  ⟨a, s, rfl, .refl s, shown⟩

theorem after {x' : Parser α} (follows : Follows s' x' y shows) (leads : s.Leads s')
    (same : x s = x' s') : Follows s x y shows := by
  cases y with
  | ok b =>
    obtain ⟨a, s'', ran, leads', shown⟩ := follows
    exact ⟨a, s'', same.trans ran, leads.trans leads', shown⟩
  | error e =>
    obtain ⟨s'', ran, leads'⟩ := follows
    exact ⟨s'', same.trans ran, leads.trans leads'⟩

theorem step {a : α} {z : Except ParseError δ} (ran : x s = some (.ok a, s')) (leads : s.Leads s')
    (rest : Follows s' (f a) z shows') : Follows s (x >>= f) z shows' :=
  rest.after leads (bind_of_ok ran)

theorem bind (first : Follows s x y shows)
    (second : ∀ b a s', s.Leads s' → shows b a s' → Follows s' (f a) (g b) shows') :
    Follows s (x >>= f) (y >>= g) shows' := by
  cases y with
  | ok b =>
    obtain ⟨a, s', ran, leads, shown⟩ := first
    exact .step ran leads (second b a s' leads shown)
  | error e =>
    obtain ⟨s', ran, leads⟩ := first
    exact ⟨s', bind_of_error ran, leads⟩

theorem reshape {g : β → Except ParseError δ} {shows' : δ → α → State → Prop}
    (first : Follows s x y shows)
    (second : ∀ b a s', shows b a s' → Follows s' (pure a) (g b) shows') :
    Follows s x (y >>= g) shows' := by
  rw [← bind_pure x]
  exact first.bind fun b a s' _ shown => second b a s' shown

theorem mono {shows' : β → α → State → Prop} (first : Follows s x y shows)
    (weaker : ∀ b a s', shows b a s' → shows' b a s') : Follows s x y shows' := by
  cases y with
  | ok b =>
    obtain ⟨a, s', ran, leads, shown⟩ := first
    exact ⟨a, s', ran, leads, weaker b a s' shown⟩
  | error e => exact first

theorem outcome {y : Except ParseError α} (follows : Follows s x y fun b a _ => b = a) :
    ∃ s', x s = some (y, s') ∧ s.Leads s' := by
  cases y with
  | ok b =>
    obtain ⟨a, s', ran, leads, rfl⟩ := follows
    exact ⟨s', ran, leads⟩
  | error e => exact follows

theorem current {f : State → Parser α} (rest : Follows s (f s) y shows) :
    Follows s (get >>= f) y shows :=
  .step rfl (.refl s) rest

theorem refuse (fault : SyntaxFault) (stands : s.Stands preferDecimal text p) :
    Follows s (fail fault) (.error ((cursorAt preferDecimal text p).error fault)) shows := by
  have place : (cursorAt preferDecimal text p).error fault =
      ⟨fault, s.token.position, s.token.length⟩ := by
    rw [stands.token]
    rfl
  rw [place]
  exact ⟨s, rfl, .refl s⟩

end Follows

theorem run_get_bind (f : State → Parser α) (s : State) : (get >>= f) s = f s s := rfl

theorem advance_of_readable (readable : Readable preferDecimal text s.position) :
    advance preferDecimal text s = some (.ok (), State.note
      { s with
        token := Token.scan preferDecimal text s.position
        position := (Token.scan preferDecimal text s.position).stop
        consumed := s.consumed + 1 } .advance s) := by
  rw [advance, run_get_bind]
  unfold Readable at readable
  cases lexeme : (Token.scan preferDecimal text s.position).lexeme with
  | error fault =>
    rw [lexeme] at readable
    cases readable
  | _ => rfl

theorem advance_of_fault {fault : LexicalFault}
    (lexeme : (Token.scan preferDecimal text s.position).lexeme = .error fault) :
    advance preferDecimal text s =
      some (.error ((cursorAt preferDecimal text s.position).error (.lexical fault)), s) := by
  rw [advance, run_get_bind, lexeme]
  rfl

theorem advance_succeeds (scans : s.position = q) (readable : Readable preferDecimal text q)
    (further : s.token.position < (Token.scan preferDecimal text q).position) :
    ∃ s', advance preferDecimal text s = some (.ok (), s') ∧ s.Leads s' ∧
      s'.Stands preferDecimal text q := by
  subst scans
  have moved : s.Leads { s with
      token := Token.scan preferDecimal text s.position
      position := (Token.scan preferDecimal text s.position).stop
      consumed := s.consumed + 1 } :=
    ⟨Nat.le_succ s.consumed, fun same => absurd same (Nat.succ_ne_self _), id⟩
  exact ⟨_, advance_of_readable readable, moved.trans (moved.noted .advance further), readable, rfl, rfl⟩

theorem advance_fails {fault : LexicalFault} (scans : s.position = q)
    (lexeme : (Token.scan preferDecimal text q).lexeme = .error fault) :
    advance preferDecimal text s =
      some (.error ((cursorAt preferDecimal text q).error (.lexical fault)), s) := by
  subst scans
  exact advance_of_fault lexeme

theorem next_eq_advance (more : s.token.lexeme ≠ .eof) :
    next preferDecimal text s = advance preferDecimal text s := by
  rw [next, run_get_bind]
  exact congrFun (if_pos more) s

theorem next_follows {more : (cursorAt preferDecimal text p).lexeme ≠ .eof}
    (stands : s.Stands preferDecimal text p) :
    Follows s (next preferDecimal text) ((cursorAt preferDecimal text p).next more) fun d _ s' =>
      s'.Stands preferDecimal text (Token.scan preferDecimal text p).stop ∧
        d.1 = cursorAt preferDecimal text (Token.scan preferDecimal text p).stop := by
  have advances : next preferDecimal text s = advance preferDecimal text s :=
    next_eq_advance (by rw [stands.token]; exact more)
  rcases readable_or_fault preferDecimal text (Token.scan preferDecimal text p).stop with
    further | ⟨fault, lexeme⟩
  · obtain ⟨shorter, moved⟩ := next_succeeds more further
    obtain ⟨s', ran, leads, stands'⟩ := advance_succeeds stands.position further
      (stands.token ▸ position_lt_of_size_lt shorter)
    rw [moved]
    exact ⟨(), s', advances.trans ran, leads, stands', rfl⟩
  · rw [next_fails lexeme]
    exact ⟨s, advances.trans (advance_fails stands.position lexeme), .refl s⟩

/-- The scan goes back into a comma fraction, and the number behind the comma is read. -/
theorem reread_follows {more : (cursorAt preferDecimal text p).lexeme ≠ .eof}
    (stands : s.Stands preferDecimal text p) :
    Follows { s with position := s.token.position + 1 } (advance preferDecimal text)
      ((cursorAt preferDecimal text p).afterComma more) fun d _ s' =>
        s'.Stands preferDecimal text ((Token.scan preferDecimal text p).position + 1) ∧
          d.1 = cursorAt preferDecimal text ((Token.scan preferDecimal text p).position + 1) := by
  have scans : State.position { s with position := s.token.position + 1 } =
      (Token.scan preferDecimal text p).position + 1 := by
    rw [stands.token]
  rcases readable_or_fault preferDecimal text ((Token.scan preferDecimal text p).position + 1) with
    further | ⟨fault, lexeme⟩
  · obtain ⟨shorter, moved⟩ := afterComma_succeeds more further
    have further' := position_lt_of_size_lt shorter
    obtain ⟨s', ran, leads, stands'⟩ := advance_succeeds scans further (by rwa [stands.token])
    rw [moved]
    exact ⟨(), s', ran, leads, stands', rfl⟩
  · rw [afterComma_fails lexeme]
    exact ⟨_, advance_fails scans lexeme, .refl _⟩

namespace Follows

variable {f : Unit → Parser γ} {z : Except ParseError δ} {shows' : δ → γ → State → Prop}

theorem reads {more : (cursorAt preferDecimal text p).lexeme ≠ .eof}
    {g : { d : Cursor // d.size < (cursorAt preferDecimal text p).size } → Except ParseError δ}
    (stands : s.Stands preferDecimal text p)
    (continues : ∀ shorter s', s.Leads s' →
      s'.Stands preferDecimal text (Token.scan preferDecimal text p).stop →
      Follows s' (f ()) (g ⟨cursorAt preferDecimal text (Token.scan preferDecimal text p).stop, shorter⟩)
        shows') :
    Follows s (next preferDecimal text >>= f) ((cursorAt preferDecimal text p).next more >>= g)
      shows' := by
  apply (next_follows stands).bind
  rintro ⟨d, shorter⟩ _ s' leads ⟨stands', rfl⟩
  exact continues shorter s' leads stands'

theorem finishes {begun : State} (activity : Activity) (start : begun.Stands preferDecimal text p)
    (stands : s.Stands preferDecimal text q) (leads : begun.Leads s)
    (less : (cursorAt preferDecimal text q).size < (cursorAt preferDecimal text p).size)
    (continues : ∀ s', s.Leads s' → s'.Stands preferDecimal text q → Follows s' (f ()) z shows') :
    Follows s (finish activity begun >>= f) z shows' := by
  have further := position_lt_of_size_lt less
  rw [← start.token, ← stands.token] at further
  have noted := leads.noted activity further
  exact .step rfl noted (continues _ noted ⟨stands.readable, stands.token, stands.position⟩)

theorem opens {more : (cursorAt preferDecimal text p).lexeme ≠ .eof}
    {g : { d : Cursor // d.size < (cursorAt preferDecimal text p).size } → Except ParseError δ}
    (stands : s.Stands preferDecimal text p)
    (continues : ∀ shorter s', s'.Stands preferDecimal text (Token.scan preferDecimal text p).stop →
      Follows s' (f ()) (g ⟨cursorAt preferDecimal text (Token.scan preferDecimal text p).stop, shorter⟩)
        shows') :
    Follows s (next preferDecimal text >>= fun _ => finish .opening s >>= f)
      ((cursorAt preferDecimal text p).next more >>= g) shows' := by
  apply reads stands
  intro shorter s' leads stands'
  apply finishes .opening stands stands' leads shorter
  intro s'' _ stands''
  exact continues shorter s'' stands''

theorem nests {x : Parser γ} {nesting : Nat} {g : Nat → Except ParseError δ}
    (room : (cursorAt preferDecimal text p).size < nesting)
    (continues : ∀ inner, (cursorAt preferDecimal text p).size ≤ inner → Follows s x (g inner) shows') :
    Follows s x (Expr.deeper nesting (cursorAt preferDecimal text p) >>= g) shows' := by
  cases nesting with
  | zero => exact absurd room (Nat.not_lt_zero _)
  | succ inner => exact continues inner (Nat.le_of_lt_succ room)

end Follows

theorem State.Stands.lexeme (stands : s.Stands preferDecimal text p) :
    s.token.lexeme = (cursorAt preferDecimal text p).lexeme :=
  congrArg Token.lexeme stands.token

theorem isCommaFraction_of_stands (stands : s.Stands preferDecimal text p) :
    isCommaFraction text s.token = (cursorAt preferDecimal text p).isCommaFraction := by
  have begins : text.toList[s.token.position]? = (cursorAt preferDecimal text p).here.head? := by
    rw [stands.token, cursorAt_here, List.head?_drop]
  unfold isCommaFraction Cursor.isCommaFraction
  cases lexeme : (cursorAt preferDecimal text p).lexeme with
  | number v => simp only [stands.lexeme, lexeme, begins]
  | _ => simp only [stands.lexeme, lexeme]

theorem prefixes_follows {fuel : Nat} (r : Prefixes) (p : Nat) {s : State}
    (stands : s.Stands preferDecimal text p)
    (enough : 10 * (cursorAt preferDecimal text p).size + 1 ≤ fuel) :
    Follows s (prefixes preferDecimal text fuel r) (Expr.prefixes r (cursorAt preferDecimal text p))
      (Arrives preferDecimal text) := by
  obtain ⟨left, spent⟩ := Nat.exists_eq_add_one.mpr (show 0 < fuel by omega)
  rw [spent]
  rw [Expr.prefixes]
  split
  · rename_i none
    rw [prefixes]
    apply Follows.current
    rw [stands.lexeme, none]
    exact .done ⟨p, stands, rfl⟩
  · rename_i r' added
    rw [prefixes]
    apply Follows.current
    rw [(congrArg r.add? stands.lexeme).trans added]
    apply Follows.reads stands
    intro shorter s' leads stands'
    apply Follows.finishes .prefixIteration stands stands' leads shorter
    intro s'' leads' stands''
    apply (prefixes_follows r' _ stands'' (by omega)).reshape
    rintro ⟨⟨r'', c⟩, bound⟩ a s₁ ⟨q, there, ⟨⟩⟩
    exact .done ⟨q, there, rfl⟩
termination_by fuel

theorem closing_follows (stands : s.Stands preferDecimal text p) :
    Follows s (closing preferDecimal text) (Expr.closing (cursorAt preferDecimal text p))
      fun d _ s' => ∃ q, s'.Stands preferDecimal text q ∧ d.1 = cursorAt preferDecimal text q := by
  apply Follows.current
  rw [Expr.closing, stands.lexeme]
  split
  · exact (next_follows stands).mono fun d _ s' there => ⟨_, there⟩
  · exact .refuse .closingBracketExpected stands

theorem factorialMark_follows {bound : Nat} {e : Expr}
    {before : (cursorAt preferDecimal text p).size < bound} (stands : s.Stands preferDecimal text p) :
    Follows s (factorialMark preferDecimal text e)
      (Expr.factorialMark e (cursorAt preferDecimal text p) before) (Arrives preferDecimal text) := by
  apply Follows.current
  rw [Expr.factorialMark, stands.lexeme]
  split
  · apply Follows.reads stands
    intro shorter s' leads stands'
    exact .done ⟨_, stands', rfl⟩
  · exact .done ⟨_, stands, rfl⟩

theorem separator_follows (stands : s.Stands preferDecimal text p) :
    Follows s (separator preferDecimal text) (Expr.separator (cursorAt preferDecimal text p))
      fun d _ s' => ∃ q, s'.Stands preferDecimal text q ∧ d.1 = cursorAt preferDecimal text q := by
  apply Follows.current
  rw [Expr.separator, stands.lexeme, isCommaFraction_of_stands stands]
  split
  · apply (next_follows stands).reshape
    rintro ⟨d, shorter⟩ _ s' ⟨stands', rfl⟩
    exact .done ⟨_, stands', rfl⟩
  split
  · refine .step rfl ⟨Nat.le_refl _, fun _ => rfl, id⟩ ?_
    apply (reread_follows stands).reshape
    rintro ⟨d, shorter⟩ _ s' ⟨stands', rfl⟩
    exact .done ⟨_, stands', rfl⟩
  · exact .done ⟨p, stands, rfl⟩

-- By induction on the fuel. Ten units for each character left pay for the calls from one token to the next;
-- beyond them a procedure has what its calls take before a token is read.
mutual

theorem ofRank_follows {fuel nesting : Nat} (rank p : Nat) {s : State}
    (stands : s.Stands preferDecimal text p) (room : (cursorAt preferDecimal text p).size ≤ nesting)
    (enough : 10 * (cursorAt preferDecimal text p).size + rank + 3 ≤ fuel) :
    Follows s (ofRank preferDecimal text fuel rank)
      (Expr.ofRank nesting rank (cursorAt preferDecimal text p)) (Arrives preferDecimal text) := by
  obtain ⟨left, spent⟩ := Nat.exists_eq_add_one.mpr (show 0 < fuel by omega)
  rw [spent]
  rw [Expr.ofRank.eq_def, ofRank.eq_def]
  cases rank with
  | zero => exact operand_follows p stands room (by omega)
  | succ rank =>
    apply (ofRank_follows rank p stands room (by omega)).bind
    rintro ⟨⟨first, c⟩, shorter⟩ a s' leads ⟨q, stands', ⟨⟩⟩
    have less : (cursorAt preferDecimal text q).size < (cursorAt preferDecimal text p).size := shorter
    exact continued_follows rank q stands' (by omega) (by omega)
termination_by fuel

theorem continued_follows {fuel nesting : Nat} (rank p : Nat) {bound : Nat} {left : Expr}
    {before : (cursorAt preferDecimal text p).size < bound} {s : State}
    (stands : s.Stands preferDecimal text p) (room : (cursorAt preferDecimal text p).size ≤ nesting)
    (enough : 10 * (cursorAt preferDecimal text p).size + rank + 4 ≤ fuel) :
    Follows s (continued preferDecimal text fuel rank left)
      (Expr.continued nesting rank bound left (cursorAt preferDecimal text p) before)
      (Arrives preferDecimal text) := by
  obtain ⟨left, spent⟩ := Nat.exists_eq_add_one.mpr (show 0 < fuel by omega)
  rw [spent]
  rw [Expr.continued.eq_def]
  split
  · rename_i none
    rw [continued]
    apply Follows.current
    rw [stands.lexeme, none]
    exact .done ⟨p, stands, rfl⟩
  · rename_i op operator
    rw [continued]
    apply Follows.current
    rw [(congrArg (Continuation.ofLexeme (rank + 1)) stands.lexeme).trans operator]
    apply Follows.reads stands
    intro shorter s₁ leads stands₁
    apply (ofRank_follows rank _ stands₁ (by omega) (by omega)).bind
    rintro ⟨⟨right, c⟩, shorter'⟩ a s₂ leads' ⟨q, stands₂, ⟨⟩⟩
    have less : (cursorAt preferDecimal text q).size < (cursorAt preferDecimal text p).size :=
      Nat.lt_trans shorter' shorter
    apply Follows.finishes _ stands stands₂ (leads.trans leads') less
    intro s₃ _ stands₃
    exact continued_follows rank q stands₃ (by omega) (by omega)
  · rename_i factor
    rw [continued]
    apply Follows.current
    rw [stands.lexeme, factor]
    apply (ofRank_follows rank p stands room (by omega)).bind
    rintro ⟨⟨right, c⟩, shorter⟩ a s₁ leads ⟨q, stands₁, ⟨⟩⟩
    have less : (cursorAt preferDecimal text q).size < (cursorAt preferDecimal text p).size := shorter
    apply Follows.finishes _ stands stands₁ leads less
    intro s₂ _ stands₂
    exact continued_follows rank q stands₂ (by omega) (by omega)
termination_by fuel

theorem operand_follows {fuel nesting : Nat} (p : Nat) {s : State}
    (stands : s.Stands preferDecimal text p) (room : (cursorAt preferDecimal text p).size ≤ nesting)
    (enough : 10 * (cursorAt preferDecimal text p).size + 2 ≤ fuel) :
    Follows s (operand preferDecimal text fuel)
      (Expr.operand nesting (cursorAt preferDecimal text p)) (Arrives preferDecimal text) := by
  obtain ⟨left, spent⟩ := Nat.exists_eq_add_one.mpr (show 0 < fuel by omega)
  rw [spent]
  rw [Expr.operand.eq_def, operand]
  apply (prefixes_follows default p stands (by omega)).bind
  rintro ⟨⟨r, c⟩, bound⟩ a s' leads ⟨q, stands', ⟨⟩⟩
  have less : (cursorAt preferDecimal text q).size ≤ (cursorAt preferDecimal text p).size := bound
  apply Follows.current
  rw [stands'.lexeme]
  dsimp only
  split
  · exact .refuse .variableExpected stands'
  apply (primary_follows q stands' (by omega) (by omega)).bind
  rintro ⟨⟨e, c⟩, shorter⟩ a s'' leads' ⟨q', stands'', ⟨⟩⟩
  apply (factorialMark_follows stands'').bind
  rintro ⟨⟨e', c⟩, shorter'⟩ a s₃ leads'' ⟨q'', stands₃, ⟨⟩⟩
  exact .done ⟨_, stands₃, rfl⟩
termination_by fuel

theorem primary_follows {fuel nesting : Nat} (p : Nat) {delete : Bool} {s : State}
    (stands : s.Stands preferDecimal text p) (room : (cursorAt preferDecimal text p).size ≤ nesting)
    (enough : 10 * (cursorAt preferDecimal text p).size + 1 ≤ fuel) :
    Follows s (primary preferDecimal text fuel delete)
      (Expr.primary nesting delete (cursorAt preferDecimal text p)) (Arrives preferDecimal text) := by
  obtain ⟨left, spent⟩ := Nat.exists_eq_add_one.mpr (show 0 < fuel by omega)
  rw [spent]
  rw [Expr.primary.eq_def]
  split
  · rename_i opens
    rw [primary]
    apply Follows.current
    rw [stands.lexeme.trans opens]
    apply Follows.opens stands
    intro shorter s' stands'
    apply Follows.nests (Nat.lt_of_lt_of_le shorter room)
    intro inner room'
    apply (inside_follows .bracket _ stands' room' (by omega)).bind
    rintro ⟨⟨e, c⟩, shorter'⟩ a s'' leads ⟨q, stands'', ⟨⟩⟩
    apply (closing_follows stands'').bind
    rintro ⟨c, shorter''⟩ _ s₃ leads' ⟨q', stands₃, rfl⟩
    exact .done ⟨_, stands₃, rfl⟩
  · rename_i name identifier
    rw [primary]
    apply Follows.current
    rw [stands.lexeme.trans identifier]
    apply Follows.reads stands
    intro shorter s' leads stands'
    dsimp only
    split
    · exact .done ⟨_, stands', rfl⟩
    · exact named_follows _ stands' (by omega) (by omega)
  · rename_i v number
    rw [primary]
    apply Follows.current
    rw [stands.lexeme.trans number]
    apply Follows.reads stands
    intro shorter s' leads stands'
    exact .done ⟨_, stands', rfl⟩
  · rename_i noBracket noName noNumber
    rw [primary]
    apply Follows.current
    rw [stands.token]
    split
    · rename_i opens
      exact absurd opens noBracket
    · rename_i name identifier
      exact absurd identifier (noName name)
    · rename_i v number
      exact absurd number (noNumber v)
    · exact .refuse .operandExpected stands
termination_by fuel

theorem named_follows {fuel nesting : Nat} (p : Nat) {bound : Nat} {name : String}
    {before : (cursorAt preferDecimal text p).size < bound} {s : State}
    (stands : s.Stands preferDecimal text p) (room : (cursorAt preferDecimal text p).size ≤ nesting)
    (enough : 10 * (cursorAt preferDecimal text p).size + 1 ≤ fuel) :
    Follows s (named preferDecimal text fuel name)
      (Expr.named nesting name bound (cursorAt preferDecimal text p) before)
      (Arrives preferDecimal text) := by
  obtain ⟨left, spent⟩ := Nat.exists_eq_add_one.mpr (show 0 < fuel by omega)
  rw [spent]
  rw [Expr.named.eq_def]
  split
  · rename_i equals
    rw [named]
    apply Follows.current
    rw [stands.lexeme.trans equals]
    apply Follows.opens stands
    intro shorter s' stands'
    apply Follows.nests (Nat.lt_of_lt_of_le shorter room)
    intro inner room'
    apply (inside_follows .assignment _ stands' room' (by omega)).bind
    rintro ⟨⟨e, c⟩, shorter'⟩ a s'' leads ⟨q, stands'', ⟨⟩⟩
    exact .done ⟨_, stands'', rfl⟩
  · rename_i opens
    rw [named]
    apply Follows.current
    rw [stands.lexeme.trans opens]
    apply Follows.opens stands
    intro shorter s' stands'
    apply (arguments_follows _ stands' (Nat.lt_of_lt_of_le shorter room) (by omega)).bind
    rintro ⟨⟨es, c⟩, shorter'⟩ a s'' leads ⟨q, stands'', ⟨⟩⟩
    exact .done ⟨_, stands'', rfl⟩
  · rename_i noEqual noBracket
    rw [named]
    apply Follows.current
    rw [stands.token]
    split
    · rename_i equals
      exact absurd equals noEqual
    · rename_i opens
      exact absurd opens noBracket
    · exact .done ⟨p, stands, rfl⟩
termination_by fuel

theorem arguments_follows {fuel nesting : Nat} (p : Nat) {bound : Nat} {reversed : List Expr}
    {before : (cursorAt preferDecimal text p).size < bound} {s : State}
    (stands : s.Stands preferDecimal text p) (room : (cursorAt preferDecimal text p).size < nesting)
    (enough : 10 * (cursorAt preferDecimal text p).size + 10 ≤ fuel) :
    Follows s (arguments preferDecimal text fuel reversed)
      (Expr.arguments nesting bound reversed (cursorAt preferDecimal text p) before)
      (Arrives preferDecimal text) := by
  obtain ⟨left, spent⟩ := Nat.exists_eq_add_one.mpr (show 0 < fuel by omega)
  rw [spent]
  rw [Expr.arguments.eq_def, arguments]
  apply Follows.current
  rw [stands.lexeme]
  split
  · apply Follows.reads stands
    intro shorter s' leads stands'
    exact .done ⟨_, stands', rfl⟩
  split
  · exact .refuse .closingBracketExpected stands
  apply Follows.nests room
  intro inner room'
  apply (inside_follows .argument p stands room' (by omega)).bind
  rintro ⟨⟨e, c⟩, shorter⟩ a s' leads ⟨q, stands', ⟨⟩⟩
  apply (separator_follows stands').bind
  rintro ⟨c, shorter'⟩ _ s'' leads' ⟨q', stands'', rfl⟩
  have less : (cursorAt preferDecimal text q').size < (cursorAt preferDecimal text p).size :=
    Nat.lt_of_le_of_lt shorter' shorter
  apply Follows.finishes _ stands stands'' (leads.trans leads') less
  intro s₃ _ stands₃
  exact arguments_follows q' stands₃ (by omega) (by omega)
termination_by fuel

theorem inside_follows {fuel nesting : Nat} (construct : Activity) (p : Nat) {s : State}
    (stands : s.Stands preferDecimal text p) (room : (cursorAt preferDecimal text p).size ≤ nesting)
    (enough : 10 * (cursorAt preferDecimal text p).size + 9 ≤ fuel) :
    Follows s (inside preferDecimal text fuel construct)
      (Expr.ofRank nesting loosestRank (cursorAt preferDecimal text p))
      (Arrives preferDecimal text) := by
  obtain ⟨left, spent⟩ := Nat.exists_eq_add_one.mpr (show 0 < fuel by omega)
  rw [spent]
  rw [inside, ← bind_pure (Expr.ofRank nesting loosestRank (cursorAt preferDecimal text p))]
  apply Follows.current
  apply (ofRank_follows loosestRank p stands room (by unfold loosestRank; omega)).bind
  rintro ⟨⟨e, c⟩, shorter⟩ a s' leads ⟨q, stands', ⟨⟩⟩
  apply Follows.finishes construct stands stands' leads shorter
  intro s'' leads' stands''
  exact .done ⟨q, stands'', rfl⟩
termination_by fuel

end

theorem whole_follows {fuel nesting : Nat} (stands : s.Stands preferDecimal text 0)
    (room : text.length ≤ nesting) (enough : 10 * text.length + 8 ≤ fuel) :
    Follows s (whole preferDecimal text fuel) (Expr.ofText preferDecimal text nesting)
      fun e a _ => e = a := by
  obtain ⟨bound, begin⟩ := read_succeeds (List.drop_zero (l := text.toList)).symm stands.readable
  rw [Expr.ofText, begin]
  rw [String.length_toList] at bound
  apply (ofRank_follows loosestRank 0 stands (Nat.le_trans bound room)
    (by unfold loosestRank; omega)).bind
  rintro ⟨⟨e, c⟩, shorter⟩ a s' leads ⟨q, stands', ⟨⟩⟩
  apply Follows.current
  rw [stands'.lexeme]
  dsimp only
  split
  · exact .done rfl
  · exact .refuse .operatorExpected stands'

theorem parse_of_readable (fuel : Nat) (readable : Readable preferDecimal text 0) :
    parse preferDecimal text fuel = whole preferDecimal text fuel
      ⟨Token.scan preferDecimal text 0, (Token.scan preferDecimal text 0).stop, 0, []⟩ :=
  bind_of_ok (advance_of_readable readable)

theorem parse_of_fault (fuel : Nat) {fault : LexicalFault}
    (lexeme : (Token.scan preferDecimal text 0).lexeme = .error fault) :
    parse preferDecimal text fuel =
      some (.error ((cursorAt preferDecimal text 0).error (.lexical fault)), ⟨⟨.eof, 0, 0⟩, 0, 0, []⟩) :=
  bind_of_error (advance_of_fault lexeme)

/-- With as much nesting allowed as a text has characters, the parser meets no limit. -/
theorem parse_eq_ofText (preferDecimal : Bool) (text : String) {fuel nesting : Nat}
    (room : text.length ≤ nesting) (enough : 10 * text.length + 8 ≤ fuel) :
    ∃ s, parse preferDecimal text fuel = some (Expr.ofText preferDecimal text nesting, s) ∧
      ∀ x ∈ s.record, x.Forward := by
  rcases readable_or_fault preferDecimal text 0 with readable | ⟨fault, lexeme⟩
  · have follows := whole_follows (s := ⟨Token.scan preferDecimal text 0,
      (Token.scan preferDecimal text 0).stop, 0, []⟩) ⟨readable, rfl, rfl⟩ room enough
    obtain ⟨s, ran, leads⟩ := follows.outcome
    rw [parse_of_readable fuel readable]
    exact ⟨s, ran, leads.forward (List.forall_mem_nil _)⟩
  · have refused : Expr.ofText preferDecimal text nesting =
        .error ((cursorAt preferDecimal text 0).error (.lexical fault)) := by
      rw [Expr.ofText, read_fails (List.drop_zero (l := text.toList)).symm lexeme]
      rfl
    rw [parse_of_fault fuel lexeme, refused]
    exact ⟨_, rfl, List.forall_mem_nil _⟩

/-- The parser comes to an end on every text, with calls that go no deeper than a multiple of the number of
    its characters. Every token that it has read behind the first, every iteration of a loop and every
    descent into a construct that is over has consumed a token and gone forward in the text. The outcome is
    the one under every nesting limit that is not met, and a limit of as many constructs as the text has
    characters never is. -/
theorem parse_ends_forward (preferDecimal : Bool) (text : String) :
    ∃ outcome,
      (∀ fuel, 10 * text.length + 8 ≤ fuel → ∃ s, parse preferDecimal text fuel = some (outcome, s) ∧
        ∀ x ∈ s.record, 0 < x.consumed ∧ x.before.position < x.after.position) ∧
      (∀ nesting, Expr.ofText preferDecimal text nesting = outcome ∨
        ∃ c, Expr.ofText preferDecimal text nesting = .error (Expr.tooDeep c)) ∧
      ∀ nesting, text.length ≤ nesting → Expr.ofText preferDecimal text nesting = outcome := by
  have unlimited : ∀ nesting, text.length ≤ nesting → Expr.ofText preferDecimal text nesting =
      Expr.ofText preferDecimal text text.length := by
    intro nesting room
    obtain ⟨s, ran, -⟩ := parse_eq_ofText preferDecimal text (Nat.le_refl _) (Nat.le_refl _)
    obtain ⟨s', ran', -⟩ := parse_eq_ofText preferDecimal text room (Nat.le_refl _)
    exact (Prod.mk.inj (Option.some.inj (ran'.symm.trans ran))).1
  refine ⟨Expr.ofText preferDecimal text text.length, fun fuel enough =>
    parse_eq_ofText preferDecimal text (Nat.le_refl _) enough, fun nesting => ?_, unlimited⟩
  rcases Nat.le_total nesting text.length with less | room
  · exact Expr.ofText_limited less preferDecimal text
  · exact .inl (unlimited nesting room)

example : (parse true "f(a,2)" 68).map (fun r =>
    r.2.record.reverse.map fun x => (x.activity, x.before.position, x.after.position)) =
      some [(.advance, 0, 1), (.advance, 1, 2), (.opening, 1, 2), (.advance, 2, 3), (.argument, 2, 3),
        (.advance, 3, 4), (.argumentIteration, 2, 4), (.advance, 4, 5), (.argument, 4, 5),
        (.argumentIteration, 4, 5), (.advance, 5, 6)] := by
  cbv

end Reckoner.Descent
