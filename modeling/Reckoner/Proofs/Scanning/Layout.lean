import Reckoner.Proofs.Grammar.Rules
import Reckoner.Proofs.Scanning.Cut
import Reckoner.Proofs.Scanning.Tiling

namespace Reckoner

open Text Grammar

theorem Symbol.single_of_read? {c : Char} {cs : List Char} {s : Symbol} {n : Nat}
    (alone : s ∉ [power, root, shiftLeft, shiftRight]) (found : read? c cs = some (s, n)) :
    single? c = some s ∧ n = 1 := by
  unfold read? at found
  split at found
  · rename_i s' double
    cases found
    obtain ⟨d, -, double⟩ := Option.bind_eq_some_iff.mp double
    unfold double? at double
    split at double <;> cases double <;> exact absurd (by decide) alone
  · obtain ⟨s', single, same⟩ := Option.map_eq_some_iff.mp found
    cases same
    exact ⟨single, rfl⟩

theorem Symbol.single?_inj {c d : Char} {s : Symbol} (first : single? c = some s)
    (second : single? d = some s) : c = d := by
  unfold single? at first
  split at first <;> cases first
  all_goals
    unfold single? at second
    split at second <;> cases second
    rfl

namespace Lexeme

variable {preferDecimal : Bool}

theorem read_semicolon (cs : List Char) : read preferDecimal ';' cs = (.symbol .semicolon, 1) := by
  have single : Symbol.read? ';' cs = some (.semicolon, 1) := by
    cases cs <;> rfl
  have unnumbered : ¬ Literal.startsNumber ';' cs = true := Bool.eq_false_iff.mp rfl
  rw [read, if_neg unnumbered, if_neg (by decide), single]

theorem symbol_of_read {c : Char} {cs : List Char} {s : Symbol}
    (symbol : (read preferDecimal c cs).1 = .symbol s) :
    Symbol.read? c cs = some (s, (read preferDecimal c cs).2) := by
  have unnumbered : ¬ Literal.startsNumber c cs = true := fun number => by
    rw [read, if_pos number] at symbol
    rcases Literal.read_reading preferDecimal (c :: cs) with ⟨v, lexeme⟩ | ⟨fault, lexeme⟩
    · cases symbol.symm.trans lexeme
    · cases symbol.symm.trans lexeme
  rw [read, if_neg unnumbered] at symbol ⊢
  split at symbol
  · cases symbol
  rename_i noName
  rw [if_neg noName]
  cases found : Symbol.read? c cs with
  | none =>
    rw [found] at symbol
    cases symbol
  | some pair =>
    rw [found] at symbol
    cases symbol
    rfl

theorem comma_of_read {c : Char} {cs : List Char} (comma : (read preferDecimal c cs).1 = .symbol .comma) :
    c = ',' ∧ (read preferDecimal c cs).2 = 1 := by
  obtain ⟨single, one⟩ := Symbol.single_of_read? (by decide) (symbol_of_read comma)
  exact ⟨Symbol.single?_inj single rfl, one⟩

end Lexeme

namespace Layout

/-- White space in the place of other white space or of none. -/
structure Spaced (ws ws' : List Char) : Prop where
  before : ∀ c ∈ ws, isSpace c = true
  after : ∀ c ∈ ws', isSpace c = true
  kept : ws' = [] → ws = []

def Respelled (t : Token) (us us' : List Char) : Prop :=
  us.length = t.length ∧ (us' = us ∨ t.lexeme = .symbol .comma ∧ us = [','] ∧ us' = [';'])

/-- Characters that stand at a position and are these tokens, and other characters that lay the same
    tokens out. -/
inductive Relaid : Nat → List Token → List Char → List Char → Prop
  | done {p : Nat} {ws ws' : List Char} (gap : Spaced ws ws') : Relaid p [] ws ws'
  | token {p : Nat} {t : Token} {ts : List Token} {ws ws' us us' cs cs' : List Char} (gap : Spaced ws ws')
      (there : t.position = p + ws.length) (spelled : Respelled t us us')
      (rest : Relaid t.stop ts cs cs') : Relaid p (t :: ts) (ws ++ (us ++ cs)) (ws' ++ (us' ++ cs'))

section

variable {p : Nat} {t : Token} {ts : List Token} {cs cs' ws ws' : List Char}

theorem Relaid.cut (relaid : Relaid p ts cs cs') :
    cs' = cs ∨ ∃ n, Cut n cs cs' ∧ (n = 0 ∨ ∀ t ∈ ts.head?, t.stop ≤ p + n) := by
  have begins {ws ws' es ds : List Char} (gap : Spaced ws ws') (filled : ws' ≠ []) :
      Cut 0 es (ws' ++ ds) := by
    obtain ⟨c, rest, rfl⟩ := List.exists_cons_of_ne_nil filled
    exact .here (Bool.or_eq_true_iff.mpr (.inl (isBlank_of_isSpace (gap.after c List.mem_cons_self)))) ..
  induction relaid with
  | @done p ws ws' gap =>
    by_cases none : ws' = []
    · exact .inl (none.trans (gap.kept none).symm)
    · exact .inr ⟨0, List.append_nil ws' ▸ begins gap none, .inl rfl⟩
  | @token p t ts ws ws' us us' cs cs' gap there spelled rest ih =>
    by_cases none : ws' = []
    · obtain rfl := gap.kept none
      subst none
      obtain ⟨length, rfl | ⟨-, rfl, rfl⟩⟩ := spelled
      · rcases ih with rfl | ⟨n, cut, -⟩
        · exact .inl rfl
        · refine .inr ⟨_, cut.append us', .inr fun u first => ?_⟩
          obtain rfl := Option.some.inj first
          rw [Token.stop, there, length, List.length_nil]
          omega
      · exact .inr ⟨0, .here rfl .., .inl rfl⟩
    · exact .inr ⟨0, begins gap none, .inl rfl⟩

theorem Spaced.refl (blank : ∀ c ∈ ws, isSpace c = true) : Spaced ws ws := ⟨blank, blank, id⟩

theorem Spaced.append {vs : List Char} (gap : Spaced ws ws') (blank : ∀ c ∈ vs, isSpace c = true) :
    Spaced ws (ws' ++ vs) :=
  ⟨gap.before, fun c member => (List.mem_append.mp member).elim (gap.after c) (blank c),
    fun none => gap.kept (List.append_eq_nil_iff.mp none).1⟩

theorem Spaced.prepend {vs : List Char} (gap : Spaced ws ws') (blank : ∀ c ∈ vs, isSpace c = true) :
    Spaced ws (vs ++ ws') :=
  ⟨gap.before, fun c member => (List.mem_append.mp member).elim (blank c) (gap.after c),
    fun none => gap.kept (List.append_eq_nil_iff.mp none).2⟩

theorem Relaid.prepend {vs : List Char} (relaid : Relaid p ts cs cs') (blank : ∀ c ∈ vs, isSpace c = true) :
    Relaid p ts cs (vs ++ cs') := by
  cases relaid with
  | done gap => exact .done (gap.prepend blank)
  | token gap there spelled rest =>
    rw [← List.append_assoc vs]
    exact .token (gap.prepend blank) there spelled rest

theorem Relaid.lexeme {preferDecimal : Bool} {c : Char} {vs : List Char} (rest : Relaid p ts cs cs')
    (covers : (Lexeme.read preferDecimal c (vs ++ cs)).2 = vs.length + 1) :
    Lexeme.read preferDecimal c (vs ++ cs') = Lexeme.read preferDecimal c (vs ++ cs) := by
  rcases rest.cut with rfl | ⟨n, cut, -⟩
  · rfl
  · refine (cut.append vs).lexeme preferDecimal c ?_
    rw [covers]
    omega

theorem Relaid.comma {preferDecimal : Bool} (rest : Relaid p ts cs cs')
    (covers : ∃ t ∈ ts.head?, p + (Lexeme.read preferDecimal ',' cs).2 ≤ t.stop + 1) :
    Lexeme.read preferDecimal ',' cs' = Lexeme.read preferDecimal ',' cs ∨
      Lexeme.read preferDecimal ',' cs' = (.symbol .comma, 1) := by
  rcases rest.cut with rfl | ⟨n, cut, rfl | below⟩
  · exact .inl rfl
  · cases cut with
    | here delimiter => exact .inr (Lexeme.read_comma preferDecimal (isDigit_of_isDelimiter delimiter))
  · obtain ⟨t, first, reaches⟩ := covers
    have within := below t first
    exact .inl (cut.lexeme preferDecimal ',' (by omega))

end

variable {preferDecimal : Bool} {text text' : String} {p q p' : Nat} {ts : List Token}

def Looks (preferDecimal : Bool) (text text' : String) (p p' : Nat) : Prop :=
  (Token.scan preferDecimal text' p').lexeme = (Token.scan preferDecimal text p).lexeme ∧
    (CommaFraction text' (Token.scan preferDecimal text' p') ↔
      CommaFraction text (Token.scan preferDecimal text p))

/-- From two positions on two texts can be read alike as these tokens of the first one: by tokens that look
    the same, by the comma alone of two comma fractions, or by a comma and by a separator in its place. -/
inductive Alike (preferDecimal : Bool) (text text' : String) : Nat → List Token → Nat → Prop
  | done {p p' : Nat} (ends : (Token.scan preferDecimal text p).lexeme = .eof)
      (ends' : (Token.scan preferDecimal text' p').lexeme = .eof) : Alike preferDecimal text text' p [] p'
  | token {p p' : Nat} {t : Token} {ts : List Token} (same : Looks preferDecimal text text' p p')
      (scanned : Token.scan preferDecimal text p = t)
      (rest : Alike preferDecimal text text' t.stop ts (Token.scan preferDecimal text' p').stop) :
      Alike preferDecimal text text' p (t :: ts) p'
  | comma {p p' : Nat} {t : Token} {ts : List Token} (same : Looks preferDecimal text text' p p')
      (symbol : t.lexeme = .symbol .comma)
      (fraction : CommaFraction text (Token.scan preferDecimal text p))
      (rest : Alike preferDecimal text text' t.stop ts ((Token.scan preferDecimal text' p').position + 1)) :
      Alike preferDecimal text text' p (t :: ts) p'
  | separator {p p' : Nat} {s : Symbol} {t : Token} {ts : List Token} (symbol : t.lexeme = .symbol .comma)
      (shown : Token.scan preferDecimal text p = t ∨
        CommaFraction text (Token.scan preferDecimal text p))
      (separator : s ∈ separators) (shown' : (Token.scan preferDecimal text' p').lexeme = .symbol s)
      (rest : Alike preferDecimal text text' t.stop ts (Token.scan preferDecimal text' p').stop) :
      Alike preferDecimal text text' p (t :: ts) p'

theorem begins_behind_blanks (preferDecimal : Bool) {ws cs : List Char} {c : Char}
    (blank : ∀ c ∈ ws, isSpace c = true) (visible : isSpace c = false)
    (here : text.toList.drop p = ws ++ c :: cs) :
    text.toList.drop (Token.scan preferDecimal text p).position = c :: cs := by
  rw [Token.position_eq, here, List.takeWhile_append_of_pos blank,
    List.takeWhile_cons_of_neg (Bool.eq_false_iff.mp visible), List.append_nil, ← List.drop_drop, here,
    List.drop_left]

theorem eof_behind_blanks (blank : ∀ c ∈ text.toList.drop p, isSpace c = true) :
    (Token.scan preferDecimal text p).lexeme = .eof := by
  have behind := Token.read_behind_blanks preferDecimal (p := p) blank []
  rw [List.append_nil] at behind
  rw [Token.scan, behind]
  rfl

theorem length_of_here {c : Char} {cs : List Char}
    (here : text.toList.drop (Token.scan preferDecimal text p).position = c :: cs) :
    (Token.scan preferDecimal text p).length = (Lexeme.read preferDecimal c cs).2 :=
  congrArg Token.length (Token.scan_of_here preferDecimal text p here)

theorem looks_of_same {c : Char} {cs cs' : List Char}
    (here : text.toList.drop (Token.scan preferDecimal text p).position = c :: cs)
    (here' : text'.toList.drop (Token.scan preferDecimal text' p').position = c :: cs')
    (same : Lexeme.read preferDecimal c cs' = Lexeme.read preferDecimal c cs) :
    Looks preferDecimal text text' p p' ∧
      (Token.scan preferDecimal text' p').length = (Token.scan preferDecimal text p).length := by
  have scanned := Token.scan_of_here preferDecimal text p here
  have scanned' := Token.scan_of_here preferDecimal text' p' here'
  have lexeme : (Token.scan preferDecimal text' p').lexeme = (Token.scan preferDecimal text p).lexeme := by
    rw [scanned, scanned', same]
  have first : text'.toList[(Token.scan preferDecimal text' p').position]? =
      text.toList[(Token.scan preferDecimal text p).position]? := by
    rw [← List.head?_drop, ← List.head?_drop, here, here']
    rfl
  refine ⟨⟨lexeme, ?_⟩, ?_⟩
  · rw [CommaFraction, CommaFraction, lexeme, first]
  · rw [length_of_here here, length_of_here here', same]

theorem first_behind_comma {cs : List Char}
    (fraction : CommaFraction text (Token.scan preferDecimal text p))
    (here : text.toList.drop (Token.scan preferDecimal text p).position = ',' :: cs)
    (reads : Reads preferDecimal text ((Token.scan preferDecimal text p).position + 1) ts q)
    (ends : (Token.scan preferDecimal text q).lexeme = .eof) :
    ∃ t ∈ ts.head?, (Token.scan preferDecimal text p).position + 1 +
      (Lexeme.read preferDecimal ',' cs).2 ≤ t.stop + 1 := by
  obtain ⟨-, more, -, further, single⟩ := fraction.behind
  rw [Token.stop, length_of_here here] at further
  cases reads with
  | done => exact absurd ends more
  | token scanned => exact ⟨_, rfl, by rw [← scanned]; omega⟩
  | comma scanned fraction' => exact absurd (scanned ▸ fraction') single

theorem drop_stop {us cs : List Char}
    (begins : text.toList.drop (Token.scan preferDecimal text p).position = us ++ cs)
    (length : us.length = (Token.scan preferDecimal text p).length) :
    text.toList.drop (Token.scan preferDecimal text p).stop = cs := by
  rw [Token.stop, ← length, ← List.drop_drop, begins, List.drop_left]

theorem symbol_shown {c : Char} {cs : List Char} {s : Symbol}
    (begins : text.toList.drop (Token.scan preferDecimal text p).position = c :: cs)
    (single : Lexeme.read preferDecimal c cs = (.symbol s, 1)) :
    (Token.scan preferDecimal text p).lexeme = .symbol s ∧
      text.toList.drop (Token.scan preferDecimal text p).stop = cs := by
  have scanned := Token.scan_of_here preferDecimal text p begins
  rw [single] at scanned
  have begins : text.toList.drop (Token.scan preferDecimal text p).position = [c] ++ cs := begins
  exact ⟨by rw [scanned], drop_stop begins (by rw [scanned]; rfl)⟩

theorem chars_of_token {ws us cs : List Char} (more : (Token.scan preferDecimal text p).lexeme ≠ .eof)
    (here : text.toList.drop p = ws ++ (us ++ cs))
    (there : (Token.scan preferDecimal text p).position = p + ws.length)
    (length : us.length = (Token.scan preferDecimal text p).length) :
    ∃ c vs, us = c :: vs ∧ isSpace c = false ∧
      text.toList.drop (Token.scan preferDecimal text p).position = c :: (vs ++ cs) := by
  rcases Token.scan_cases preferDecimal text p with ⟨none, -, -⟩ | ⟨c, ds, begins, visible, -, -⟩
  · exact absurd none more
  obtain ⟨d, vs, rfl⟩ := List.exists_cons_of_length_pos
    (length ▸ Token.length_pos_of_ne_eof preferDecimal text p more)
  have whole : c :: ds = d :: (vs ++ cs) := by
    rw [← begins, there, ← List.drop_drop, here, List.drop_left]
    rfl
  obtain ⟨rfl, rfl⟩ := List.cons.inj whole
  exact ⟨c, vs, rfl, visible, begins⟩

/-- A text is read alike in another layout of the tokens that it is read as. -/
theorem alike_of_relaid (reads : Reads preferDecimal text p ts q)
    (ends : (Token.scan preferDecimal text q).lexeme = .eof)
    (relaid : Relaid p ts (text.toList.drop p) (text'.toList.drop p')) :
    Alike preferDecimal text text' p ts p' := by
  generalize here : text.toList.drop p = cs at relaid
  generalize here' : text'.toList.drop p' = cs' at relaid
  induction reads generalizing p' cs cs' with
  | done p =>
    cases relaid with
    | done gap =>
      subst here'
      exact .done ends (eof_behind_blanks gap.after)
  | @token p q t ts scanned more valid rest ih =>
    subst scanned
    cases relaid with
    | @token _ _ _ ws ws' us us' cs cs' gap there spelled rest' =>
      obtain ⟨length, spelling⟩ := spelled
      obtain ⟨c, vs, rfl, visible, begins⟩ := chars_of_token more here there length
      have behind := drop_stop begins length
      rcases spelling with rfl | ⟨symbol, comma, rfl⟩
      · have begins' := begins_behind_blanks preferDecimal gap.after visible here'
        have same := rest'.lexeme ((length_of_here begins).symm.trans length.symm)
        obtain ⟨looks, length'⟩ := looks_of_same begins begins' same
        exact .token looks rfl (ih ends _ behind _ (drop_stop begins' (length.trans length'.symm)) rest')
      · obtain ⟨rfl, rfl⟩ := List.cons.inj comma
        have begins' := begins_behind_blanks preferDecimal gap.after rfl here'
        obtain ⟨shown, behind'⟩ := symbol_shown begins' (Lexeme.read_semicolon cs')
        exact .separator symbol (.inl rfl) (by decide) shown (ih ends _ behind _ behind' rest')
  | @comma p q t ts scanned fraction rest ih =>
    subst scanned
    cases relaid with
    | @token _ _ _ ws ws' us us' cs cs' gap there spelled rest' =>
      obtain ⟨length, spelling⟩ := spelled
      obtain ⟨ds, begins, digit⟩ := fraction.here
      obtain ⟨c, rfl⟩ := List.length_eq_one_iff.mp length
      have whole : ',' :: ds = [c] ++ cs := by
        rw [← begins, there, ← List.drop_drop, here, List.drop_left]
      obtain ⟨rfl, rfl⟩ := List.cons.inj whole
      have behind : text.toList.drop ((Token.scan preferDecimal text p).position + 1) = ds := by
        rw [← List.drop_drop, begins]
        rfl
      rcases spelling with rfl | ⟨-, -, rfl⟩
      · -- white space behind the comma makes it a symbol; farther on the fraction is all there
        have begins' := begins_behind_blanks preferDecimal gap.after rfl here'
        rcases rest'.comma (first_behind_comma fraction begins rest ends) with same | symbol
        · refine .comma (looks_of_same begins begins' same).1 rfl fraction (ih ends _ behind _ ?_ rest')
          rw [← List.drop_drop, begins']
          rfl
        · obtain ⟨shown, behind'⟩ := symbol_shown begins' symbol
          exact .separator rfl (.inr fraction) (by decide) shown (ih ends _ behind _ behind' rest')
      · have begins' := begins_behind_blanks preferDecimal gap.after rfl here'
        obtain ⟨shown, behind'⟩ := symbol_shown begins' (Lexeme.read_semicolon cs')
        exact .separator rfl (.inr fraction) (by decide) shown (ih ends _ behind _ behind' rest')

theorem split_blanks (preferDecimal : Bool) (text : String) (p : Nat) : text.toList.drop p =
    (text.toList.drop p).takeWhile isSpace ++
      text.toList.drop (Token.scan preferDecimal text p).position := by
  rw [Token.position_eq, ← List.drop_drop, drop_length_takeWhile, List.takeWhile_append_dropWhile]

theorem chars_of_reads {t : Token} (reads : Reads preferDecimal text p (t :: ts) q) :
    ∃ ws us, (∀ c ∈ ws, isSpace c = true) ∧ t.position = p + ws.length ∧ us.length = t.length ∧
      (t.lexeme = .symbol .comma → us = [',']) ∧
      text.toList.drop p = ws ++ (us ++ text.toList.drop t.stop) ∧ Reads preferDecimal text t.stop ts q := by
  have blank := List.all_eq_true.mp (List.all_takeWhile (l := text.toList.drop p) (p := isSpace))
  have split := split_blanks preferDecimal text p
  have position := Token.position_eq preferDecimal text p
  cases reads with
  | token scanned more valid rest =>
    subst scanned
    rcases Token.scan_cases preferDecimal text p with ⟨none, -, -⟩ | ⟨c, cs, here, -, lexeme, length⟩
    · exact absurd none more
    refine ⟨_, (c :: cs).take (Token.scan preferDecimal text p).length, blank, position, ?_, fun symbol => ?_,
      ?_, rest⟩
    · have reach := Lexeme.length_read_le preferDecimal c cs
      rw [List.length_take, List.length_cons, length, Nat.min_eq_left reach]
    · obtain ⟨rfl, one⟩ := Lexeme.comma_of_read (lexeme.symm.trans symbol)
      rw [length, one]
      rfl
    · rw [Token.stop, ← List.drop_drop, here, List.take_append_drop, ← here]
      exact split
  | comma scanned fraction rest =>
    subst scanned
    obtain ⟨cs, here, -⟩ := fraction.here
    refine ⟨_, [','], blank, position, rfl, fun _ => rfl, ?_, rest⟩
    rw [Token.stop, ← List.drop_drop, here]
    rw [here] at split
    exact split

theorem relaid_of_reads (reads : Reads preferDecimal text p ts q)
    (ends : (Token.scan preferDecimal text q).lexeme = .eof) :
    Relaid p ts (text.toList.drop p) (text.toList.drop p) := by
  induction ts generalizing p with
  | nil =>
    cases reads with
    | done =>
      have split := split_blanks preferDecimal text q
      rw [List.drop_eq_nil_of_le (Token.length_le_of_eof ends), List.append_nil] at split
      rw [split]
      exact .done (.refl (List.all_eq_true.mp List.all_takeWhile))
  | cons t ts ih =>
    obtain ⟨ws, us, blank, there, length, -, here, rest⟩ := chars_of_reads reads
    rw [here]
    exact .token (.refl blank) there ⟨length, .inl rfl⟩ (ih rest)

theorem relaid_at {t : Token} (reads : Reads preferDecimal text p ts q)
    (ends : (Token.scan preferDecimal text q).lexeme = .eof) (member : t ∈ ts) :
    ∃ xs ws us cs, text.toList.drop p = xs ++ (ws ++ (us ++ cs)) ∧ (∀ c ∈ ws, isSpace c = true) ∧
      t.position = p + (xs.length + ws.length) ∧ us.length = t.length ∧
      (t.lexeme = .symbol .comma → us = [',']) ∧
      ∀ ws' us' vs, Spaced ws ws' → Respelled t us us' → (∀ c ∈ vs, isSpace c = true) →
        Relaid p ts (text.toList.drop p) (xs ++ (ws' ++ (us' ++ (vs ++ cs)))) := by
  induction ts generalizing p with
  | nil => cases member
  | cons u ts ih =>
    obtain ⟨ws, us, blank, there, length, symbol, here, rest⟩ := chars_of_reads reads
    rcases List.mem_cons.mp member with rfl | later
    · refine ⟨[], ws, us, _, here, blank, by rw [there, List.length_nil, Nat.zero_add], length, symbol,
        fun ws' us' vs gap spelled blank' => ?_⟩
      rw [here, List.nil_append]
      exact .token gap there spelled ((relaid_of_reads rest ends).prepend blank')
    · obtain ⟨xs, ws', us', cs, here', blank', there', length', symbol', changed⟩ := ih rest later
      refine ⟨ws ++ (us ++ xs), ws', us', cs, ?_, blank', ?_, length', symbol',
        fun ws' us' vs gap spelled blank => ?_⟩
      · rw [here, here', List.append_assoc, List.append_assoc]
      · rw [there', Token.stop, there, ← length, List.length_append, List.length_append]
        omega
      · rw [here, List.append_assoc, List.append_assoc]
        exact .token (.refl ‹_›) there ⟨length, .inl rfl⟩ (changed ws' us' vs gap spelled blank)

/-- A text with something put in at a position. -/
def widened (text w : String) (i : Nat) : String :=
  String.ofList (text.toList.take i ++ (w.toList ++ text.toList.drop i))

def withSemicolon (text : String) (i : Nat) : String := String.ofList (text.toList.set i ';')

theorem relaid_widened {t : Token} {w : String} {i : Nat} (spells : Spells preferDecimal text ts)
    (member : t ∈ ts) (blank : ∀ c ∈ w.toList, isSpace c = true) (place : i = t.position ∨ i = t.stop) :
    Relaid 0 ts text.toList (widened text w i).toList := by
  obtain ⟨q, reads, ends⟩ := spells
  obtain ⟨xs, ws, us, cs, here, blank', there, length, -, changed⟩ := relaid_at reads ends member
  rw [Nat.zero_add] at there
  rw [List.drop_zero] at here changed
  rw [widened, String.toList_ofList]
  rcases place with rfl | rfl
  · have before : text.toList = (xs ++ ws) ++ (us ++ cs) := by rw [here, List.append_assoc]
    have place : t.position = (xs ++ ws).length := by rw [there, List.length_append]
    have relaid := changed (ws ++ w.toList) us [] ((Spaced.refl blank').append blank) ⟨length, .inl rfl⟩
      (List.forall_mem_nil _)
    rw [place, before, List.take_left, List.drop_left, ← before]
    simpa only [List.append_assoc, List.nil_append] using relaid
  · have before : text.toList = (xs ++ ws ++ us) ++ cs := by
      rw [here, List.append_assoc, List.append_assoc]
    have place : t.stop = (xs ++ ws ++ us).length := by
      rw [Token.stop, there, List.length_append, List.length_append, length]
    have relaid := changed ws us w.toList (.refl blank') ⟨length, .inl rfl⟩ blank
    rw [place, before, List.take_left, List.drop_left, ← before]
    simpa only [List.append_assoc] using relaid

theorem relaid_withSemicolon {t : Token} (spells : Spells preferDecimal text ts) (member : t ∈ ts)
    (comma : t.lexeme = .symbol .comma) : text.toList[t.position]? = some ',' ∧
      Relaid 0 ts text.toList (withSemicolon text t.position).toList := by
  obtain ⟨q, reads, ends⟩ := spells
  obtain ⟨xs, ws, us, cs, here, blank, there, length, symbol, changed⟩ := relaid_at reads ends member
  obtain rfl := symbol comma
  rw [Nat.zero_add] at there
  rw [List.drop_zero] at here changed
  have before : text.toList = (xs ++ ws) ++ ',' :: cs := by rw [here, List.append_assoc]; rfl
  have place : t.position = (xs ++ ws).length := by rw [there, List.length_append]
  have relaid := changed ws [';'] [] (.refl blank) ⟨length, .inr ⟨comma, rfl, rfl⟩⟩ (List.forall_mem_nil _)
  refine ⟨by rw [place, before, List.getElem?_append_right (Nat.le_refl _), Nat.sub_self]; rfl, ?_⟩
  rw [withSemicolon, String.toList_ofList, place]
  have changedText : text.toList.set (xs ++ ws).length ';' = (xs ++ ws) ++ ';' :: cs := by
    rw [before, List.set_append_right _ _ (Nat.le_refl _), Nat.sub_self]
    rfl
  rw [changedText]
  simpa only [List.append_assoc, List.nil_append, List.cons_append] using relaid

end Layout

end Reckoner
