import Reckoner.Proofs.Grammar.Reading

namespace Reckoner

open Text

namespace Literal

theorem length_takeWhile_add_dropWhile (f : Char → Bool) (cs : List Char) :
    (cs.takeWhile f).length + (cs.dropWhile f).length = cs.length := by
  rw [← List.length_append, List.takeWhile_append_dropWhile]

theorem length_fractionDigits_lt {cs : List Char} (some : fractionDigits cs ≠ []) :
    (fractionDigits cs).length < cs.length := by
  cases cs with
  | nil => exact absurd rfl some
  | cons c cs =>
    rw [fractionDigits] at some ⊢
    split at some
    · rename_i starts
      rw [if_pos starts]
      exact Nat.lt_succ_of_le (List.takeWhile_prefix _).length_le
    · exact absurd rfl some

theorem Mantissa.length_ofChars_le (cs : List Char) : (ofChars cs).length ≤ cs.length := by
  have whole := length_takeWhile_add_dropWhile Char.isDigit cs
  rw [Mantissa.length]
  split
  · exact (List.takeWhile_prefix _).length_le
  · rename_i some
    have fraction := length_fractionDigits_lt (mt List.isEmpty_iff.mpr some)
    simp only [ofChars]
    omega

theorem length_exponentRun_le (value : Nat) (cs : List Char) :
    (exponentRun value cs).2 ≤ cs.length := by
  fun_induction exponentRun value cs with
  | case1 => exact Nat.le_refl 0
  | case2 => exact Nat.succ_le_succ (Nat.zero_le _)
  | case3 _ _ _ _ _ _ _ _ run ih =>
    rw [run] at ih
    exact Nat.succ_le_succ ih
  | case4 => exact Nat.zero_le _

theorem exponentRun_of_other {cs : List Char} (value : Nat) (other : startsWithDigit cs = false) :
    exponentRun value cs = (value, 0) := by
  cases cs with
  | nil => rfl
  | cons c cs => exact if_neg (Bool.eq_false_iff.mp other)

theorem exponentRun_pos {cs : List Char} (value : Nat) (digit : startsWithDigit cs = true) :
    0 < (exponentRun value cs).2 := by
  cases cs with
  | nil => cases digit
  | cons c cs =>
    have digit : c.isDigit = true := digit
    rw [exponentRun, if_pos digit]
    dsimp only
    split
    · exact Nat.one_pos
    · exact Nat.succ_pos _

def Exponent.length : Exponent → Nat
  | .none => 0
  | .given _ n => n
  | .fault _ n => n

theorem Exponent.length_ofChars {c : Char} {cs : List Char} (mark : (c == 'e' || c == 'E') = true) :
    (ofChars (c :: cs)).length = 1 + (cs.length - (takeSign cs).2.length) +
      (exponentRun 0 (takeSign cs).2).2 := by
  simp only [ofChars, mark, if_true]
  split
  · rename_i none
    rw [none]
    rfl
  · split <;> rfl

theorem patternRun_of_le {bits value digits length : Nat} {cs : List Char}
    (within : (patternRun bits value digits length cs).2 ≤ length) :
    patternRun bits value digits length cs = patternRun.finish value digits length := by
  cases cs with
  | nil => rfl
  | cons c cs =>
    rw [patternRun] at within ⊢
    split at within
    · have longer := le_patternRun_length bits value digits (length + 1) cs
      omega
    rename_i point
    rw [if_neg point]
    cases digit : digitIn? (twoTo bits) c with
    | none => rfl
    | some d =>
      rw [digit] at within
      dsimp only at within
      split at within
      · have longer := le_patternRun_length bits (value * twoTo bits + d) (digits + 1) (length + 1) cs
        omega
      · exact absurd within (Nat.not_succ_le_self length)

theorem read_of_mark {preferDecimal : Bool} {c : Char} {cs : List Char} {bits : Nat}
    (mark : prefixBits? c = some bits) :
    read preferDecimal ('0' :: c :: cs) = patternRun bits 0 0 2 cs := by
  rw [read, mark]

theorem read_of_unmarked {preferDecimal : Bool} {cs : List Char}
    (unmarked : ∀ d es, cs = '0' :: d :: es → prefixBits? d = none) :
    read preferDecimal cs = decimal preferDecimal cs := by
  unfold read
  split
  · rename_i d es
    rw [unmarked d es rfl]
  · rfl

theorem ofChars_of_separator {c : Char} {cs : List Char} (separator : isSeparator c = true) :
    Mantissa.ofChars (c :: cs) = ⟨[], fractionDigits (c :: cs)⟩ := by
  have other : ¬ c.isDigit = true := by
    intro digit
    simp only [isSeparator, Bool.or_eq_true, beq_iff_eq] at separator
    rcases separator with rfl | rfl <;> cases digit
  rw [Mantissa.ofChars, List.takeWhile_cons_of_neg other, List.dropWhile_cons_of_neg other]

theorem read_of_separator {preferDecimal : Bool} {c : Char} {cs : List Char}
    (separator : isSeparator c = true) :
    read preferDecimal (c :: cs) = decimal preferDecimal (c :: cs) := by
  refine read_of_unmarked fun d es same => ?_
  obtain ⟨rfl, rfl⟩ := List.cons.inj same
  cases separator

theorem length_takeSign_le (cs : List Char) : (takeSign cs).2.length ≤ cs.length := by
  unfold takeSign
  split
  · exact Nat.le_succ _
  · exact Nat.le_succ _
  · exact Nat.le_refl _

theorem Exponent.length_ofChars_le (cs : List Char) : (ofChars cs).length ≤ cs.length := by
  cases cs with
  | nil => exact Nat.le_refl 0
  | cons c cs =>
    cases mark : c == 'e' || c == 'E' with
    | false =>
      have none : ofChars (c :: cs) = .none := if_neg (Bool.eq_false_iff.mp mark)
      rw [none]
      exact Nat.zero_le _
    | true =>
      have run := length_exponentRun_le 0 (takeSign cs).2
      have sign := length_takeSign_le cs
      rw [length_ofChars mark, List.length_cons]
      omega

theorem length_patternRun_le (bits value digits length : Nat) (cs : List Char) :
    (patternRun bits value digits length cs).2 ≤ length + cs.length := by
  have finish (value digits length : Nat) : (patternRun.finish value digits length).2 = length := by
    unfold patternRun.finish
    split <;> rfl
  fun_induction patternRun bits value digits length cs with
  | case1 value digits length => exact Nat.le_of_eq (finish value digits length)
  | case2 _ _ _ _ ih =>
    rw [List.length_cons]
    omega
  | case3 value digits length =>
    rw [finish]
    exact Nat.le_add_right ..
  | case4 _ _ _ _ _ _ _ _ _ ih =>
    rw [List.length_cons]
    omega
  | case5 =>
    rw [List.length_cons]
    omega

theorem length_decimal (preferDecimal : Bool) (cs : List Char) :
    (decimal preferDecimal cs).2 = (Mantissa.ofChars cs).length +
      (Exponent.ofChars (cs.drop (Mantissa.ofChars cs).length)).length := by
  unfold decimal
  dsimp only
  split
  · rename_i none
    rw [none]
    rfl
  · rename_i given
    rw [given]
    rfl
  · rename_i fault
    rw [fault]
    rfl

theorem mantissa_of_separator {c : Char} {cs : List Char} (separator : isSeparator c = true)
    (digit : startsWithDigit cs = true) :
    Mantissa.ofChars (c :: cs) = ⟨[], cs.takeWhile Char.isDigit⟩ ∧ cs.takeWhile Char.isDigit ≠ [] ∧
      (Mantissa.ofChars (c :: cs)).length = (cs.takeWhile Char.isDigit).length + 1 := by
  have digits : fractionDigits (c :: cs) = cs.takeWhile Char.isDigit :=
    if_pos (Bool.and_eq_true_iff.mpr ⟨separator, digit⟩)
  have filled := fractionDigits_ne_nil separator digit
  rw [digits] at filled
  rw [ofChars_of_separator separator, digits, Mantissa.length, if_neg (mt List.isEmpty_iff.mp filled)]
  refine ⟨rfl, filled, ?_⟩
  rw [List.length_nil, Nat.zero_add, Nat.add_comm]

theorem two_le_read_of_separator (preferDecimal : Bool) {c : Char} {cs : List Char}
    (separator : isSeparator c = true) (digit : startsWithDigit cs = true) :
    2 ≤ (read preferDecimal (c :: cs)).2 := by
  obtain ⟨-, some, length⟩ := mantissa_of_separator separator digit
  have filled := List.length_pos_iff.mpr some
  rw [read_of_separator separator, length_decimal, length]
  omega

theorem length_read_le (preferDecimal : Bool) (cs : List Char) :
    (read preferDecimal cs).2 ≤ cs.length := by
  have decimal : (decimal preferDecimal cs).2 ≤ cs.length := by
    have mantissa := Mantissa.length_ofChars_le cs
    have exponent := Exponent.length_ofChars_le (cs.drop (Mantissa.ofChars cs).length)
    rw [List.length_drop] at exponent
    rw [length_decimal]
    omega
  unfold read
  split
  · rename_i c cs
    cases mark : prefixBits? c with
    | none => exact decimal
    | some bits =>
      have run := length_patternRun_le bits 0 0 2 cs
      simp only [List.length_cons]
      omega
  · exact decimal

theorem letter_of_mark {c : Char} {bits : Nat} (mark : prefixBits? c = some bits) :
    c.isDigit = false ∧ (c == 'e' || c == 'E') = false := by
  simp only [prefixBits?, Bool.or_eq_true, beq_iff_eq] at mark
  split at mark
  · rename_i letter
    rcases letter with rfl | rfl <;> decide
  split at mark
  · rename_i letter
    rcases letter with rfl | rfl <;> decide
  split at mark
  · rename_i letter
    rcases letter with rfl | rfl <;> decide
  · cases mark

theorem exponent_of_fraction {cs : List Char} (fraction : fractionDigits cs ≠ []) :
    Exponent.ofChars cs = .none := by
  cases cs with
  | nil => rfl
  | cons c cs =>
    refine if_neg fun mark => fraction (if_neg fun starts => ?_)
    have separator := (Bool.and_eq_true_iff.mp starts).1
    simp only [Bool.or_eq_true, beq_iff_eq] at mark
    rcases mark with rfl | rfl <;> cases separator

theorem pattern_or_decimal (cs : List Char) :
    (∃ d es bits, cs = '0' :: d :: es ∧ prefixBits? d = some bits) ∨
      ∀ preferDecimal, read preferDecimal cs = decimal preferDecimal cs := by
  refine (Classical.em _).imp_right fun unmarked preferDecimal => read_of_unmarked fun d es same => ?_
  cases mark : prefixBits? d with
  | none => rfl
  | some bits => exact absurd ⟨d, es, bits, same, mark⟩ unmarked

theorem zero_of_mark {c : Char} {cs : List Char} {bits : Nat} (mark : prefixBits? c = some bits) :
    ('0' :: c :: cs).takeWhile Char.isDigit = ['0'] ∧
      Exponent.ofChars (('0' :: c :: cs).dropWhile Char.isDigit) = .none := by
  obtain ⟨other, plain⟩ := letter_of_mark mark
  have other : ¬ c.isDigit = true := Bool.eq_false_iff.mp other
  rw [List.takeWhile_cons_of_pos rfl, List.takeWhile_cons_of_neg other,
    List.dropWhile_cons_of_pos rfl, List.dropWhile_cons_of_neg other]
  exact ⟨rfl, if_neg (Bool.eq_false_iff.mp plain)⟩

theorem drop_of_whole {cs : List Char} (whole : (Mantissa.ofChars cs).fraction = []) :
    cs.drop (Mantissa.ofChars cs).length = cs.dropWhile Char.isDigit := by
  have length : (Mantissa.ofChars cs).length = (cs.takeWhile Char.isDigit).length :=
    congrArg _ (if_pos (List.isEmpty_iff.mpr whole))
  rw [length, Grammar.drop_length_takeWhile]

theorem length_decimal_of_separator (preferDecimal : Bool) {c : Char} {cs : List Char}
    (separator : isSeparator c = true) (digit : startsWithDigit cs = true) :
    (decimal preferDecimal (c :: cs)).2 = (cs.takeWhile Char.isDigit).length + 1 +
      (Exponent.ofChars (cs.dropWhile Char.isDigit)).length := by
  obtain ⟨-, -, mantissa⟩ := mantissa_of_separator separator digit
  rw [length_decimal, mantissa, List.drop_succ_cons, Grammar.drop_length_takeWhile]

theorem length_decimal_le_behind (preferDecimal : Bool) {c : Char} {cs : List Char}
    (separator : isSeparator c = true) (digit : startsWithDigit cs = true) :
    (decimal preferDecimal (c :: cs)).2 ≤ (read preferDecimal cs).2 + 1 := by
  rw [length_decimal_of_separator preferDecimal separator digit]
  rcases pattern_or_decimal cs with ⟨d, es, bits, rfl, mark⟩ | decimal
  · obtain ⟨zero, none⟩ := @zero_of_mark d es bits mark
    have reaches := le_patternRun_length bits 0 0 2 es
    rw [zero, none, read_of_mark mark]
    exact Nat.le_succ_of_le reaches
  · have least : (cs.takeWhile Char.isDigit).length ≤ (Mantissa.ofChars cs).length :=
      Nat.le_add_right ..
    rw [decimal, length_decimal]
    by_cases fraction : fractionDigits (cs.dropWhile Char.isDigit) = []
    · rw [drop_of_whole fraction]
      omega
    · have none : (Exponent.ofChars (cs.dropWhile Char.isDigit)).length = 0 :=
        congrArg _ (exponent_of_fraction fraction)
      omega

/-- What a literal can be read as. -/
def Reading (l : Lexeme) : Prop := (∃ v, l = .number v) ∨ ∃ fault, l = .error fault

theorem fractionLexeme_reading (preferDecimal : Bool) (d : Decimal) :
    Reading (fractionLexeme preferDecimal d) := by
  unfold fractionLexeme
  split
  · exact .inl ⟨_, rfl⟩
  · exact .inr ⟨_, rfl⟩

theorem decimal_reading (preferDecimal : Bool) (cs : List Char) :
    Reading (decimal preferDecimal cs).1 := by
  unfold decimal mantissaLexeme
  dsimp only
  split
  · dsimp only
    split
    · exact .inl ⟨_, rfl⟩
    · exact fractionLexeme_reading ..
  · exact fractionLexeme_reading ..
  · exact .inr ⟨_, rfl⟩

theorem patternRun_reading (bits value digits length : Nat) (cs : List Char) :
    Reading (patternRun bits value digits length cs).1 := by
  have finish (value digits length : Nat) : Reading (patternRun.finish value digits length).1 := by
    unfold patternRun.finish
    split
    · exact .inr ⟨_, rfl⟩
    · exact .inl ⟨_, rfl⟩
  fun_induction patternRun bits value digits length cs with
  | case1 => exact finish ..
  | case2 _ _ _ _ ih => exact ih
  | case3 => exact finish ..
  | case4 _ _ _ _ _ _ _ _ _ ih => exact ih
  | case5 => exact .inr ⟨_, rfl⟩

theorem read_reading (preferDecimal : Bool) (cs : List Char) : Reading (read preferDecimal cs).1 := by
  unfold read
  split
  · split
    · exact patternRun_reading ..
    · exact decimal_reading ..
  · exact decimal_reading ..

end Literal

theorem Symbol.length_read?_le {c : Char} {cs : List Char} {found : Symbol × Nat}
    (symbol : read? c cs = some found) : found.2 ≤ cs.length + 1 := by
  unfold read? at symbol
  split at symbol
  · rename_i s double
    cases symbol
    cases cs with
    | nil => cases double
    | cons d cs => exact Nat.succ_le_succ (Nat.succ_le_succ (Nat.zero_le _))
  · obtain ⟨s, _, rfl⟩ := Option.map_eq_some_iff.mp symbol
    exact Nat.succ_le_succ (Nat.zero_le _)

theorem Lexeme.length_read_le (preferDecimal : Bool) (c : Char) (cs : List Char) :
    (read preferDecimal c cs).2 ≤ cs.length + 1 := by
  unfold read
  split
  · exact Literal.length_read_le preferDecimal (c :: cs)
  split
  · exact Nat.succ_le_succ (List.takeWhile_prefix _).length_le
  · cases symbol : Symbol.read? c cs with
    | none => exact Nat.succ_le_succ (Nat.zero_le _)
    | some found => exact Symbol.length_read?_le symbol

theorem Lexeme.read_ne_eof (preferDecimal : Bool) (c : Char) (cs : List Char) :
    (read preferDecimal c cs).1 ≠ .eof := by
  unfold read
  split
  · rcases Literal.read_reading preferDecimal (c :: cs) with ⟨v, number⟩ | ⟨fault, error⟩
    · rw [number]
      nofun
    · rw [error]
      nofun
  split
  · nofun
  · split
    · nofun
    · nofun

theorem Lexeme.read_comma (preferDecimal : Bool) {cs : List Char}
    (other : Literal.startsWithDigit cs = false) :
    read preferDecimal ',' cs = (.symbol .comma, 1) := by
  have single : Symbol.read? ',' cs = some (.comma, 1) := by
    cases cs <;> rfl
  have unnumbered : ¬ Literal.startsNumber ',' cs = true := Bool.eq_false_iff.mp other
  rw [read, if_neg unnumbered, if_neg (by decide), single]

namespace Token

variable (preferDecimal : Bool) (text : String) (p : Nat)

theorem position_eq : (scan preferDecimal text p).position =
    p + ((text.toList.drop p).takeWhile isSpace).length := by
  unfold scan read
  dsimp only
  split <;> rfl

theorem le_position : p ≤ (scan preferDecimal text p).position := by
  rw [position_eq]
  exact Nat.le_add_right ..

theorem scan_cases : ((scan preferDecimal text p).lexeme = .eof ∧ (scan preferDecimal text p).length = 0 ∧
      text.toList.length ≤ (scan preferDecimal text p).position) ∨
    ∃ c cs, text.toList.drop (scan preferDecimal text p).position = c :: cs ∧ isSpace c = false ∧
      (scan preferDecimal text p).lexeme = (Lexeme.read preferDecimal c cs).1 ∧
      (scan preferDecimal text p).length = (Lexeme.read preferDecimal c cs).2 := by
  have skipped := Grammar.drop_length_takeWhile isSpace (text.toList.drop p)
  rw [List.drop_drop] at skipped
  unfold scan read
  dsimp only
  split
  · rename_i blank
    rw [blank] at skipped
    exact .inl ⟨rfl, rfl, List.drop_eq_nil_iff.mp skipped⟩
  · rename_i c cs visible
    rw [visible] at skipped
    refine .inr ⟨c, cs, skipped, ?_, rfl, rfl⟩
    have first := List.head?_dropWhile_not isSpace (text.toList.drop p)
    rw [visible] at first
    exact first

theorem scan_of_here {c : Char} {cs : List Char}
    (here : text.toList.drop (scan preferDecimal text p).position = c :: cs) :
    scan preferDecimal text p = ⟨(Lexeme.read preferDecimal c cs).1, (scan preferDecimal text p).position,
      (Lexeme.read preferDecimal c cs).2⟩ := by
  rcases scan_cases preferDecimal text p with ⟨-, -, ends⟩ | ⟨d, ds, here', -, lexeme, length⟩
  · cases here.symm.trans (List.drop_eq_nil_iff.mpr ends)
  · obtain ⟨rfl, rfl⟩ := List.cons.inj (here.symm.trans here')
    rw [← lexeme, ← length]

theorem length_pos_of_ne_eof (more : (scan preferDecimal text p).lexeme ≠ .eof) :
    0 < (scan preferDecimal text p).length :=
  (read_progress preferDecimal p (text.toList.drop p) more).1

theorem stop_le_length (inside : p ≤ text.toList.length) :
    (scan preferDecimal text p).stop ≤ text.toList.length := by
  rcases scan_cases preferDecimal text p with ⟨-, none, -⟩ | ⟨c, cs, here, -, -, length⟩
  · have blanks := (List.takeWhile_prefix isSpace (l := text.toList.drop p)).length_le
    rw [List.length_drop] at blanks
    rw [stop, none, position_eq]
    omega
  · have rest := congrArg List.length here
    have reach := Lexeme.length_read_le preferDecimal c cs
    rw [List.length_drop, List.length_cons] at rest
    rw [stop, length]
    omega

theorem scan_of_visible {c : Char} {cs : List Char} (here : text.toList.drop p = c :: cs)
    (visible : isSpace c = false) : scan preferDecimal text p =
      ⟨(Lexeme.read preferDecimal c cs).1, p, (Lexeme.read preferDecimal c cs).2⟩ := by
  have none : ¬ isSpace c = true := Bool.eq_false_iff.mp visible
  unfold scan read
  rw [here, List.takeWhile_cons_of_neg none, List.dropWhile_cons_of_neg none]
  rfl

end Token

namespace Grammar

variable {preferDecimal : Bool} {text : String} {p : Nat}

theorem isSpace_of_isDigit {c : Char} (digit : c.isDigit = true) : isSpace c = false := by
  rw [Bool.eq_false_iff]
  intro blank
  simp only [isSpace, Bool.or_eq_true, beq_iff_eq] at blank
  rcases blank with ((rfl | rfl) | rfl) | rfl <;> simp at digit

theorem scan_of_digit {cs : List Char} (here : text.toList.drop p = cs)
    (digit : Literal.startsWithDigit cs = true) : Token.scan preferDecimal text p =
      ⟨(Literal.read preferDecimal cs).1, p, (Literal.read preferDecimal cs).2⟩ := by
  cases cs with
  | nil => cases digit
  | cons d ds =>
    have digit : d.isDigit = true := digit
    have starts : Literal.startsNumber d ds = true := Bool.or_eq_true_iff.mpr (.inl digit)
    rw [Token.scan_of_visible preferDecimal text p here (isSpace_of_isDigit digit), Lexeme.read,
      if_pos starts]

theorem CommaFraction.here (fraction : CommaFraction text (Token.scan preferDecimal text p)) :
    ∃ cs, text.toList.drop (Token.scan preferDecimal text p).position = ',' :: cs ∧
      Literal.startsWithDigit cs = true := by
  obtain ⟨⟨v, number⟩, comma⟩ := fraction
  rcases Token.scan_cases preferDecimal text p with ⟨ends, -, -⟩ | ⟨c, cs, here, -, lexeme, -⟩
  · cases number.symm.trans ends
  obtain rfl : c = ',' := by
    have first := List.head?_drop (l := text.toList) (i := (Token.scan preferDecimal text p).position)
    rw [here, comma] at first
    exact Option.some.inj first
  refine ⟨cs, here, Classical.byContradiction fun other => ?_⟩
  rw [Lexeme.read_comma preferDecimal (Bool.eq_false_iff.mpr other)] at lexeme
  cases number.symm.trans lexeme

theorem scan_of_comma {cs : List Char}
    (here : text.toList.drop (Token.scan preferDecimal text p).position = ',' :: cs)
    (digit : Literal.startsWithDigit cs = true) : Token.scan preferDecimal text p =
      ⟨(Literal.read preferDecimal (',' :: cs)).1, (Token.scan preferDecimal text p).position,
        (Literal.read preferDecimal (',' :: cs)).2⟩ := by
  have starts : Literal.startsNumber ',' cs = true := digit
  have scanned := Token.scan_of_here preferDecimal text p here
  rw [Lexeme.read, if_pos starts] at scanned
  exact scanned

theorem CommaFraction.behind (fraction : CommaFraction text (Token.scan preferDecimal text p)) :
    (Token.scan preferDecimal text ((Token.scan preferDecimal text p).position + 1)).position =
        (Token.scan preferDecimal text p).position + 1 ∧
      (Token.scan preferDecimal text ((Token.scan preferDecimal text p).position + 1)).lexeme ≠ .eof ∧
      (Token.scan preferDecimal text p).position + 1 < (Token.scan preferDecimal text p).stop ∧
      (Token.scan preferDecimal text p).stop ≤
        (Token.scan preferDecimal text ((Token.scan preferDecimal text p).position + 1)).stop ∧
      ¬ CommaFraction text
        (Token.scan preferDecimal text ((Token.scan preferDecimal text p).position + 1)) := by
  obtain ⟨cs, here, digit⟩ := fraction.here
  have length : (Token.scan preferDecimal text p).length = (Literal.read preferDecimal (',' :: cs)).2 :=
    congrArg Token.length (scan_of_comma here digit)
  generalize position : (Token.scan preferDecimal text p).position = q at *
  have next : text.toList.drop (q + 1) = cs := by
    rw [← List.drop_drop, here]
    rfl
  have reaches := Literal.length_decimal_le_behind preferDecimal (c := ',') rfl digit
  have covers := Literal.two_le_read_of_separator preferDecimal (c := ',') rfl digit
  rw [scan_of_digit next digit]
  refine ⟨rfl, ?_, ?_, ?_, ?_⟩
  · rcases Literal.read_reading preferDecimal cs with ⟨v, number⟩ | ⟨fault, error⟩
    · rw [number]
      nofun
    · rw [error]
      nofun
  · rw [Token.stop, position, length]
    omega
  · rw [Token.stop, position, length, Literal.read_of_separator rfl, Token.stop]
    dsimp only
    omega
  · rintro ⟨-, comma⟩
    have first := List.head?_drop (l := text.toList) (i := q + 1)
    rw [next, comma] at first
    cases cs with
    | nil => cases digit
    | cons d ds =>
      cases Option.some.inj first
      cases digit

end Grammar

end Reckoner
