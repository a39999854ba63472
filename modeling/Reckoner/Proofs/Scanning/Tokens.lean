import Reckoner.CommandLine.Basic
import Reckoner.Proofs.Grammar.Derivation
import Reckoner.Proofs.Grammar.Names
import Reckoner.Proofs.Modes.Literals
import Reckoner.Proofs.Postorder
import Reckoner.Proofs.Pushdown.Parser
import Reckoner.Proofs.Scanning.Tiling

namespace Reckoner

open Text

namespace Literal

variable {preferDecimal : Bool}

/-- A prefixed number, if there is one at the beginning, is of digits only, and no decimal digit stands
    behind it. -/
def isCompact : List Char → Bool
  | '0' :: mark :: cs =>
    match prefixBits? mark with
    | some bits =>
      let length := (patternRun bits 0 0 2 cs).2 - 2
      !(cs.take length).contains '.' && !startsWithDigit (cs.drop length)
    | none => true
  | _ => true

theorem isNamePart_of_digitOf? {c : Char} {d : Nat} (digit : digitOf? c = some d) :
    isNamePart c = true := by
  have table : ∀ n < 128, (digitOf? (Char.ofNat n)).isSome = true → isNamePart (Char.ofNat n) = true := by
    decide
  have low : c.toNat < 128 := by
    unfold digitOf? at digit
    split at digit
    · rename_i range
      have top : c.toNat ≤ 57 := range.2
      omega
    split at digit
    · rename_i range
      have top : c.toNat ≤ 102 := range.2
      omega
    split at digit
    · rename_i range
      have top : c.toNat ≤ 70 := range.2
      omega
    · cases digit
  have part := table c.toNat low
  rw [Char.ofNat_toNat, digit] at part
  exact part rfl

theorem patternRun_covers (bits value digits length : Nat) (cs : List Char) :
    ∀ c ∈ cs.take ((patternRun bits value digits length cs).2 - length), c = '.' ∨
      isNamePart c = true := by
  have digit {c : Char} {d : Nat} (known : digitIn? (twoTo bits) c = some d) : isNamePart c = true :=
    isNamePart_of_digitOf? (Option.filter_eq_some_iff.mp known).1
  have finish (value digits length : Nat) : (patternRun.finish value digits length).2 - length = 0 := by
    unfold patternRun.finish
    split <;> exact Nat.sub_self length
  fun_induction patternRun bits value digits length cs with
  | case1 => simp
  | case2 value digits length cs ih =>
    have reaches := le_patternRun_length bits value digits (length + 1) cs
    obtain ⟨n, same⟩ := Nat.exists_eq_add_of_le reaches
    rw [same] at ih ⊢
    rw [Nat.add_sub_cancel_left] at ih
    rw [show length + 1 + n - length = n + 1 by omega, List.take_succ_cons]
    exact List.forall_mem_cons.mpr ⟨.inl rfl, ih⟩
  | case3 value digits length c cs other none =>
    rw [finish, List.take_zero]
    exact List.forall_mem_nil _
  | case4 value digits length c cs other d known small ih =>
    have reaches := le_patternRun_length bits (value * twoTo bits + d) (digits + 1) (length + 1) cs
    obtain ⟨n, same⟩ := Nat.exists_eq_add_of_le reaches
    rw [same] at ih ⊢
    rw [Nat.add_sub_cancel_left] at ih
    rw [show length + 1 + n - length = n + 1 by omega, List.take_succ_cons]
    exact List.forall_mem_cons.mpr ⟨.inr (digit known), ih⟩
  | case5 value digits length c cs other d known large =>
    rw [Nat.add_sub_cancel_left, List.take_succ_cons, List.take_zero]
    exact List.forall_mem_singleton.mpr (.inr (digit known))

theorem tenTo_mul_le_continued (n : Nat) (cs : List Char) : n * tenTo cs.length ≤ continued 10 n cs := by
  induction cs generalizing n with
  | nil => exact Nat.le_of_eq (Nat.mul_one n)
  | cons c cs ih =>
    calc n * tenTo (cs.length + 1)
        = n * 10 * tenTo cs.length := by rw [tenTo_succ, Nat.mul_assoc, Nat.mul_comm 10]
      _ ≤ (n * 10 + (digitOf? c).getD 0) * tenTo cs.length := Nat.mul_le_mul_right _ (Nat.le_add_right ..)
      _ ≤ continued 10 (n * 10 + (digitOf? c).getD 0) cs := ih _

theorem fractionLexeme_of_whole {whole fraction : List Char} (filled : fraction ≠ [])
    (digits : ∀ c ∈ fraction, c.isDigit = true) {e : Int}
    (fine : (fractionLexeme preferDecimal ((⟨whole, fraction⟩ : Mantissa).exact e)).isError = false) :
    (fractionLexeme preferDecimal ((⟨[], fraction⟩ : Mantissa).exact e)).isError = false := by
  cases preferDecimal with
  | false => rfl
  | true =>
    by_cases zero : numeralValue 10 whole = 0
    · have same : numeralValue 10 (whole ++ fraction) = numeralValue 10 ([] ++ fraction) := by
        rw [numeralValue, continued_append, ← numeralValue, zero]
        rfl
      unfold Mantissa.exact at *
      rwa [← same]
    have below : numeralValue 10 ([] ++ fraction) < tenTo fraction.length := by
      simpa [numeralValue] using continued_lt digits 0
    have above : tenTo fraction.length ≤ numeralValue 10 (whole ++ fraction) := by
      rw [numeralValue, continued_append, ← numeralValue]
      refine Nat.le_trans ?_ (tenTo_mul_le_continued _ fraction)
      exact Nat.le_mul_of_pos_left _ (Nat.pos_of_ne_zero zero)
    have fewer := digitCount_le_of_lt (List.length_pos_iff.mpr filled) below
    have more := tenTo_lt_iff.mp (Nat.lt_of_le_of_lt above (lt_tenTo_digitCount _))
    unfold fractionLexeme fractionValue? Mantissa.exact at *
    simp only [if_true] at fine ⊢
    cases rounded : Decimal.Context.engine.round (.finite false (numeralValue 10 (whole ++ fraction))
        (e - fraction.length)) with
    | error signal =>
      rw [rounded] at fine
      cases fine
    | ok d =>
      have top := Decimal.adjusted_le_of_round (Nat.lt_of_lt_of_le (tenTo_pos _) above) rounded
      cases refused : Decimal.Context.engine.round (.finite false (numeralValue 10 ([] ++ fraction))
          (e - fraction.length)) with
      | ok d => rfl
      | error signal =>
        have least := Decimal.le_adjusted_of_refused refused
        unfold Decimal.adjusted at top least
        omega

theorem separator_of_fraction {cs : List Char} (some : fractionDigits cs ≠ []) :
    ∃ c fs, cs = c :: fs ∧ isSeparator c = true ∧ startsWithDigit fs = true := by
  cases cs with
  | nil => exact absurd rfl some
  | cons c fs =>
    cases starts : isSeparator c && startsWithDigit fs with
    | true => exact ⟨c, fs, rfl, Bool.and_eq_true_iff.mp starts⟩
    | false => exact absurd (if_neg (Bool.eq_false_iff.mp starts)) some

theorem lexeme_of_fraction {cs : List Char} (filled : (Mantissa.ofChars cs).fraction ≠ []) :
    (decimal preferDecimal cs).1 =
      match Exponent.ofChars (cs.drop (Mantissa.ofChars cs).length) with
      | .none => fractionLexeme preferDecimal ((Mantissa.ofChars cs).exact 0)
      | .given e _ => fractionLexeme preferDecimal ((Mantissa.ofChars cs).exact e)
      | .fault fault _ => .error fault := by
  unfold decimal mantissaLexeme
  dsimp only
  cases Exponent.ofChars (cs.drop (Mantissa.ofChars cs).length) with
  | none => exact if_neg fun whole => filled (List.isEmpty_iff.mp whole.1)
  | given e n => rfl
  | fault fault n => rfl

theorem decimal_of_fraction {c : Char} {cs fs : List Char} (rest : cs.dropWhile Char.isDigit = c :: fs)
    (separator : isSeparator c = true) (digit : startsWithDigit fs = true) :
    (decimal preferDecimal cs).2 = (cs.takeWhile Char.isDigit).length + (decimal preferDecimal (c :: fs)).2 ∧
      ((decimal preferDecimal cs).1.isError = false →
        (decimal preferDecimal (c :: fs)).1.isError = false) := by
  obtain ⟨fraction, filled, length⟩ := mantissa_of_separator separator digit
  have digits : ∀ d ∈ fs.takeWhile Char.isDigit, d.isDigit = true := List.all_eq_true.mp List.all_takeWhile
  have whole : Mantissa.ofChars cs = ⟨cs.takeWhile Char.isDigit, fs.takeWhile Char.isDigit⟩ := by
    rw [Mantissa.ofChars, rest, fractionDigits, separator, digit]
    rfl
  have reach : (Mantissa.ofChars cs).length =
      (cs.takeWhile Char.isDigit).length + (Mantissa.ofChars (c :: fs)).length := by
    rw [whole, length, Mantissa.length, if_neg (mt List.isEmpty_iff.mp filled), Nat.add_comm 1]
  have behind : cs.drop (Mantissa.ofChars cs).length = (c :: fs).drop (Mantissa.ofChars (c :: fs)).length := by
    rw [reach, ← List.drop_drop, Grammar.drop_length_takeWhile, rest]
  refine ⟨by rw [length_decimal, length_decimal, behind, reach, Nat.add_assoc], fun fine => ?_⟩
  rw [lexeme_of_fraction (by rw [whole]; exact filled), behind, whole] at fine
  rw [lexeme_of_fraction (by rw [fraction]; exact filled), fraction]
  rw [fraction] at fine
  cases exponent : Exponent.ofChars
      ((c :: fs).drop (⟨[], fs.takeWhile Char.isDigit⟩ : Mantissa).length) with
  | none =>
    rw [exponent] at fine
    exact fractionLexeme_of_whole filled digits fine
  | given e n =>
    rw [exponent] at fine
    exact fractionLexeme_of_whole filled digits fine
  | fault fault n =>
    rw [exponent] at fine
    cases fine

end Literal

theorem Symbol.read?_of_high {c : Char} (high : 128 ≤ c.toNat) (cs : List Char) : read? c cs = none := by
  have apart {d : Char} (low : d.toNat < 128) : c ≠ d := by
    rintro rfl
    omega
  have double (d : Char) : double? c d = none := by
    unfold double?
    split <;> first | rfl | exact absurd rfl (apart (by decide))
  have single : single? c = none := by
    unfold single?
    split <;> first | rfl | exact absurd rfl (apart (by decide))
  unfold read?
  rw [single]
  cases cs with
  | nil => rfl
  | cons d cs => simp only [List.head?_cons, Option.bind_some, double, Option.map_none]

namespace Token

variable {preferDecimal : Bool} {text : String} {p : Nat}

def Clean (preferDecimal : Bool) (text : String) (p : Nat) : Prop :=
  ∀ t ∈ list preferDecimal p (text.toList.drop p), t.lexeme.isError = false

theorem clean_of_eof (ends : (scan preferDecimal text p).lexeme = .eof) : Clean preferDecimal text p := by
  rw [Clean, list_drop, if_pos ends]
  exact List.forall_mem_nil _

theorem clean_iff (more : (scan preferDecimal text p).lexeme ≠ .eof) : Clean preferDecimal text p ↔
    (scan preferDecimal text p).lexeme.isError = false ∧
      Clean preferDecimal text (scan preferDecimal text p).stop := by
  rw [Clean, list_drop, if_neg more]
  cases error : (scan preferDecimal text p).lexeme.isError with
  | true => simp [error]
  | false =>
    rw [if_neg Bool.false_ne_true, List.forall_mem_cons, error]
    rfl

theorem scan_of_name {c : Char} {cs : List Char} (here : text.toList.drop p = c :: cs)
    (start : isNameStart c = true) : scan preferDecimal text p =
      ⟨.identifier (String.ofList (c :: cs.takeWhile isNamePart)), p,
        (cs.takeWhile isNamePart).length + 1⟩ := by
  obtain ⟨visible, number⟩ := Grammar.isNameStart_first start cs
  rw [scan_of_visible preferDecimal text p here visible, Lexeme.read, number, if_neg Bool.false_ne_true,
    if_pos start]

theorem isNamePart_of_isNameStart {c : Char} (start : isNameStart c = true) : isNamePart c = true := by
  simp only [isNameStart, isNamePart, Bool.or_eq_true] at start ⊢
  exact start.imp_left .inl

theorem clean_of_name {c : Char} {cs : List Char} (here : text.toList.drop p = c :: cs)
    (start : isNameStart c = true) : Clean preferDecimal text p ↔
      Clean preferDecimal text (p + ((c :: cs).takeWhile isNamePart).length) := by
  have scanned : scan preferDecimal text p = _ := scan_of_name here start
  have part := isNamePart_of_isNameStart start
  have more : (scan preferDecimal text p).lexeme ≠ .eof := by
    rw [scanned]
    rintro ⟨⟩
  rw [clean_iff more, scanned, List.takeWhile_cons_of_pos part]
  exact and_iff_right rfl

theorem error_of_part {c : Char} {cs : List Char} (here : text.toList.drop p = c :: cs)
    (part : isNamePart c = true) (start : isNameStart c = false) (digit : c.isDigit = false) :
    (scan preferDecimal text p).lexeme.isError = true := by
  have numeric : isNumeric c = true := by
    simp only [isNameStart, isNamePart, Bool.or_eq_true, Bool.or_eq_false_iff] at start part
    simpa [start.1, start.2] using part
  have high : 128 ≤ c.toNat := by
    refine Nat.le_of_not_lt fun low => ?_
    rw [isNumeric, if_pos low, digit] at numeric
    cases numeric
  obtain ⟨visible, number⟩ := Grammar.first_of_high (Nat.le_trans (by decide) high) cs
  rw [scan_of_visible preferDecimal text p here visible, Lexeme.read, number, if_neg Bool.false_ne_true,
    if_neg (Bool.eq_false_iff.mp start), Symbol.read?_of_high high]
  rfl

theorem clean_behind_parts {cs : List Char} (here : text.toList.drop p = cs)
    (other : Literal.startsWithDigit cs = false) (clean : Clean preferDecimal text p) :
    Clean preferDecimal text (p + (cs.takeWhile isNamePart).length) := by
  cases cs with
  | nil => exact clean
  | cons c cs =>
    cases part : isNamePart c with
    | false =>
      rw [List.takeWhile_cons_of_neg (Bool.eq_false_iff.mp part)]
      exact clean
    | true =>
      cases start : isNameStart c with
      | true => exact (clean_of_name here start).mp clean
      | false =>
        have error : (scan preferDecimal text p).lexeme.isError = true :=
          error_of_part here part start other
        have more : (scan preferDecimal text p).lexeme ≠ .eof := by
          intro ends
          rw [ends] at error
          cases error
        rw [((clean_iff more).mp clean).1] at error
        cases error

theorem isNameStart_of_mark {c : Char} {bits : Nat} (mark : Literal.prefixBits? c = some bits) :
    isNameStart c = true := by
  simp only [Literal.prefixBits?, Bool.or_eq_true, beq_iff_eq] at mark
  split at mark
  · rename_i letter
    rcases letter with rfl | rfl <;> decide
  split at mark
  · rename_i letter
    rcases letter with rfl | rfl <;> decide
  split at mark
  · rename_i letter
    rcases letter with rfl | rfl <;> decide
  · cases mark

theorem clean_literal {c : Char} {cs : List Char} (here : text.toList.drop p = c :: cs)
    (starts : Literal.startsNumber c cs = true) : Clean preferDecimal text p ↔
      (Literal.read preferDecimal (c :: cs)).1.isError = false ∧
        Clean preferDecimal text (p + (Literal.read preferDecimal (c :: cs)).2) := by
  have visible : isSpace c = false := by
    rcases Bool.or_eq_true_iff.mp starts with digit | point
    · exact Grammar.isSpace_of_isDigit digit
    · have separator := (Bool.and_eq_true_iff.mp point).1
      simp only [Literal.isSeparator, Bool.or_eq_true, beq_iff_eq] at separator
      rcases separator with rfl | rfl <;> rfl
  have scanned : scan preferDecimal text p = _ := scan_of_visible preferDecimal text p here visible
  rw [Lexeme.read, if_pos starts] at scanned
  have more : (scan preferDecimal text p).lexeme ≠ .eof := by
    rw [scanned]
    rcases Literal.read_reading preferDecimal (c :: cs) with ⟨v, number⟩ | ⟨fault, error⟩
    · rw [number]
      rintro ⟨⟩
    · rw [error]
      rintro ⟨⟩
  rw [clean_iff more, scanned]
  rfl

theorem startsNumber_of_digit {c : Char} (digit : c.isDigit = true) (cs : List Char) :
    Literal.startsNumber c cs = true := by
  rw [Literal.startsNumber, digit, Bool.true_or]

/-- Behind the zero of a compact number with a prefix a name begins that ends no sooner. -/
theorem clean_behind_zero {mark : Char} {cs : List Char} {bits : Nat}
    (here : text.toList.drop p = '0' :: mark :: cs) (known : Literal.prefixBits? mark = some bits)
    (compact : Literal.isCompact ('0' :: mark :: cs) = true) (clean : Clean preferDecimal text p) :
    Clean preferDecimal text (p + 1) := by
  have clean := ((clean_literal here (startsNumber_of_digit rfl _)).mp clean).2
  rw [Literal.read_of_mark known] at clean
  obtain ⟨n, reach⟩ := Nat.exists_eq_add_of_le (Literal.le_patternRun_length bits 0 0 2 cs)
  have within := Literal.length_patternRun_le bits 0 0 2 cs
  have covers := Literal.patternRun_covers bits 0 0 2 cs
  simp only [Literal.isCompact, known] at compact
  rw [reach, Nat.add_sub_cancel_left, Bool.and_eq_true, Bool.not_eq_true', Bool.not_eq_true',
    List.contains_eq_mem, decide_eq_false_iff_not] at compact
  rw [reach, Nat.add_sub_cancel_left] at covers
  rw [reach] at clean
  have parts : ∀ c ∈ cs.take n, isNamePart c = true := fun c member =>
    (covers c member).resolve_left fun point => compact.1 (point ▸ member)
  have behind : text.toList.drop (p + (2 + n)) = cs.drop n := by
    rw [← List.drop_drop, here, Nat.add_comm 2 n]
    rfl
  have name : text.toList.drop (p + 1) = mark :: cs := by
    rw [← List.drop_drop, here]
    rfl
  refine (clean_of_name name (isNameStart_of_mark known)).mpr ?_
  have part : isNamePart mark = true := isNamePart_of_isNameStart (isNameStart_of_mark known)
  have length : ((mark :: cs).takeWhile isNamePart).length =
      1 + n + ((cs.drop n).takeWhile isNamePart).length := by
    rw [← List.take_append_drop n cs, List.takeWhile_cons_of_pos part,
      List.takeWhile_append_of_pos parts, List.length_cons, List.length_append, List.length_take,
      List.take_append_drop]
    omega
  have ends : p + 1 + (1 + n + ((cs.drop n).takeWhile isNamePart).length) =
      p + (2 + n) + ((cs.drop n).takeWhile isNamePart).length := by omega
  rw [length, ends]
  exact clean_behind_parts behind compact.2 clean

theorem clean_behind_fraction {cs : List Char} (here : text.toList.drop p = cs)
    (digit : Literal.startsWithDigit cs = true) (compact : Literal.isCompact cs = true)
    (clean : Clean preferDecimal text p) :
    Clean preferDecimal text (p + (cs.takeWhile Char.isDigit).length +
      (Literal.Exponent.ofChars (cs.dropWhile Char.isDigit)).length) := by
  obtain ⟨c, cs, rfl⟩ : ∃ d ds, cs = d :: ds := by
    refine List.exists_cons_of_ne_nil ?_
    rintro rfl
    cases digit
  rcases Literal.pattern_or_decimal (c :: cs) with ⟨mark, es, bits, same, known⟩ | decimal
  · rw [same] at here compact ⊢
    obtain ⟨zero, none⟩ := @Literal.zero_of_mark mark es bits known
    rw [zero, none]
    exact clean_behind_zero here known compact clean
  obtain ⟨fine, clean⟩ := (clean_literal here (startsNumber_of_digit digit cs)).mp clean
  rw [decimal] at fine clean
  by_cases whole : Literal.fractionDigits ((c :: cs).dropWhile Char.isDigit) = []
  · have length : (Literal.Mantissa.ofChars (c :: cs)).length = ((c :: cs).takeWhile Char.isDigit).length :=
      congrArg _ (if_pos (List.isEmpty_iff.mpr whole))
    rw [Literal.length_decimal, Literal.drop_of_whole whole, length, ← Nat.add_assoc] at clean
    exact clean
  -- behind its whole part a decimal number goes on with a fraction
  · rw [Literal.exponent_of_fraction whole]
    have behind : text.toList.drop (p + ((c :: cs).takeWhile Char.isDigit).length) =
        (c :: cs).dropWhile Char.isDigit := by
      rw [← List.drop_drop, here, Grammar.drop_length_takeWhile]
    obtain ⟨d, fs, rest, separator, follows⟩ := Literal.separator_of_fraction whole
    obtain ⟨length, fraction⟩ := Literal.decimal_of_fraction rest separator follows
    rw [rest] at behind
    have starts : Literal.startsNumber d fs = true :=
      Bool.or_eq_true_iff.mpr (.inr (Bool.and_eq_true_iff.mpr ⟨separator, follows⟩))
    refine (clean_literal behind starts).mpr ?_
    rw [Literal.read_of_separator separator]
    refine ⟨fraction fine, ?_⟩
    rw [length, ← Nat.add_assoc] at clean
    exact clean

/-- If a text can be read as tokens up to its end, the scan meets no error in it, unless a comma among
    them has a number with a prefix behind it that is not compact. -/
theorem clean_of_reads {q : Nat} {ts : List Token} (read : Grammar.Reads preferDecimal text p ts q)
    (ends : (scan preferDecimal text q).lexeme = .eof)
    (compact : ∀ t ∈ ts, t.lexeme = .symbol .comma →
      Literal.isCompact (text.toList.drop t.stop) = true) : Clean preferDecimal text p := by
  induction read with
  | done => exact clean_of_eof ends
  | token scanned more valid _ ih =>
    subst scanned
    have clean := ih ends fun t member => compact t (List.mem_cons_of_mem _ member)
    exact (clean_iff more).mpr ⟨valid, clean⟩
  | comma scanned fraction _ ih =>
    subst scanned
    have clean := ih ends fun t member => compact t (List.mem_cons_of_mem _ member)
    have compact := compact _ List.mem_cons_self rfl
    obtain ⟨cs, here, digit⟩ := fraction.here
    have scanned := Grammar.scan_of_comma here digit
    obtain ⟨⟨v, number⟩, -⟩ := fraction
    refine (clean_iff (by rw [number]; rintro ⟨⟩)).mpr ⟨by rw [number]; rfl, ?_⟩
    rw [scanned, stop, Literal.read_of_separator rfl, Literal.length_decimal_of_separator _ rfl digit]
    generalize (scan preferDecimal text _).position = c at here compact clean
    have behind : text.toList.drop (c + 1) = cs := by
      rw [← List.drop_drop, here]
      rfl
    rw [stop, behind] at compact
    have further := clean_behind_fraction behind digit compact clean
    rw [Nat.add_right_comm c, Nat.add_assoc c, Nat.add_assoc c] at further
    exact further

end Token

namespace Formula

open Grammar

variable {nesting : Nat} {preferDecimal : Bool} {text : String}

/-- A text that compiles can be read as tokens that derive its program. If a number with a prefix that
    stands directly behind a comma among them is of digits only, and no decimal digit stands behind it,
    then no token of the text is an error, and the command that shows the tokens succeeds as the one
    does that shows the program. -/
theorem tokens_of_compiled (valid : (compile preferDecimal text nesting).isValid = true) :
    (∃ ts e, Spells preferDecimal text ts ∧ Phrase text 5 ts e ∧
      (compile preferDecimal text nesting).code? = some e.postorder) ∧
    ∀ ts, Spells preferDecimal text ts →
      (∀ t ∈ ts, t.lexeme = .symbol .comma → Literal.isCompact (text.toList.drop t.stop) = true) →
      (∀ t ∈ (compile preferDecimal text nesting).tokens, t.lexeme.isError = false) ∧
      ∀ a : CommandLine.Arguments, a.hasFlag "--decimal" = preferDecimal →
        (CommandLine.listingCommand a text nesting).ending = .status 0 ∧
        (CommandLine.tokensCommand a text).ending = .status 0 := by
  unfold isValid at valid
  cases compiled : (compile preferDecimal text nesting).outcome with
  | error fault =>
    rw [compiled] at valid
    cases valid
  | ok p =>
    refine ⟨?_, fun ts spells compact => ?_⟩
    · obtain ⟨e, parsed, rfl⟩ := program_of_compile compiled
      obtain ⟨ts, spells, phrase⟩ := derived_of_ofText parsed
      refine ⟨ts, e, spells, phrase, ?_⟩
      rw [code?, compiled, ← e.code_eq_postorder]
      rfl
    · obtain ⟨q, read, ends⟩ := spells
      have clean : ∀ t ∈ Token.all preferDecimal text, t.lexeme.isError = false :=
        Token.clean_of_reads read ends compact
      refine ⟨clean, fun a mode => ⟨?_, ?_⟩⟩
      · rw [CommandLine.listingCommand, mode]
        simp only [compiled]
        rfl
      · have none : (Token.all preferDecimal text).any (·.lexeme.isError) = false :=
          List.any_eq_false.mpr fun t member => Bool.eq_false_iff.mp (clean t member)
        rw [CommandLine.tokensCommand, mode]
        simp only [none]
        rfl

/-- The scan reads the number behind the comma as a zero and a name. -/
theorem tokens_of_compiled_call :
    (compile true "f(a,0xF)").isValid = true ∧
    ∀ t ∈ (compile true "f(a,0xF)").tokens, t.lexeme.isError = false := by
  obtain ⟨e, accepted, -⟩ := Option.map_eq_some_iff.mp
    (show (Pushdown.State.accepted? usualNesting true "f(a,0xF)" 30 ⟨.start, 0⟩).map Expr.code =
      some [.pushVariable "a", .pushConstant (.integer 15), .call "f" 2] by decide)
  have valid : (compile true "f(a,0xF)").isValid = true := by
    rw [isValid, compile_of_parsed (Pushdown.ofText_of_accepted accepted)]
    rfl
  have fraction : CommaFraction "f(a,0xF)" (Token.scan true "f(a,0xF)" 3) :=
    ⟨⟨.decimal (.finite false 0 (-1)), by decide⟩, by decide⟩
  have spells : Spells true "f(a,0xF)" [⟨.identifier "f", 0, 1⟩, ⟨.symbol .bracketOpen, 1, 1⟩,
      ⟨.identifier "a", 2, 1⟩, ⟨.symbol .comma, 3, 1⟩, ⟨.number (.integer 15), 4, 3⟩,
      ⟨.symbol .bracketClose, 7, 1⟩] :=
    ⟨8, .token (by decide) (by decide) rfl <| .token (by decide) (by decide) rfl <|
      .token (by decide) (by decide) rfl <| .comma rfl fraction <|
      .token (by decide) (by decide) rfl <| .token (by decide) (by decide) rfl <| .done 8, by decide⟩
  exact ⟨valid, ((tokens_of_compiled valid).2 _ spells (by decide)).1⟩

/-- The parser reads a group point behind a digit, and the scan one behind a name. -/
theorem tokens_of_compiled_fault :
    (compile true "f(a,0x1.)").isValid = true ∧
    (compile true "f(a,0x1.)").code? =
      some [.pushVariable "a", .pushConstant (.integer 1), .call "f" 2] ∧
    ∃ t ∈ (compile true "f(a,0x1.)").tokens, t.lexeme.isError = true := by
  obtain ⟨e, accepted, code⟩ := Option.map_eq_some_iff.mp
    (show (Pushdown.State.accepted? usualNesting true "f(a,0x1.)" 30 ⟨.start, 0⟩).map Expr.code =
      some [.pushVariable "a", .pushConstant (.integer 1), .call "f" 2] by decide)
  have compiled := compile_of_parsed (Pushdown.ofText_of_accepted accepted)
  refine ⟨?_, ?_, ?_⟩
  · rw [isValid, compiled]
    rfl
  · rw [code?, compiled]
    exact congrArg some code
  · have step {p q : Nat} (clean : Token.Clean true "f(a,0x1.)" p)
        (token : (Token.scan true "f(a,0x1.)" p).lexeme ≠ .eof ∧ (Token.scan true "f(a,0x1.)" p).stop = q) :
        Token.Clean true "f(a,0x1.)" q := token.2 ▸ ((Token.clean_iff token.1).mp clean).2
    refine Classical.byContradiction fun none => ?_
    have clean : Token.Clean true "f(a,0x1.)" 0 := fun t member =>
      Bool.eq_false_iff.mpr fun error => none ⟨t, member, error⟩
    have argument : Token.Clean true "f(a,0x1.)" 3 :=
      step (q := 3) (step (q := 2) (step (q := 1) clean (by decide)) (by decide)) (by decide)
    have point : Token.Clean true "f(a,0x1.)" 7 :=
      step (q := 7) (step (q := 5) argument (by decide)) (by decide)
    cases ((Token.clean_iff (by decide)).mp point).1

end Formula

end Reckoner
