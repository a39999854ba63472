import Reckoner.Proofs.Scanning.Reach

namespace Reckoner

open Text Literal

theorem isBlank_of_isSpace {c : Char} (space : isSpace c = true) : isBlank c = true := by
  simp only [isSpace, Bool.or_eq_true, beq_iff_eq] at space
  rcases space with ((rfl | rfl) | rfl) | rfl <;> rfl

def isDelimiter (c : Char) : Bool := isBlank c || c == ';'

def delimiterCodes : List Nat :=
  [9, 10, 11, 12, 13, 28, 29, 30, 31, 32, 59, 0x85, 0xA0, 0x1680, 0x2000, 0x2001, 0x2002, 0x2003, 0x2004,
    0x2005, 0x2006, 0x2007, 0x2008, 0x2009, 0x200A, 0x2028, 0x2029, 0x202F, 0x205F, 0x3000]

section

variable {c : Char}

theorem mem_delimiterCodes (delimiter : isDelimiter c = true) : c.toNat ∈ delimiterCodes := by
  simp only [isDelimiter, isBlank, Bool.or_eq_true, Bool.and_eq_true, decide_eq_true_eq, beq_iff_eq]
    at delimiter
  simp only [delimiterCodes, List.mem_cons, List.not_mem_nil, or_false]
  rcases delimiter with blank | rfl
  · omega
  · decide

theorem of_isDelimiter {α : Type} (f : Char → α) {a : α} (each : ∀ n ∈ delimiterCodes, f (Char.ofNat n) = a)
    (delimiter : isDelimiter c = true) : f c = a := by
  have constant := each _ (mem_delimiterCodes delimiter)
  rwa [Char.ofNat_toNat] at constant

theorem isDigit_of_isDelimiter (delimiter : isDelimiter c = true) : c.isDigit = false :=
  of_isDelimiter Char.isDigit (by decide +kernel) delimiter

theorem isNamePart_of_isDelimiter (delimiter : isDelimiter c = true) : isNamePart c = false :=
  of_isDelimiter isNamePart (by decide +kernel) delimiter

theorem isSeparator_of_isDelimiter (delimiter : isDelimiter c = true) : isSeparator c = false :=
  of_isDelimiter isSeparator (by decide +kernel) delimiter

theorem isExponentMark_of_isDelimiter (delimiter : isDelimiter c = true) : (c == 'e' || c == 'E') = false :=
  of_isDelimiter (fun c => c == 'e' || c == 'E') (by decide +kernel) delimiter

theorem prefixBits?_of_isDelimiter (delimiter : isDelimiter c = true) : prefixBits? c = none :=
  of_isDelimiter prefixBits? (by decide +kernel) delimiter

theorem digitOf?_of_isDelimiter (delimiter : isDelimiter c = true) : digitOf? c = none :=
  of_isDelimiter digitOf? (by decide +kernel) delimiter

theorem digitIn?_of_isDelimiter (base : Nat) (delimiter : isDelimiter c = true) : digitIn? base c = none := by
  rw [digitIn?, digitOf?_of_isDelimiter delimiter]
  rfl

theorem takeSign_of_isDelimiter (delimiter : isDelimiter c = true) (cs : List Char) :
    takeSign (c :: cs) = (false, c :: cs) := by
  unfold takeSign
  split
  · rename_i minus
    cases minus
    cases delimiter
  · rename_i plus
    cases plus
    cases delimiter
  · rfl

theorem double?_of_isDelimiter (d : Char) (delimiter : isDelimiter c = true) : Symbol.double? d c = none := by
  unfold Symbol.double?
  split <;> first | rfl | cases delimiter

end

/-- The second characters begin with the first `n` of the first ones and go on with a delimiter. -/
inductive Cut : Nat → List Char → List Char → Prop
  | here {c : Char} (delimiter : isDelimiter c = true) (cs rest : List Char) : Cut 0 cs (c :: rest)
  | keep {n : Nat} {cs ds : List Char} (c : Char) (cut : Cut n cs ds) :
      Cut (n + 1) (c :: cs) (c :: ds)

namespace Cut

variable {n : Nat} {c : Char} {cs ds : List Char}

theorem of_take (blank : isBlank c = true) (rest : List Char) (within : n ≤ cs.length) :
    Cut n cs (cs.take n ++ c :: rest) := by
  induction n generalizing cs with
  | zero => exact .here (Bool.or_eq_true_iff.mpr (.inl blank)) cs rest
  | succ n ih =>
    cases cs with
    | nil => cases within
    | cons d cs => exact .keep d (ih (Nat.le_of_succ_le_succ within))

theorem append (es : List Char) (cut : Cut n cs ds) : Cut (n + es.length) (es ++ cs) (es ++ ds) := by
  induction es with
  | nil => exact cut
  | cons e es ih => exact .keep e ih

theorem drop {k m : Nat} (cut : Cut n cs ds) (split : n = m + k) :
    Cut k (cs.drop m) (ds.drop m) := by
  induction m generalizing n cs ds with
  | zero =>
    obtain rfl : n = k := by omega
    exact cut
  | succ m ih =>
    cases cut with
    | here => omega
    | keep _ cut => exact ih cut (by omega)

theorem takeWhile {f : Char → Bool} (ends : ∀ {c}, isDelimiter c = true → f c = false)
    (cut : Cut n cs ds) (within : (cs.takeWhile f).length ≤ n) :
    ds.takeWhile f = cs.takeWhile f := by
  induction cut with
  | here delimiter cs rest =>
    rw [List.takeWhile_cons_of_neg (by rw [ends delimiter]; exact Bool.false_ne_true),
      List.length_eq_zero_iff.mp (Nat.le_zero.mp within)]
  | keep c cut ih =>
    cases member : f c with
    | false =>
      rw [List.takeWhile_cons_of_neg (by rw [member]; exact Bool.false_ne_true),
        List.takeWhile_cons_of_neg (by rw [member]; exact Bool.false_ne_true)]
    | true =>
      rw [List.takeWhile_cons_of_pos member] at within
      rw [List.takeWhile_cons_of_pos member, List.takeWhile_cons_of_pos member,
        ih (Nat.le_of_succ_le_succ within)]

theorem takeWhile_of_lt {f : Char → Bool} (cut : Cut n cs ds)
    (within : (cs.takeWhile f).length < n) : ds.takeWhile f = cs.takeWhile f := by
  induction cut with
  | here => cases within
  | keep c cut ih =>
    cases member : f c with
    | false =>
      rw [List.takeWhile_cons_of_neg (by rw [member]; exact Bool.false_ne_true),
        List.takeWhile_cons_of_neg (by rw [member]; exact Bool.false_ne_true)]
    | true =>
      rw [List.takeWhile_cons_of_pos member] at within
      rw [List.takeWhile_cons_of_pos member, List.takeWhile_cons_of_pos member,
        ih (Nat.lt_of_succ_lt_succ within)]

theorem startsWithDigit (cut : Cut n cs ds) (within : startsWithDigit cs = true → 0 < n) :
    startsWithDigit ds = Literal.startsWithDigit cs := by
  cases cut with
  | here delimiter cs rest =>
    have other : Literal.startsWithDigit cs = false :=
      Bool.eq_false_iff.mpr fun digit => Nat.lt_irrefl 0 (within digit)
    rw [other]
    exact isDigit_of_isDelimiter delimiter
  | keep => rfl

theorem fractionDigits (cut : Cut n cs ds)
    (within : fractionDigits cs ≠ [] → (fractionDigits cs).length < n) :
    fractionDigits ds = Literal.fractionDigits cs := by
  cases cut with
  | here delimiter cs rest =>
    have none : Literal.fractionDigits cs = [] :=
      Classical.byContradiction fun some => Nat.not_lt_zero _ (within some)
    rw [none, Literal.fractionDigits, isSeparator_of_isDelimiter delimiter]
    rfl
  | @keep n cs ds c cut =>
    cases separator : isSeparator c with
    | false => rw [Literal.fractionDigits, Literal.fractionDigits, separator]; rfl
    | true =>
      have run (digit : Literal.startsWithDigit cs = true) :
          cs.takeWhile Char.isDigit ≠ [] ∧ (cs.takeWhile Char.isDigit).length ≤ n := by
        have whole : Literal.fractionDigits (c :: cs) = cs.takeWhile Char.isDigit :=
          if_pos (Bool.and_eq_true_iff.mpr ⟨separator, digit⟩)
        have some := fractionDigits_ne_nil separator digit
        have shorter := within some
        rw [whole] at some shorter
        exact ⟨some, Nat.le_of_lt_succ shorter⟩
      have begins := cut.startsWithDigit fun digit =>
        Nat.lt_of_lt_of_le (List.length_pos_iff.mpr (run digit).1) (run digit).2
      rw [Literal.fractionDigits, Literal.fractionDigits, begins, separator, Bool.true_and]
      split
      · rename_i digit
        exact cut.takeWhile isDigit_of_isDelimiter (run digit).2
      · rfl

theorem dropWhile {f : Char → Bool} (cut : Cut n cs ds)
    (same : ds.takeWhile f = cs.takeWhile f) (within : (cs.takeWhile f).length ≤ n) :
    ∃ k, n = (cs.takeWhile f).length + k ∧ Cut k (cs.dropWhile f) (ds.dropWhile f) := by
  obtain ⟨k, split⟩ := Nat.exists_eq_add_of_le within
  have behind := cut.drop split
  rw [Grammar.drop_length_takeWhile f cs, ← same, Grammar.drop_length_takeWhile f ds] at behind
  exact ⟨k, split, behind⟩

theorem mantissa (cut : Cut n cs ds) (within : (Mantissa.ofChars cs).length ≤ n) :
    Mantissa.ofChars ds = Mantissa.ofChars cs := by
  have digits : (cs.takeWhile Char.isDigit).length ≤ n := Nat.le_of_add_right_le within
  have whole := cut.takeWhile isDigit_of_isDelimiter digits
  obtain ⟨k, split, behind⟩ := cut.dropWhile whole digits
  have fraction := behind.fractionDigits fun some => by
    have length : (Mantissa.ofChars cs).length = (cs.takeWhile Char.isDigit).length +
        (1 + (Literal.fractionDigits (cs.dropWhile Char.isDigit)).length) :=
      congrArg _ (if_neg (mt List.isEmpty_iff.mp some))
    omega
  rw [Mantissa.ofChars, Mantissa.ofChars, whole, fraction]

theorem exponentRun (cut : Cut n cs ds) (value : Nat)
    (within : (exponentRun value cs).2 ≤ n) :
    exponentRun value ds = Literal.exponentRun value cs := by
  induction cut generalizing value with
  | @here c delimiter cs rest =>
    have none : Literal.startsWithDigit cs = false :=
      Bool.eq_false_iff.mpr fun digit =>
        Nat.not_le.mpr (exponentRun_pos value digit) within
    have none' : Literal.startsWithDigit (c :: rest) = false := isDigit_of_isDelimiter delimiter
    rw [exponentRun_of_other value none, exponentRun_of_other value none']
  | keep c cut ih =>
    rw [Literal.exponentRun] at within
    rw [Literal.exponentRun, Literal.exponentRun]
    split
    · rename_i digit
      rw [if_pos digit] at within
      dsimp only at within ⊢
      split
      · rfl
      · rename_i small
        rw [if_neg small] at within
        rw [ih _ (Nat.le_of_succ_le_succ within)]
    · rfl

theorem takeSign (cut : Cut n cs ds) (within : cs.length - (takeSign cs).2.length ≤ n) :
    (takeSign ds).1 = (Text.takeSign cs).1 ∧
    ds.length - (Text.takeSign ds).2.length = cs.length - (Text.takeSign cs).2.length ∧
    ∃ k, n = cs.length - (Text.takeSign cs).2.length + k ∧
      Cut k (Text.takeSign cs).2 (Text.takeSign ds).2 := by
  cases cut with
  | @here c delimiter cs rest =>
    have unsigned : Text.takeSign cs = (false, cs) := by
      unfold Text.takeSign at within ⊢
      split at within
      · simp only [List.length_cons] at within
        omega
      · simp only [List.length_cons] at within
        omega
      · rfl
    rw [unsigned, takeSign_of_isDelimiter delimiter]
    exact ⟨rfl, by simp, 0, by simp, .here delimiter cs rest⟩
  | @keep n cs ds c cut =>
    by_cases minus : c = '-'
    · subst minus
      have one (es : List Char) : ('-' :: es).length - es.length = 1 := Nat.add_sub_cancel_left ..
      exact ⟨rfl, (one ds).trans (one cs).symm, n, (one cs).symm ▸ Nat.add_comm n 1, cut⟩
    by_cases plus : c = '+'
    · subst plus
      have one (es : List Char) : ('+' :: es).length - es.length = 1 := Nat.add_sub_cancel_left ..
      exact ⟨rfl, (one ds).trans (one cs).symm, n, (one cs).symm ▸ Nat.add_comm n 1, cut⟩
    have unsigned (es : List Char) : Text.takeSign (c :: es) = (false, c :: es) := by
      unfold Text.takeSign
      split
      · rename_i sign
        exact absurd (List.cons.inj sign).1 minus
      · rename_i sign
        exact absurd (List.cons.inj sign).1 plus
      · rfl
    rw [unsigned, unsigned, Nat.sub_self, Nat.sub_self]
    exact ⟨rfl, rfl, n + 1, (Nat.zero_add _).symm, .keep c cut⟩

theorem exponent (cut : Cut n cs ds) (within : (Exponent.ofChars cs).length ≤ n) :
    Exponent.ofChars ds = Exponent.ofChars cs := by
  cases cut with
  | @here c delimiter cs rest =>
    have none : Exponent.ofChars (c :: rest) = .none :=
      if_neg (Bool.eq_false_iff.mp (isExponentMark_of_isDelimiter delimiter))
    rw [none]
    cases cs with
    | nil => rfl
    | cons d cs =>
      cases mark : d == 'e' || d == 'E' with
      | false => exact (if_neg (Bool.eq_false_iff.mp mark)).symm
      | true =>
        rw [Exponent.length_ofChars mark] at within
        omega
  | @keep n cs ds c cut =>
    cases mark : c == 'e' || c == 'E' with
    | false =>
      rw [Exponent.ofChars, Exponent.ofChars, mark]
      rfl
    | true =>
      rw [Exponent.length_ofChars mark] at within
      obtain ⟨sign, signLength, k, split, behind⟩ := cut.takeSign (by omega)
      have run := behind.exponentRun 0 (by omega)
      simp only [Exponent.ofChars, mark, sign, signLength, run]

theorem decimal {preferDecimal : Bool} (cut : Cut n cs ds)
    (within : (decimal preferDecimal cs).2 ≤ n) :
    decimal preferDecimal ds = Literal.decimal preferDecimal cs := by
  rw [length_decimal] at within
  have mantissa := cut.mantissa (Nat.le_of_add_right_le within)
  obtain ⟨k, split⟩ := Nat.exists_eq_add_of_le (Nat.le_of_add_right_le within)
  have exponent := (cut.drop split).exponent (by omega)
  simp only [Literal.decimal, mantissa, exponent]

theorem patternRun (cut : Cut n cs ds) (bits value digits length : Nat)
    (within : (patternRun bits value digits length cs).2 ≤ length + n) :
    patternRun bits value digits length ds = Literal.patternRun bits value digits length cs := by
  induction cut generalizing value digits length with
  | @here c delimiter cs rest =>
    have point : c ≠ '.' := by
      rintro rfl
      cases delimiter
    rw [patternRun_of_le within, Literal.patternRun, if_neg point, digitIn?_of_isDelimiter _ delimiter]
  | keep c cut ih =>
    rw [Literal.patternRun] at within
    rw [Literal.patternRun, Literal.patternRun]
    split
    · rename_i point
      rw [if_pos point] at within
      exact ih value digits (length + 1) (by omega)
    rename_i point
    rw [if_neg point] at within
    cases digit : digitIn? (twoTo bits) c with
    | none => rfl
    | some d =>
      rw [digit] at within
      dsimp only at within ⊢
      split
      · rename_i small
        rw [if_pos small] at within
        exact ih _ _ _ (by omega)
      · rfl

theorem literal {preferDecimal : Bool} (cut : Cut n cs ds) (some : 0 < n)
    (within : (read preferDecimal cs).2 ≤ n) : read preferDecimal ds = read preferDecimal cs := by
  have decimal (unmarked : ∀ d es, cs = '0' :: d :: es → prefixBits? d = none)
      (unmarked' : ∀ d es, ds = '0' :: d :: es → prefixBits? d = none) :
      read preferDecimal ds = read preferDecimal cs := by
    rw [read_of_unmarked unmarked] at within
    rw [read_of_unmarked unmarked, read_of_unmarked unmarked']
    exact cut.decimal within
  cases cut with
  | here => exact absurd some (Nat.lt_irrefl 0)
  | @keep n cs ds c behind =>
    by_cases zero : c = '0'
    · subst zero
      cases behind with
      | @here c delimiter cs rest =>
        refine decimal (fun d es same => ?_) (fun d es same => ?_)
        · cases mark : prefixBits? d with
          | none => rfl
          | some bits =>
            rw [same, read_of_mark mark] at within
            exact absurd (Nat.le_trans (le_patternRun_length bits 0 0 2 es) within) (by omega)
        · obtain ⟨rfl, rfl⟩ := List.cons.inj (List.cons.inj same).2
          exact prefixBits?_of_isDelimiter delimiter
      | @keep n cs ds d behind =>
        cases mark : prefixBits? d with
        | none =>
          refine decimal (fun e es same => ?_) (fun e es same => ?_)
          · obtain ⟨rfl, rfl⟩ := List.cons.inj (List.cons.inj same).2
            exact mark
          · obtain ⟨rfl, rfl⟩ := List.cons.inj (List.cons.inj same).2
            exact mark
        | some bits =>
          rw [read_of_mark mark] at within
          rw [read_of_mark mark, read_of_mark mark]
          exact behind.patternRun bits 0 0 2 (by omega)
    · refine decimal (fun d es same => ?_) (fun d es same => ?_)
      · exact absurd (List.cons.inj same).1 zero
      · exact absurd (List.cons.inj same).1 zero

theorem symbol (cut : Cut n cs ds)
    (within : ∀ found, Symbol.read? c cs = some found → found.2 ≤ n + 1) :
    Symbol.read? c ds = Symbol.read? c cs := by
  cases cut with
  | @here d delimiter cs rest =>
    have single : Symbol.read? c (d :: rest) = (Symbol.single? c).map (·, 1) := by
      rw [Symbol.read?, List.head?_cons, Option.bind_some, double?_of_isDelimiter c delimiter]
    rw [single]
    cases double : cs.head?.bind (Symbol.double? c) with
    | none => rw [Symbol.read?, double]
    | some s =>
      have reaches : 2 ≤ 1 := within (s, 2) (by rw [Symbol.read?, double])
      exact absurd reaches (by decide)
  | keep => rfl

theorem lexeme (preferDecimal : Bool) (c : Char) (cut : Cut n cs ds)
    (within : (Lexeme.read preferDecimal c cs).2 ≤ n + 1) :
    Lexeme.read preferDecimal c ds = Lexeme.read preferDecimal c cs := by
  have starts : startsNumber c ds = startsNumber c cs := by
    cases separator : isSeparator c with
    | false => rw [startsNumber, startsNumber, separator, Bool.false_and, Bool.false_and]
    | true =>
      have begins := cut.startsWithDigit fun digit => by
        have number : startsNumber c cs = true := by
          rw [startsNumber, separator, digit, Bool.true_and, Bool.or_true]
        have reaches := two_le_read_of_separator preferDecimal separator digit
        rw [Lexeme.read, if_pos number] at within
        omega
      rw [startsNumber, startsNumber, begins]
  unfold Lexeme.read at within ⊢
  rw [starts]
  split
  · rename_i number
    rw [if_pos number] at within
    exact (cut.keep c).literal (Nat.succ_pos n) within
  rename_i other
  rw [if_neg other] at within
  split
  · rename_i name
    rw [if_pos name] at within
    dsimp only at within ⊢
    rw [cut.takeWhile isNamePart_of_isDelimiter (Nat.le_of_succ_le_succ within)]
  rename_i noName
  rw [if_neg noName] at within
  have same := cut.symbol (c := c) fun found symbol => by
    rw [symbol] at within
    exact within
  rw [same]

end Cut

namespace Token

variable {preferDecimal : Bool} {text text' : String} {n p : Nat}

theorem position_of_cut (cut : Cut n text.toList text'.toList)
    (within : (scan preferDecimal text p).position < n) :
    (scan preferDecimal text' p).position = (scan preferDecimal text p).position := by
  obtain ⟨k, split⟩ := Nat.exists_eq_add_of_le
    (Nat.le_of_lt (Nat.lt_of_le_of_lt (le_position preferDecimal text p) within))
  have skipped := position_eq preferDecimal text p
  have same := (cut.drop split).takeWhile_of_lt (f := isSpace) (by omega)
  rw [position_eq, same, ← skipped]

theorem scan_of_cut (cut : Cut n text.toList text'.toList)
    (more : (scan preferDecimal text p).lexeme ≠ .eof)
    (within : (scan preferDecimal text p).stop ≤ n) :
    scan preferDecimal text' p = scan preferDecimal text p := by
  have filled := length_pos_of_ne_eof preferDecimal text p more
  rw [stop] at within
  have position : (scan preferDecimal text' p).position = (scan preferDecimal text p).position :=
    position_of_cut cut (by omega)
  rcases scan_cases preferDecimal text p with ⟨ends, -, -⟩ | ⟨c, cs, here, -, -, length⟩
  · exact absurd ends more
  obtain ⟨k, split⟩ := Nat.exists_eq_add_of_le (Nat.le_of_add_right_le within)
  have behind := cut.drop split
  rw [here] at behind
  generalize kept : text'.toList.drop (scan preferDecimal text p).position = ds at behind
  cases behind with
  | here => omega
  | @keep k _ ds _ behind =>
    have same := behind.lexeme preferDecimal c (by omega)
    rw [← position] at kept
    rw [scan_of_here preferDecimal text' p kept, same, position,
      ← scan_of_here preferDecimal text p here]

end Token

end Reckoner
