import Reckoner.Proofs.Rounding.Decimals
import Reckoner.Proofs.Rounding.Doubles
import Reckoner.Proofs.Scanning.Reach

namespace Reckoner

namespace Literal

open Text
open Decimal (Context)

/-- The parts of a numeral of base 10: digits, a separator and the digits of a fraction, a mark, a sign and
    the digits of an exponent. -/
structure Numeral where
  whole : List Char
  separator : List Char
  fraction : List Char
  mark : List Char
  sign : List Char
  exponent : List Char

namespace Numeral

def chars (n : Numeral) : List Char :=
  n.whole ++ (n.separator ++ (n.fraction ++ (n.mark ++ (n.sign ++ n.exponent))))

/-- There is a digit before the exponent, and none of the optional parts is without digits. -/
structure Proper (n : Numeral) : Prop where
  whole : ∀ c ∈ n.whole, c.isDigit = true
  fraction : ∀ c ∈ n.fraction, c.isDigit = true
  exponent : ∀ c ∈ n.exponent, c.isDigit = true
  filled : n.whole ≠ [] ∨ n.fraction ≠ []
  separator : n.separator = [] ∧ n.fraction = [] ∨
    (n.separator = ['.'] ∨ n.separator = [',']) ∧ n.fraction ≠ []
  mark : n.mark = [] ∧ n.sign = [] ∧ n.exponent = [] ∨
    (n.mark = ['e'] ∨ n.mark = ['E']) ∧ (n.sign = [] ∨ n.sign = ['+'] ∨ n.sign = ['-']) ∧ n.exponent ≠ []

/-- The exponent of the last digit before the point. -/
def power (n : Numeral) : Int := Decimal.signed (n.sign = ['-']) (numeralValue 10 n.exponent)

/-- The number that a numeral denotes. -/
def value (n : Numeral) : ℚ := numeralValue 10 (n.whole ++ n.fraction) * 10 ^ (n.power - n.fraction.length)

/-- No other numeral at the beginning of the characters reaches further. -/
structure Longest (n : Numeral) (cs : List Char) : Prop where
  proper : n.Proper
  begins : n.chars <+: cs
  longest : ∀ m : Numeral, m.Proper → m.chars <+: cs → m.chars.length ≤ n.chars.length

theorem exists_longest {m : Numeral} {cs : List Char} (proper : m.Proper) (begins : m.chars <+: cs) :
    ∃ n : Numeral, n.Longest cs := by
  by_cases longer : ∃ n : Numeral, n.Proper ∧ n.chars <+: cs ∧ m.chars.length < n.chars.length
  · obtain ⟨n, proper, begins, further⟩ := longer
    have inside := begins.length_le
    exact exists_longest proper begins
  · refine ⟨m, proper, begins, fun n proper begins => not_lt.mp fun further => longer ?_⟩
    exact ⟨n, proper, begins, further⟩
termination_by cs.length - m.chars.length

variable {n : Numeral} {behind : List Char}

theorem Longest.ends (longest : n.Longest (n.chars ++ behind)) {m : Numeral} (proper : m.Proper)
    {more : List Char} (begins : more <+: behind) (filled : more ≠ []) : m.chars ≠ n.chars ++ more := by
  intro longer
  have bound := longest.longest m proper (longer ▸ (List.prefix_append_right_inj n.chars).mpr begins)
  rw [longer, List.length_append] at bound
  have positive := List.length_pos_iff.mpr filled
  omega

theorem forall_isDigit_append {cs : List Char} {d : Char} (all : ∀ c ∈ cs, c.isDigit = true)
    (digit : d.isDigit = true) : ∀ c ∈ cs ++ [d], c.isDigit = true := by
  intro c member
  rcases List.mem_append.mp member with before | last
  · exact all c before
  · exact List.mem_singleton.mp last ▸ digit

theorem Longest.no_digit (longest : n.Longest (n.chars ++ behind)) : startsWithDigit behind = false := by
  rw [Bool.eq_false_iff]
  intro starts
  cases behind with
  | nil => cases starts
  | cons d ds =>
    have digit : d.isDigit = true := starts
    have begins : [d] <+: d :: ds := ⟨ds, rfl⟩
    obtain ⟨whole, fraction, exponent, filled, separator, mark⟩ := longest.proper
    -- The digit would extend the last of the parts that are present.
    rcases mark with ⟨noMark, noSign, noExponent⟩ | given
    · rcases separator with ⟨noSeparator, noFraction⟩ | given
      · refine longest.ends (m := { n with whole := n.whole ++ [d] }) ?_ begins nofun ?_
        · exact ⟨forall_isDigit_append whole digit, fraction, exponent, .inl (by simp),
            .inl ⟨noSeparator, noFraction⟩, .inl ⟨noMark, noSign, noExponent⟩⟩
        · simp [chars, noMark, noSign, noExponent, noSeparator, noFraction]
      · refine longest.ends (m := { n with fraction := n.fraction ++ [d] }) ?_ begins nofun ?_
        · exact ⟨whole, forall_isDigit_append fraction digit, exponent, .inr (by simp),
            .inr ⟨given.1, by simp⟩, .inl ⟨noMark, noSign, noExponent⟩⟩
        · simp [chars, noMark, noSign, noExponent]
    · refine longest.ends (m := { n with exponent := n.exponent ++ [d] }) ?_ begins nofun ?_
      · exact ⟨whole, fraction, forall_isDigit_append exponent digit, filled, separator,
          .inr ⟨given.1, given.2.1, by simp⟩⟩
      · simp [chars]

theorem Longest.no_fraction (longest : n.Longest (n.chars ++ behind)) (noFraction : n.fraction = [])
    (noMark : n.mark = []) : fractionDigits behind = [] := by
  cases behind with
  | nil => rfl
  | cons c cs =>
    refine if_neg fun starts => ?_
    obtain ⟨separator, digit⟩ := Bool.and_eq_true_iff.mp starts
    cases cs with
    | nil => cases digit
    | cons d ds =>
      obtain ⟨whole, -, -, filled, noSeparator, mark⟩ := longest.proper
      obtain ⟨-, noSign, noExponent⟩ := mark.resolve_right (by simp [noMark])
      have noSeparator := (noSeparator.resolve_right (by simp [noFraction])).1
      have begins : [c, d] <+: c :: d :: ds := ⟨ds, rfl⟩
      refine longest.ends (m := { n with separator := [c], fraction := [d] }) ?_ begins nofun ?_
      · have point : c = '.' ∨ c = ',' := by
          simpa [isSeparator, or_comm] using separator
        refine ⟨whole, ?_, ?_, .inr (by simp), .inr ⟨by simpa using point, by simp⟩,
          .inl ⟨noMark, noSign, noExponent⟩⟩
        · exact fun e member => List.mem_singleton.mp member ▸ digit
        · simp [noExponent]
      · simp [chars, noMark, noSign, noExponent, noSeparator, noFraction]

theorem takeSign_split (cs : List Char) : ∃ sign, (sign = [] ∨ sign = ['+'] ∨ sign = ['-']) ∧
    cs = sign ++ (takeSign cs).2 := by
  unfold takeSign
  split
  · exact ⟨['-'], by simp, rfl⟩
  · exact ⟨['+'], by simp, rfl⟩
  · exact ⟨[], by simp, rfl⟩

theorem Longest.no_exponent (longest : n.Longest (n.chars ++ behind)) (noMark : n.mark = []) {c : Char}
    {cs : List Char} (same : behind = c :: cs) (mark : c = 'e' ∨ c = 'E') :
    startsWithDigit (takeSign cs).2 = false := by
  rw [Bool.eq_false_iff]
  intro starts
  obtain ⟨sign, possible, split⟩ := takeSign_split cs
  generalize (takeSign cs).2 = rest at starts split
  cases rest with
  | nil => cases starts
  | cons d ds =>
    have digit : d.isDigit = true := starts
    obtain ⟨whole, fraction, -, filled, separator, noExponent⟩ := longest.proper
    obtain ⟨-, noSign, noExponent⟩ := noExponent.resolve_right (by simp [noMark])
    have begins : c :: (sign ++ [d]) <+: behind := ⟨ds, by simp [same, split]⟩
    refine longest.ends (m := { n with mark := [c], sign := sign, exponent := [d] }) ?_ begins nofun ?_
    · exact ⟨whole, fraction, fun e member => List.mem_singleton.mp member ▸ digit, filled, separator,
        .inr ⟨by simpa using mark, possible, nofun⟩⟩
    · simp [chars, noMark, noSign, noExponent]

end Numeral

theorem exponentRun_above {cs rest : List Char} (digits : ∀ c ∈ cs, c.isDigit = true)
    (ends : startsWithDigit rest = false) {value : Nat} (above : maxExponent < continued 10 value cs) :
    maxExponent < (exponentRun value (cs ++ rest)).1 := by
  induction cs generalizing value with
  | nil =>
    rw [List.nil_append, exponentRun_of_other value ends]
    exact above
  | cons c cs ih =>
    obtain ⟨first, others⟩ := List.forall_mem_cons.mp digits
    rw [List.cons_append, exponentRun, if_pos first]
    dsimp only
    split
    · assumption
    · exact ih others above

theorem takeSign_of_digit {sign ds : List Char} (possible : sign = [] ∨ sign = ['+'] ∨ sign = ['-'])
    (digit : startsWithDigit ds = true) : takeSign (sign ++ ds) = (decide (sign = ['-']), ds) := by
  rcases possible with rfl | rfl | rfl
  · cases ds with
    | nil => cases digit
    | cons d ds =>
      have digit : d.isDigit = true := digit
      have other (c : Char) (mark : c.isDigit = false) : d ≠ c := by
        rintro rfl
        rw [digit] at mark
        cases mark
      unfold takeSign
      split
      · rename_i same
        exact absurd (List.cons.inj same).1 (other '-' rfl)
      · rename_i same
        exact absurd (List.cons.inj same).1 (other '+' rfl)
      · rfl
  · rfl
  · rfl

theorem startsWithDigit_append {ds : List Char} (digits : ∀ c ∈ ds, c.isDigit = true) (filled : ds ≠ [])
    (rest : List Char) : startsWithDigit (ds ++ rest) = true := by
  obtain ⟨d, ds, rfl⟩ := List.exists_cons_of_ne_nil filled
  exact digits d List.mem_cons_self

namespace Numeral

variable {n : Numeral} {behind : List Char}

theorem Proper.ofChars_exponent (proper : n.Proper) (given : n.exponent ≠ [])
    (ends : startsWithDigit behind = false) :
    if maxExponent < numeralValue 10 n.exponent then
      ∃ length, Exponent.ofChars (n.mark ++ (n.sign ++ (n.exponent ++ behind))) =
        .fault .exponentOverflow length
    else Exponent.ofChars (n.mark ++ (n.sign ++ (n.exponent ++ behind))) =
      .given n.power (n.mark ++ (n.sign ++ n.exponent)).length := by
  obtain ⟨mark, sign, -⟩ := proper.mark.resolve_left fun none => given none.2.2
  obtain ⟨c, same, isMark⟩ : ∃ c, n.mark = [c] ∧ (c == 'e' || c == 'E') = true := by
    rcases mark with same | same <;> exact ⟨_, same, rfl⟩
  have digit := startsWithDigit_append proper.exponent given behind
  have split := takeSign_of_digit sign digit
  have count := exponentRun_pos 0 digit
  rw [same]
  simp only [List.singleton_append, Exponent.ofChars, isMark, if_true, split, if_neg (Nat.ne_of_gt count)]
  split_ifs with above further further
  · exact ⟨_, rfl⟩
  · exact absurd (exponentRun_above proper.exponent ends above) further
  · rw [exponentRun_digits proper.exponent ends (not_lt.mp above)] at further
    exact absurd further above
  · rw [exponentRun_digits proper.exponent ends (not_lt.mp above)]
    simp [power, numeralValue]
    omega

theorem Longest.ofChars_behind (longest : n.Longest (n.chars ++ behind)) (noMark : n.mark = []) :
    if behind.head? = some 'e' ∨ behind.head? = some 'E' then
      ∃ length, Exponent.ofChars behind = .fault .exponentExpected length
    else Exponent.ofChars behind = .none := by
  split
  · rename_i mark
    cases behind with
    | nil => simp at mark
    | cons c cs =>
      have mark : c = 'e' ∨ c = 'E' := by simpa using mark
      have isMark : (c == 'e' || c == 'E') = true := by simpa using mark
      have run := exponentRun_of_other 0 (longest.no_exponent noMark rfl mark)
      simp only [Exponent.ofChars, isMark, if_true, run]
      exact ⟨_, rfl⟩
  · rename_i other
    cases behind with
    | nil => rfl
    | cons c cs =>
      refine if_neg fun mark => other ?_
      simpa using mark

theorem takeWhile_of_no_digit {cs : List Char} (ends : startsWithDigit cs = false) :
    cs.takeWhile Char.isDigit = [] := by
  cases cs with
  | nil => rfl
  | cons c cs => exact List.takeWhile_cons_of_neg (Bool.eq_false_iff.mp ends)

theorem dropWhile_of_no_digit {cs : List Char} (ends : startsWithDigit cs = false) :
    cs.dropWhile Char.isDigit = cs := by
  cases cs with
  | nil => rfl
  | cons c cs => exact List.dropWhile_cons_of_neg (Bool.eq_false_iff.mp ends)

theorem Proper.separated (proper : n.Proper) (filled : n.fraction ≠ []) :
    ∃ c, n.separator = [c] ∧ isSeparator c = true ∧ c.isDigit = false := by
  obtain ⟨same | same, -⟩ := proper.separator.resolve_left fun none => filled none.2
  · exact ⟨'.', same, rfl, rfl⟩
  · exact ⟨',', same, rfl, rfl⟩

theorem Longest.behind_mantissa (longest : n.Longest (n.chars ++ behind)) :
    startsWithDigit (n.mark ++ (n.sign ++ (n.exponent ++ behind))) = false ∧
      (n.fraction = [] → fractionDigits (n.mark ++ (n.sign ++ (n.exponent ++ behind))) = []) := by
  rcases longest.proper.mark with ⟨noMark, noSign, noExponent⟩ | ⟨same | same, -⟩
  · rw [noMark, noSign, noExponent]
    exact ⟨longest.no_digit, fun noFraction => longest.no_fraction noFraction noMark⟩
  · rw [same]
    exact ⟨rfl, fun _ => rfl⟩
  · rw [same]
    exact ⟨rfl, fun _ => rfl⟩

theorem Longest.ofChars_mantissa (longest : n.Longest (n.chars ++ behind)) :
    Mantissa.ofChars (n.chars ++ behind) = ⟨n.whole, n.fraction⟩ := by
  obtain ⟨ends, noFraction⟩ := longest.behind_mantissa
  have parts : n.chars ++ behind =
      n.whole ++ (n.separator ++ (n.fraction ++ (n.mark ++ (n.sign ++ (n.exponent ++ behind))))) := by
    simp [chars]
  rw [parts]
  generalize n.mark ++ (n.sign ++ (n.exponent ++ behind)) = rest at ends noFraction
  have fraction : startsWithDigit (n.separator ++ (n.fraction ++ rest)) = false ∧
      fractionDigits (n.separator ++ (n.fraction ++ rest)) = n.fraction := by
    rcases longest.proper.separator with ⟨none, none'⟩ | ⟨-, filled⟩
    · rw [none, none']
      exact ⟨ends, noFraction none'⟩
    · obtain ⟨c, same, separator, other⟩ := longest.proper.separated filled
      have digit := startsWithDigit_append longest.proper.fraction filled rest
      rw [same, List.singleton_append, fractionDigits, separator, digit]
      exact ⟨other, takeWhile_digits longest.proper.fraction (takeWhile_of_no_digit ends)⟩
  rw [Mantissa.ofChars, takeWhile_digits longest.proper.whole (takeWhile_of_no_digit fraction.1),
    List.dropWhile_append_of_pos longest.proper.whole, dropWhile_of_no_digit fraction.1, fraction.2]

theorem Proper.length_mantissa (proper : n.Proper) :
    (⟨n.whole, n.fraction⟩ : Mantissa).length = (n.whole ++ (n.separator ++ n.fraction)).length := by
  rw [Mantissa.length]
  rcases proper.separator with ⟨none, none'⟩ | ⟨-, filled⟩
  · simp [none, none']
  · obtain ⟨c, same, -⟩ := proper.separated filled
    simp [same, filled]
    omega

theorem Proper.drop_mantissa (proper : n.Proper) (behind : List Char) :
    (n.chars ++ behind).drop (⟨n.whole, n.fraction⟩ : Mantissa).length =
      n.mark ++ (n.sign ++ (n.exponent ++ behind)) := by
  have parts : n.chars ++ behind =
      n.whole ++ (n.separator ++ n.fraction) ++ (n.mark ++ (n.sign ++ (n.exponent ++ behind))) := by
    simp [chars]
  rw [proper.length_mantissa, parts, List.drop_left]

theorem Longest.decimal_eq (preferDecimal : Bool) (longest : n.Longest (n.chars ++ behind)) :
    decimal preferDecimal (n.chars ++ behind) =
      match Exponent.ofChars (n.mark ++ (n.sign ++ (n.exponent ++ behind))) with
      | .none => (mantissaLexeme preferDecimal ⟨n.whole, n.fraction⟩,
          (n.whole ++ (n.separator ++ n.fraction)).length)
      | .given e length => (fractionLexeme preferDecimal (Mantissa.exact ⟨n.whole, n.fraction⟩ e),
          (n.whole ++ (n.separator ++ n.fraction)).length + length)
      | .fault fault length =>
          (.error fault, (n.whole ++ (n.separator ++ n.fraction)).length + length) := by
  unfold decimal
  dsimp only
  rewrite [longest.ofChars_mantissa, longest.proper.drop_mantissa, longest.proper.length_mantissa]
  rfl

end Numeral

def ReadsRounded (preferDecimal : Bool) (x : ℚ) (l : Lexeme) : Prop :=
  if preferDecimal then
    if |Context.engine.grid.round x| ≤ Context.engine.greatest then
      ∃ d, l = .number (.decimal d) ∧ d.Fits .engine ∧ d.number? = some (Context.engine.grid.round x)
    else l = .error .numberTooLarge
  else ∃ y, l = .number (.double y) ∧ Binary64.IsNearest false x y

theorem fractionLexeme_rounded (preferDecimal : Bool) (c : Nat) (e : Int) :
    ReadsRounded preferDecimal ((c : ℚ) * 10 ^ e) (fractionLexeme preferDecimal (.finite false c e)) := by
  unfold ReadsRounded fractionLexeme fractionValue?
  cases preferDecimal with
  | false => exact ⟨_, rfl, Binary64.ofScaled_nearest false c e⟩
  | true =>
    have proper := Decimal.engine_proper
    have value : (Decimal.finite false c e).number? = some ((c : ℚ) * 10 ^ e) :=
      Decimal.number?_finite false c e
    have rounded := (Decimal.round_rounds proper value).cases (Decimal.round_fits proper _)
    rw [if_pos rfl, if_pos rfl]
    split at rounded
    · rename_i inside
      obtain ⟨d, result, fits, value⟩ := rounded
      rw [if_pos inside, result]
      exact ⟨d, rfl, fits, value⟩
    · rename_i beyond
      rw [if_neg beyond, rounded]

namespace Numeral

variable {n : Numeral} {behind : List Char}

/-- What a literal is read as and the number of characters that it covers, if `n` is the longest numeral at
    its position and `next` the character behind. -/
def Reading (preferDecimal : Bool) (n : Numeral) (next : Option Char) (l : Lexeme) (length : Nat) : Prop :=
  if n.exponent = [] ∧ (next = some 'e' ∨ next = some 'E') then l = .error .exponentExpected
  else if maxExponent < numeralValue 10 n.exponent then l = .error .exponentOverflow
  else length = n.chars.length ∧
    if n.fraction = [] ∧ n.exponent = [] ∧ (numeralValue 10 n.whole : Int) ≤ greatestWord then
      l = .number (.integer (numeralValue 10 n.whole))
    else ReadsRounded preferDecimal n.value l

theorem Longest.decimal_reading (preferDecimal : Bool) (longest : n.Longest (n.chars ++ behind)) :
    n.Reading preferDecimal behind.head? (decimal preferDecimal (n.chars ++ behind)).1
      (decimal preferDecimal (n.chars ++ behind)).2 := by
  have proper := longest.proper
  unfold Reading
  rw [longest.decimal_eq]
  by_cases noExponent : n.exponent = []
  · obtain ⟨noMark, noSign, -⟩ := proper.mark.resolve_right fun given => given.2.2 noExponent
    have read := longest.ofChars_behind noMark
    rw [noMark, noSign, noExponent]
    simp only [List.nil_append, true_and]
    split at read
    · rename_i mark
      obtain ⟨length, fault⟩ := read
      rw [if_pos mark, fault]
    · rename_i other
      have small : ¬ maxExponent < numeralValue 10 [] := by decide
      rw [if_neg other, if_neg small, read]
      refine ⟨?_, ?_⟩
      · simp [chars, noMark, noSign, noExponent]
      · rw [mantissaLexeme]
        simp only [List.isEmpty_iff]
        split
        · rfl
        · have value : n.value =
              numeralValue 10 (n.whole ++ n.fraction) * 10 ^ (0 - n.fraction.length : Int) := by
            simp [value, power, noExponent, numeralValue, continued, Decimal.signed]
          rw [value]
          exact fractionLexeme_rounded preferDecimal _ _
  · have read := proper.ofChars_exponent noExponent longest.no_digit
    rw [if_neg fun none => noExponent none.1]
    split at read
    · rename_i above
      obtain ⟨length, fault⟩ := read
      rw [if_pos above, fault]
    · rename_i small
      rw [if_neg small, read, if_neg fun none => noExponent none.2.1]
      refine ⟨?_, fractionLexeme_rounded preferDecimal _ _⟩
      simp [chars]
      omega

theorem Proper.startsNumber (proper : n.Proper) (behind : List Char) :
    ∃ c cs, n.chars ++ behind = c :: cs ∧ startsNumber c cs = true := by
  by_cases noWhole : n.whole = []
  · have filled := proper.filled.resolve_left (not_not.mpr noWhole)
    obtain ⟨c, same, separator, -⟩ := proper.separated filled
    have digit := startsWithDigit_append proper.fraction filled (n.mark ++ (n.sign ++ n.exponent) ++ behind)
    refine ⟨c, n.fraction ++ (n.mark ++ (n.sign ++ n.exponent) ++ behind), ?_, ?_⟩
    · simp [chars, noWhole, same]
    · rw [Literal.startsNumber, separator, digit, Bool.and_true, Bool.or_true]
  · obtain ⟨d, ds, first⟩ := List.exists_cons_of_ne_nil noWhole
    have digit : d.isDigit = true := proper.whole d (by simp [first])
    exact ⟨d, ds ++ (n.separator ++ (n.fraction ++ (n.mark ++ (n.sign ++ n.exponent)))) ++ behind,
      by simp [chars, first], Bool.or_eq_true_iff.mpr (.inl digit)⟩

end Numeral

end Literal

namespace Token

open Literal

/-- Where a numeral stands without the mark of another base, the token is a number. There is a longest
    numeral, which the token covers, and the token denotes the value of the numeral, rounded once if this is
    no whole number of 64 bits. -/
theorem scan_numeral (preferDecimal : Bool) {text : String} {p : Nat} {rest : List Char}
    (here : (text.toList.drop p).dropWhile isSpace = rest) {m : Numeral} (proper : m.Proper)
    (begins : m.chars <+: rest) (unmarked : ∀ c cs, rest = '0' :: c :: cs → prefixBits? c = none) :
    (∃ n : Numeral, n.Longest rest) ∧
    ∀ n : Numeral, n.Longest rest →
      (scan preferDecimal text p).position = p + ((text.toList.drop p).takeWhile isSpace).length ∧
      n.Reading preferDecimal (rest.drop n.chars.length).head? (scan preferDecimal text p).lexeme
        (scan preferDecimal text p).length := by
  refine ⟨Numeral.exists_longest proper begins, fun n longest => ⟨position_eq preferDecimal text p, ?_⟩⟩
  obtain ⟨behind, rfl⟩ := longest.begins
  obtain ⟨c, cs, starts, number⟩ := longest.proper.startsNumber behind
  have reading := longest.decimal_reading preferDecimal
  rw [← read_of_unmarked unmarked, starts] at reading
  have scanned : scan preferDecimal text p = ⟨(Literal.read preferDecimal (c :: cs)).1,
      p + ((text.toList.drop p).takeWhile isSpace).length, (Literal.read preferDecimal (c :: cs)).2⟩ := by
    unfold scan Token.read
    rw [here, starts]
    dsimp only
    rw [Lexeme.read, if_pos number]
  rw [scanned, List.drop_left]
  exact reading

theorem scan_numeral_fraction :
    ("x= ,25e-1;".toList.drop 2).dropWhile isSpace = [',', '2', '5', 'e', '-', '1', ';'] ∧
    (⟨[], [','], ['2', '5'], ['e'], ['-'], ['1']⟩ : Numeral).Proper ∧
    (⟨[], [','], ['2', '5'], ['e'], ['-'], ['1']⟩ : Numeral).chars <+: [',', '2', '5', 'e', '-', '1', ';'] ∧
    ∃ n : Numeral, n.Longest [',', '2', '5', 'e', '-', '1', ';'] ∧
      n.Reading true ([',', '2', '5', 'e', '-', '1', ';'].drop n.chars.length).head?
        (scan true "x= ,25e-1;" 2).lexeme (scan true "x= ,25e-1;" 2).length := by
  have here : ("x= ,25e-1;".toList.drop 2).dropWhile isSpace =
      [',', '2', '5', 'e', '-', '1', ';'] := by decide
  have proper : (⟨[], [','], ['2', '5'], ['e'], ['-'], ['1']⟩ : Numeral).Proper :=
    ⟨nofun, by simp [Char.isDigit], by simp [Char.isDigit], by decide, by decide, by decide⟩
  have begins : (⟨[], [','], ['2', '5'], ['e'], ['-'], ['1']⟩ : Numeral).chars <+:
      [',', '2', '5', 'e', '-', '1', ';'] := ⟨[';'], rfl⟩
  obtain ⟨⟨n, longest⟩, reads⟩ := scan_numeral true here proper begins nofun
  exact ⟨here, proper, begins, n, longest, (reads n longest).2⟩

end Token

end Reckoner
