import Reckoner.Proofs.Display.Literals
import Reckoner.Proofs.Grammar.Literals
import Reckoner.Proofs.Values.Decimals
import Reckoner.Proofs.Values.Numbers
import Reckoner.Value.Format

namespace Reckoner

open Text

namespace Literal

theorem continued_zeros (n : Nat) : continued 10 0 (List.replicate n '0') = 0 := by
  induction n with
  | zero => rfl
  | succ n ih => exact ih

theorem withPoint_mantissa {digits : List Char} (filled : digits ≠ [])
    (run : ∀ c ∈ digits, c.isDigit = true) (place : Int) (within : place ≤ digits.length) :
    ∃ m : Mantissa, m.Proper ∧ withPoint digits place = m.chars ∧
      (m.whole = ['0'] ∨ m.whole <+: digits) ∧
      ∀ a, m.exact a = .finite false (numeralValue 10 digits) (a - (digits.length - place)) := by
  unfold withPoint
  by_cases low : place ≤ 0
  -- all digits stand behind the point, after as many zeros as are missing
  · refine ⟨⟨['0'], List.replicate (-place).toNat '0' ++ digits⟩, ⟨by simp, by simp, ?_⟩, ?_, .inl rfl, ?_⟩
    · intro c member
      rcases List.mem_append.mp member with zero | digit
      · rw [(List.mem_replicate.mp zero).2]
        rfl
      · exact run c digit
    · simp [low, Mantissa.chars, pointed, filled]
    · intro a
      have value : numeralValue 10 (['0'] ++ (List.replicate (-place).toNat '0' ++ digits)) =
          numeralValue 10 digits := by
        rw [numeralValue, continued_append, continued_append]
        exact congrArg (continued 10 · digits) (continued_zeros _)
      simp only [Mantissa.exact, value, List.length_append, List.length_replicate]
      congr 1
      omega
  · by_cases all : digits.length ≤ place.toNat
    -- no digit stands behind the point, and no zero is needed before it
    · refine ⟨⟨digits, []⟩, ⟨filled, run, List.forall_mem_nil _⟩, ?_, .inr List.prefix_rfl, ?_⟩
      · simp [low, all, Mantissa.chars, pointed]
        omega
      · intro a
        simp only [Mantissa.exact, List.append_nil, List.length_nil]
        congr 1
        omega
    · refine ⟨⟨digits.take place.toNat, digits.drop place.toNat⟩, ⟨?_, ?_, ?_⟩, ?_,
        .inr (List.take_prefix _ _), ?_⟩
      · simp only [ne_eq, List.take_eq_nil_iff, filled, or_false]
        omega
      · exact fun c member => run c (List.mem_of_mem_take member)
      · exact fun c member => run c (List.mem_of_mem_drop member)
      · simp [low, all, Mantissa.chars, pointed]
      · intro a
        simp only [Mantissa.exact, List.take_append_drop, List.length_drop]
        congr 1
        omega

end Literal

namespace Decimal

open Literal

theorem magnitudeChars_mantissa (c : Nat) (e : Int) : ∃ m : Mantissa, m.Proper ∧
    ((e ≤ 0 ∧ magnitudeChars c e = m.chars ∧ m.exact 0 = finite false c e) ∨
      (e ≠ 0 ∧ magnitudeChars c e = m.chars ++ 'E' :: signedNumeral (adjusted c e) ∧
        m.exact (adjusted c e) = finite false c e)) := by
  have filled := numeral_ne_nil 10 c
  have run : ∀ d ∈ numeral 10 c, d.isDigit = true := fun d => isDigit_of_mem_numeral
  have value : numeralValue 10 (numeral 10 c) = c := numeralValue_numeral (by decide) (by decide) c
  have digits := digitCount_pos c
  unfold magnitudeChars
  dsimp only
  split
  · rename_i positional
    obtain ⟨m, proper, chars, -, denotes⟩ := withPoint_mantissa filled run
      (adjusted c e + 1) (by rw [length_numeral, adjusted]; omega)
    refine ⟨m, proper, .inl ⟨positional.1, chars, ?_⟩⟩
    rw [denotes, value, length_numeral, adjusted]
    congr 1
    omega
  · rename_i scientific
    obtain ⟨m, proper, chars, -, denotes⟩ := withPoint_mantissa filled run 1
      (by rw [length_numeral]; omega)
    refine ⟨m, proper, .inr ⟨?_, by rw [chars], ?_⟩⟩
    · unfold adjusted at scientific
      omega
    · rw [denotes, value, length_numeral, adjusted]
      congr 1
      omega

theorem mantissaLexeme_of_exact {preferDecimal : Bool} {m : Mantissa} {c : Nat} {e : Int}
    (denotes : m.exact 0 = finite false c e) :
    mantissaLexeme preferDecimal m = if e = 0 ∧ (c : Int) ≤ greatestWord then .number (.integer c)
      else fractionLexeme preferDecimal (finite false c e) := by
  unfold mantissaLexeme
  rw [denotes]
  obtain ⟨whole, fraction⟩ := m
  cases fraction with
  | nil =>
    simp only [Mantissa.exact, List.append_nil, List.length_nil, finite.injEq, true_and] at denotes
    obtain ⟨rfl, rfl⟩ := denotes
    simp
  | cons d ds =>
    have place := (finite.inj denotes).2.2
    rw [List.length_cons] at place
    rw [if_neg (by simp), if_neg (by omega)]

theorem read_magnitudeChars (preferDecimal : Bool) {c : Nat} {e : Int}
    (bound : (adjusted c e).natAbs ≤ maxExponent) :
    Literal.read preferDecimal (magnitudeChars c e) =
      (if e = 0 ∧ (c : Int) ≤ greatestWord then .number (.integer c)
        else fractionLexeme preferDecimal (finite false c e), (magnitudeChars c e).length) := by
  obtain ⟨m, proper, ⟨-, chars, denotes⟩ | ⟨scaled, chars, denotes⟩⟩ := magnitudeChars_mantissa c e
  · rw [chars, proper.read_mantissa, mantissaLexeme_of_exact denotes]
  · rw [chars, proper.read_exponent bound, denotes, if_neg (fun whole => scaled whole.1)]

theorem magnitudeChars_head (c : Nat) (e : Int) :
    ∃ d ds, magnitudeChars c e = d :: ds ∧ d.isDigit = true := by
  obtain ⟨m, proper, ⟨-, chars, -⟩ | ⟨-, chars, -⟩⟩ := magnitudeChars_mantissa c e
  · rw [chars, ← List.append_nil m.chars]
    exact proper.chars_head []
  · rw [chars]
    exact proper.chars_head _

theorem toText_yields {preferDecimal s : Bool} {c : Nat} {e : Int} {v w : Value}
    (bound : (adjusted c e).natAbs ≤ maxExponent)
    (number : (if e = 0 ∧ (c : Int) ≤ greatestWord then .number (.integer c)
      else fractionLexeme preferDecimal (finite false c e)) = Lexeme.number v)
    (sign : (if s then UnaryOp.negate.apply preferDecimal v else .ok v) = .ok w) :
    Formula.Yields preferDecimal (finite s c e).toText w := by
  have literal := read_magnitudeChars preferDecimal bound
  obtain ⟨d, ds, chars, digit⟩ := magnitudeChars_head c e
  rw [number, chars] at literal
  cases s with
  | false =>
    cases sign
    have text : (finite false c e).toText = String.ofList (d :: ds) := congrArg String.ofList chars
    rw [text]
    exact Formula.yields_literal digit literal
  | true =>
    have text : (finite true c e).toText = String.ofList ('-' :: d :: ds) :=
      congrArg (fun cs => String.ofList ('-' :: cs)) chars
    rw [text]
    exact Formula.yields_negated_literal digit literal sign

theorem toText_whole (preferDecimal s : Bool) {c : Nat} (word : (c : Int) ≤ greatestWord) :
    Formula.Yields preferDecimal (finite s c 0).toText (.integer (signed s c)) := by
  have below : c < tenTo 19 := by
    show c < 10000000000000000000
    unfold greatestWord at word
    omega
  have few := digitCount_le_of_lt (by decide) below
  have positive := digitCount_pos c
  have other : (c : Int) ≠ leastWord := by
    unfold leastWord
    omega
  refine toText_yields ?_ (if_pos ⟨rfl, word⟩) ?_
  · unfold adjusted maxExponent
    omega
  · cases s with
    | false => rfl
    | true =>
      show UnaryOp.negateWord preferDecimal c = _
      rw [UnaryOp.negateWord, if_pos other]
      rfl

theorem toText_fraction {s : Bool} {c : Nat} {e : Int} (fits : (finite s c e).Fits .engine)
    (other : ¬ (e = 0 ∧ (c : Int) ≤ greatestWord)) :
    Formula.Yields true (finite s c e).toText (.decimal (finite (s && c != 0) c e)) := by
  have positive : (finite false c e).Fits .engine := fits
  have kept := round_of_fits positive
  have negated := negate_of_fits positive
  refine toText_yields (v := .decimal (finite false c e)) ?_ ?_ ?_
  -- the exponents of the context are well within those of literals
  · obtain ⟨-, low, high⟩ := fits
    have digits := digitCount_pos c
    have least : -55 ≤ e := low
    have greatest : adjusted c e ≤ 28 := high
    unfold adjusted maxExponent at *
    omega
  · rw [if_neg other, fractionLexeme, fractionValue?, if_pos rfl, kept]
  · cases s with
    | false => rfl
    | true =>
      show UnaryOp.negateDecimal (finite false c e) = _
      rw [UnaryOp.negateDecimal, negated]
      rfl

/-- A text of digits, behind a sign or not, whose number needs no more than 64 bits. -/
def SpellsWord (text : String) : Prop :=
  let digits := (takeSign text.toList).2
  digits ≠ [] ∧ (∀ c ∈ digits, c.isDigit = true) ∧ (numeralValue 10 digits : Int) ≤ greatestWord

theorem takeSign_toText (s : Bool) (c : Nat) (e : Int) :
    (takeSign (finite s c e).toText.toList).2 = magnitudeChars c e := by
  obtain ⟨d, ds, chars, digit⟩ := magnitudeChars_head c e
  rw [toText, String.toList_ofList]
  cases s with
  | true => rfl
  | false =>
    show (takeSign (magnitudeChars c e)).2 = _
    rw [chars]
    unfold takeSign
    split
    · rename_i minus
      cases minus
      cases digit
    · rename_i plus
      cases plus
      cases digit
    · rfl

theorem spellsWord_toText (s : Bool) (c : Nat) (e : Int) :
    SpellsWord (finite s c e).toText ↔ e = 0 ∧ (c : Int) ≤ greatestWord := by
  unfold SpellsWord
  rw [takeSign_toText]
  obtain ⟨⟨whole, fraction⟩, proper, ⟨-, chars, denotes⟩ | ⟨scaled, chars, -⟩⟩ :=
    magnitudeChars_mantissa c e <;> dsimp only <;> rw [chars]
  · cases fraction with
    | nil =>
      simp only [Mantissa.exact, List.append_nil, List.length_nil, finite.injEq, true_and] at denotes
      obtain ⟨rfl, rfl⟩ := denotes
      simp only [Mantissa.chars, pointed, List.isEmpty_nil, if_true, List.append_nil]
      exact ⟨fun word => ⟨rfl, word.2.2⟩, fun word => ⟨proper.filled, proper.whole, word.2⟩⟩
    | cons d ds =>
      have place := (finite.inj denotes).2.2
      rw [List.length_cons] at place
      -- there is a fraction exactly where the exponent is below zero
      refine ⟨fun word => ?_, fun word => ?_⟩
      · have point : '.'.isDigit = true := word.2.1 '.' (by simp [Mantissa.chars, pointed])
        cases point
      · omega
  · refine ⟨fun word => ?_, fun word => absurd word.1 scaled⟩
    have letter : 'E'.isDigit = true := word.2.1 'E' (by simp)
    cases letter

/-- The text of a finite decimal of the engine's context compiles where decimals are preferred, and
    evaluates to the same number, unrounded: to a whole number where the text is one of 64 bits,
    and else to a decimal with the same exponent. -/
theorem decimal_display_round_trip {s : Bool} {c : Nat} {e : Int}
    (fits : (finite s c e).Fits .engine) :
    ∃ text v, (Value.decimal (finite s c e)).format 10 = .ok text ∧ Formula.Yields true text v ∧
      v.number? = (finite s c e).number? ∧
      (SpellsWord text → v = .integer (signed s c)) ∧
      (¬ SpellsWord text → v = .decimal (finite (s && c != 0) c e)) := by
  refine ⟨(finite s c e).toText, ?_⟩
  rw [spellsWord_toText]
  by_cases word : e = 0 ∧ (c : Int) ≤ greatestWord
  · obtain ⟨rfl, bound⟩ := word
    exact ⟨.integer (signed s c), rfl, toText_whole true s bound, (number?_whole s c).symm,
      fun _ => rfl, fun other => absurd ⟨rfl, bound⟩ other⟩
  · exact ⟨.decimal (finite (s && c != 0) c e), rfl, toText_fraction fits word,
      number?_zero_sign s c e, fun spelled => absurd spelled word, fun _ => rfl⟩

theorem decimal_display_round_trip_subnormal :
    (finite true 10 (-55)).Fits .engine ∧
    (Value.decimal (finite true 10 (-55))).format 10 = .ok "-1.0E-54" ∧
    Formula.Yields true "-1.0E-54" (.decimal (finite true 10 (-55))) := by
  have digits : digitCount 10 = 2 := by cbv
  have fits : (finite true 10 (-55)).Fits .engine := by
    rw [Fits, adjusted, digits]
    decide
  have ten : numeral 10 10 = ['1', '0'] := by cbv
  have place : signedNumeral (-54) = ['-', '5', '4'] := by cbv
  have written : (finite true 10 (-55)).toText = "-1.0E-54" := by
    simp [toText, chars, magnitudeChars, adjusted, digits, ten, place, withPoint]
  obtain ⟨text, v, formatted, yields, -, -, other⟩ := decimal_display_round_trip fits
  have same : (finite true 10 (-55)).toText = text := Except.ok.inj formatted
  have fraction : ¬ SpellsWord text := by
    rw [← same, spellsWord_toText]
    decide
  rw [other fraction, ← same, written] at yields
  exact ⟨fits, congrArg Except.ok written, yields⟩

end Decimal

end Reckoner
