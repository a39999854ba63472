import Reckoner.Proofs.Display.Numerals
import Reckoner.Proofs.Scanning.Reach
import Reckoner.Proofs.Values.Decimals

namespace Reckoner

open Text

theorem Text.continued_lt {cs : List Char} (digits : ∀ c ∈ cs, c.isDigit = true) (n : Nat) :
    continued 10 n cs < (n + 1) * tenTo cs.length := by
  induction cs generalizing n with
  | nil =>
    show n < (n + 1) * 1
    omega
  | cons c cs ih =>
    have digit : (digitOf? c).getD 0 < 10 := by
      have range : '0' ≤ c ∧ c ≤ '9' := by
        simpa [Char.isDigit, Char.le_def] using digits c List.mem_cons_self
      have top : c.toNat ≤ 57 := range.2
      rw [digitOf?, if_pos range, Option.getD_some]
      omega
    have further := ih (fun c member => digits c (List.mem_cons_of_mem _ member))
      (n * 10 + (digitOf? c).getD 0)
    calc continued 10 (n * 10 + (digitOf? c).getD 0) cs
        < (n * 10 + (digitOf? c).getD 0 + 1) * tenTo cs.length := further
      _ ≤ (n + 1) * 10 * tenTo cs.length := Nat.mul_le_mul_right _ (by omega)
      _ = (n + 1) * tenTo (cs.length + 1) := by rw [tenTo_succ, Nat.mul_assoc, Nat.mul_comm 10]

def Lexeme.Fractional : Lexeme → Prop
  | number v => v.tag ≠ .integer
  | error fault => fault = .numberTooLarge
  | _ => False

def Lexeme.Akin (l l' : Lexeme) : Prop := l' = l ∨ l.Fractional ∧ l'.Fractional

namespace Literal

variable (preferDecimal : Bool)

theorem fractionLexeme_fractional (d : Decimal) : (fractionLexeme preferDecimal d).Fractional := by
  unfold fractionLexeme fractionValue?
  cases preferDecimal with
  | false => exact nofun
  | true =>
    cases Decimal.Context.engine.round d with
    | ok r => exact nofun
    | error signal => exact rfl

theorem fractionLexeme_akin (d : Decimal) :
    (fractionLexeme preferDecimal d).Akin (fractionLexeme (!preferDecimal) d) :=
  .inr ⟨fractionLexeme_fractional _ d, fractionLexeme_fractional _ d⟩

theorem decimal_akin (cs : List Char) :
    (decimal (!preferDecimal) cs).2 = (decimal preferDecimal cs).2 ∧
      (decimal preferDecimal cs).1.Akin (decimal (!preferDecimal) cs).1 := by
  unfold decimal mantissaLexeme
  dsimp only
  split
  · refine ⟨rfl, ?_⟩
    dsimp only
    split
    · exact .inl rfl
    · exact fractionLexeme_akin preferDecimal _
  · exact ⟨rfl, fractionLexeme_akin preferDecimal _⟩
  · exact ⟨rfl, .inl rfl⟩

theorem read_akin (cs : List Char) :
    (read (!preferDecimal) cs).2 = (read preferDecimal cs).2 ∧
      (read preferDecimal cs).1.Akin (read (!preferDecimal) cs).1 := by
  unfold read
  split
  · split
    · exact ⟨rfl, .inl rfl⟩
    · exact decimal_akin preferDecimal _
  · exact decimal_akin preferDecimal _

theorem number_of_fraction {c : Char} {cs : List Char} (separator : isSeparator c = true)
    (digit : startsWithDigit cs = true)
    (none : Exponent.ofChars (cs.dropWhile Char.isDigit) = .none) :
    ∃ v, (read preferDecimal (c :: cs)).1 = .number v := by
  obtain ⟨mantissa, filled, length⟩ := mantissa_of_separator separator digit
  have digits : ∀ d ∈ cs.takeWhile Char.isDigit, d.isDigit = true :=
    List.all_eq_true.mp List.all_takeWhile
  have below : numeralValue 10 (cs.takeWhile Char.isDigit) < tenTo (cs.takeWhile Char.isDigit).length := by
    simpa [numeralValue] using continued_lt digits 0
  have behind : Exponent.ofChars ((c :: cs).drop (Mantissa.ofChars (c :: cs)).length) = .none := by
    rw [length, List.drop_succ_cons, Grammar.drop_length_takeWhile]
    exact none
  have lexeme : (read preferDecimal (c :: cs)).1 = fractionLexeme preferDecimal
      ((⟨[], cs.takeWhile Char.isDigit⟩ : Mantissa).exact 0) := by
    rw [read_of_separator separator, decimal]
    rw [behind, mantissa]
    exact if_neg fun whole => filled (List.isEmpty_iff.mp whole.1)
  rw [lexeme, fractionLexeme, fractionValue?]
  cases preferDecimal with
  | false => exact ⟨_, rfl⟩
  | true =>
    rw [if_pos rfl, Mantissa.exact, List.nil_append]
    cases rounded : Decimal.Context.engine.round (.finite false
        (numeralValue 10 (cs.takeWhile Char.isDigit)) (0 - (cs.takeWhile Char.isDigit).length)) with
    | ok d => exact ⟨.decimal d, rfl⟩
    | error signal =>
      have top : 28 ≤ (digitCount (numeralValue 10 (cs.takeWhile Char.isDigit)) : Int) +
        (0 - (cs.takeWhile Char.isDigit).length) - 1 := Decimal.le_adjusted_of_refused rounded
      have fewer := digitCount_le_of_lt (List.length_pos_iff.mpr filled) below
      omega

theorem exponent_of_integer {cs : List Char} {n : Int}
    (whole : (read preferDecimal cs).1 = .number (.integer n)) :
    Exponent.ofChars (cs.dropWhile Char.isDigit) = .none := by
  have unfractional (d : Decimal) : fractionLexeme preferDecimal d ≠ .number (.integer n) := by
    intro same
    have fractional := fractionLexeme_fractional preferDecimal d
    rw [same] at fractional
    exact fractional rfl
  rcases pattern_or_decimal cs with ⟨d, es, bits, rfl, mark⟩ | plain
  · exact (zero_of_mark mark).2
  · rw [plain, decimal] at whole
    split at whole
    · rename_i none
      unfold mantissaLexeme at whole
      dsimp only at whole
      split at whole
      · rename_i small
        rw [drop_of_whole (List.isEmpty_iff.mp small.1)] at none
        exact none
      · exact absurd whole (unfractional _)
    · exact absurd whole (unfractional _)
    · cases whole

end Literal

variable {preferDecimal : Bool} {text : String} {p : Nat}

theorem Lexeme.read_akin (preferDecimal : Bool) (c : Char) (cs : List Char) :
    (read (!preferDecimal) c cs).2 = (read preferDecimal c cs).2 ∧
      (read preferDecimal c cs).1.Akin (read (!preferDecimal) c cs).1 := by
  unfold read
  split
  · exact Literal.read_akin preferDecimal _
  split
  · exact ⟨rfl, .inl rfl⟩
  · exact ⟨rfl, .inl rfl⟩

namespace Token

theorem scan_akin (preferDecimal : Bool) (text : String) (p : Nat) :
    (scan (!preferDecimal) text p).position = (scan preferDecimal text p).position ∧
      (scan (!preferDecimal) text p).length = (scan preferDecimal text p).length ∧
      (scan preferDecimal text p).lexeme.Akin (scan (!preferDecimal) text p).lexeme := by
  unfold scan read
  dsimp only
  split
  · exact ⟨rfl, rfl, .inl rfl⟩
  · exact ⟨rfl, Lexeme.read_akin preferDecimal _ _⟩

theorem scan_modes (other : ¬ (scan preferDecimal text p).lexeme.Fractional) :
    scan (!preferDecimal) text p = scan preferDecimal text p := by
  obtain ⟨position, length, akin⟩ := scan_akin preferDecimal text p
  have lexeme := akin.resolve_right fun both => other both.1
  exact Token.mk.injEq .. |>.mpr ⟨lexeme, position, length⟩

end Token

theorem Grammar.CommaFraction.modes (fraction : CommaFraction text (Token.scan preferDecimal text p))
    (readable : Readable preferDecimal text ((Token.scan preferDecimal text p).position + 1))
    (whole : ∀ v, (Token.scan preferDecimal text
      ((Token.scan preferDecimal text p).position + 1)).lexeme = .number v → v.tag = .integer) :
    ∃ w, (Token.scan (!preferDecimal) text p).lexeme = .number w := by
  obtain ⟨cs, here, digit⟩ := fraction.here
  have next : text.toList.drop ((Token.scan preferDecimal text p).position + 1) = cs := by
    rw [← List.drop_drop, here]
    rfl
  rw [scan_of_digit next digit] at whole
  rw [Readable, scan_of_digit next digit] at readable
  have integer : ∃ n, (Literal.read preferDecimal cs).1 = .number (.integer n) := by
    rcases Literal.read_reading preferDecimal cs with ⟨v, number⟩ | ⟨fault, error⟩
    · have tag := whole v number
      cases v with
      | integer n => exact ⟨n, number⟩
      | empty | decimal | double => cases tag
    · dsimp only at readable
      rw [error] at readable
      cases readable
  obtain ⟨n, integer⟩ := integer
  rw [← (Token.scan_akin preferDecimal text p).1] at here
  rw [scan_of_comma here digit]
  exact Literal.number_of_fraction _ rfl digit (Literal.exponent_of_integer preferDecimal integer)

end Reckoner
