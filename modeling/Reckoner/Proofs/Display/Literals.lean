import Mathlib
import Reckoner.Proofs.Scanning.Patterns

namespace Reckoner

theorem Decimal.signed_natAbs (n : Int) : signed (decide (n < 0)) n.natAbs = n := by
  unfold signed
  split
  · rename_i negative
    have below := of_decide_eq_true negative
    omega
  · rename_i other
    have above := of_decide_eq_false (Bool.eq_false_iff.mpr other)
    omega

namespace Literal

open Text

variable {preferDecimal : Bool}

def pointed (fraction : List Char) : List Char :=
  if fraction.isEmpty then [] else '.' :: fraction

def Behind (cs : List Char) : Prop := cs = [] ∨ ∃ ds, cs = 'E' :: ds

theorem takeWhile_digits {run behind : List Char} (digits : ∀ c ∈ run, c.isDigit = true)
    (other : behind.takeWhile Char.isDigit = []) : (run ++ behind).takeWhile Char.isDigit = run := by
  rw [List.takeWhile_append_of_pos digits, other, List.append_nil]

theorem Behind.takeWhile {cs : List Char} (behind : Behind cs) : cs.takeWhile Char.isDigit = [] := by
  rcases behind with rfl | ⟨ds, rfl⟩
  · rfl
  · exact List.takeWhile_cons_of_neg (by decide)

theorem fractionDigits_pointed {fraction rest : List Char}
    (digits : ∀ c ∈ fraction, c.isDigit = true) (behind : Behind rest) :
    fractionDigits (pointed fraction ++ rest) = fraction := by
  cases fraction with
  | nil => rcases behind with rfl | ⟨ds, rfl⟩ <;> rfl
  | cons c cs =>
    have first : c.isDigit = true := digits c (List.mem_cons_self ..)
    have start : startsWithDigit (c :: cs ++ rest) = true := first
    show (if isSeparator '.' && startsWithDigit (c :: cs ++ rest) then _ else _) = _
    rw [start, if_pos (by decide)]
    exact takeWhile_digits digits behind.takeWhile

theorem prefixBits?_of_isDigit {c : Char} (digit : c.isDigit = true) : prefixBits? c = none := by
  have other (d : Char) (letter : d.isDigit = false) : (c == d) = false := by
    rw [beq_eq_false_iff_ne]
    rintro rfl
    rw [digit] at letter
    cases letter
  simp [prefixBits?, other 'x', other 'X', other 'o', other 'O', other 'b', other 'B']

/-- A mantissa of digits, some of them before the point. -/
structure Mantissa.Proper (m : Mantissa) : Prop where
  filled : m.whole ≠ []
  whole : ∀ c ∈ m.whole, c.isDigit = true
  fraction : ∀ c ∈ m.fraction, c.isDigit = true

def Mantissa.chars (m : Mantissa) : List Char := m.whole ++ pointed m.fraction

theorem Mantissa.length_chars (m : Mantissa) : m.chars.length = m.length := by
  obtain ⟨whole, fraction⟩ := m
  cases fraction with
  | nil => simp [chars, length, pointed]
  | cons c cs =>
    simp [chars, length, pointed]
    omega

namespace Mantissa.Proper

variable {m : Mantissa} {rest : List Char}

theorem chars_head (proper : m.Proper) (rest : List Char) :
    ∃ c cs, m.chars ++ rest = c :: cs ∧ c.isDigit = true := by
  obtain ⟨c, cs, same⟩ := List.exists_cons_of_ne_nil proper.filled
  refine ⟨c, cs ++ pointed m.fraction ++ rest, ?_, proper.whole c (by simp [same])⟩
  simp [chars, same]

theorem ofChars (proper : m.Proper) (behind : Behind rest) : ofChars (m.chars ++ rest) = m := by
  have stop : (pointed m.fraction ++ rest).takeWhile Char.isDigit = [] := by
    cases m.fraction with
    | nil => exact behind.takeWhile
    | cons c cs => exact List.takeWhile_cons_of_neg (by decide)
  have fraction : (pointed m.fraction ++ rest).dropWhile Char.isDigit = pointed m.fraction ++ rest := by
    have both := List.takeWhile_append_dropWhile (p := Char.isDigit) (l := pointed m.fraction ++ rest)
    rwa [stop, List.nil_append] at both
  rw [chars, List.append_assoc, Mantissa.ofChars, takeWhile_digits proper.whole stop,
    List.dropWhile_append_of_pos proper.whole, fraction, fractionDigits_pointed proper.fraction behind]

theorem read_eq_decimal (proper : m.Proper) (behind : Behind rest) :
    read preferDecimal (m.chars ++ rest) = decimal preferDecimal (m.chars ++ rest) := by
  have unmarked (c d : Char) (ds : List Char) (same : m.chars ++ rest = c :: d :: ds) :
      prefixBits? d = none := by
    obtain ⟨whole, fraction⟩ := m
    rcases whole with _ | ⟨w, _ | ⟨w', ws⟩⟩
    · exact absurd rfl proper.filled
    -- the second character is the point, the mark of an exponent or a digit
    · have second : pointed fraction ++ rest = d :: ds := (List.cons.inj same).2
      rcases fraction with _ | ⟨f, fs⟩
      · rcases behind with rfl | ⟨es, rfl⟩
        · cases second
        · cases second
          decide
      · cases second
        decide
    · cases same
      exact prefixBits?_of_isDigit (proper.whole _ (by simp))
  unfold read
  split
  · rename_i d ds same
    rw [unmarked _ d ds same]
    rw [same]
  · rfl

theorem read_mantissa (proper : m.Proper) :
    read preferDecimal m.chars = (mantissaLexeme preferDecimal m, m.chars.length) := by
  have mantissa := proper.ofChars (.inl rfl)
  have read := @read_eq_decimal preferDecimal m [] proper (.inl rfl)
  rw [List.append_nil] at mantissa read
  simp only [read, decimal, mantissa, ← m.length_chars, List.drop_length, Exponent.ofChars]

end Mantissa.Proper

theorem exponentRun_digits {cs rest : List Char} (digits : ∀ c ∈ cs, c.isDigit = true)
    (ends : startsWithDigit rest = false) {value : Nat} (bound : continued 10 value cs ≤ maxExponent) :
    exponentRun value (cs ++ rest) = (continued 10 value cs, cs.length) := by
  induction cs generalizing value with
  | nil =>
    cases rest with
    | nil => rfl
    | cons c cs => exact if_neg (Bool.eq_false_iff.mp ends)
  | cons c cs ih =>
    obtain ⟨first, rest⟩ := List.forall_mem_cons.mp digits
    have small := Nat.le_trans (le_continued (by decide) _ cs) bound
    rw [List.cons_append, exponentRun, if_pos first]
    dsimp only
    rw [if_neg (Nat.not_lt.mpr small), ih rest bound]
    rfl

theorem Exponent.ofChars_signedNumeral {a : Int} (bound : a.natAbs ≤ maxExponent) :
    Exponent.ofChars ('E' :: signedNumeral a) = .given a ('E' :: signedNumeral a).length := by
  have value : continued 10 0 (numeral 10 a.natAbs) = a.natAbs :=
    numeralValue_numeral (by decide) (by decide) a.natAbs
  have run : exponentRun 0 (numeral 10 a.natAbs ++ []) = _ :=
    exponentRun_digits (fun c => isDigit_of_mem_numeral) rfl (by rw [value]; exact bound)
  have sign : takeSign (signedNumeral a) = (decide (a < 0), numeral 10 a.natAbs) := by
    unfold signedNumeral
    split <;> simp [takeSign, *]
  have filled : (numeral 10 a.natAbs).length ≠ 0 := by
    rw [Ne, List.length_eq_zero_iff]
    exact numeral_ne_nil 10 _
  rw [List.append_nil, value] at run
  unfold Exponent.ofChars
  simp only [sign, run, if_neg filled, if_neg (Nat.not_lt.mpr bound), Decimal.signed_natAbs]
  simp [signedNumeral]
  omega

theorem Mantissa.Proper.read_exponent {m : Mantissa} (proper : m.Proper) {a : Int}
    (bound : a.natAbs ≤ maxExponent) :
    read preferDecimal (m.chars ++ 'E' :: signedNumeral a) =
      (fractionLexeme preferDecimal (m.exact a), (m.chars ++ 'E' :: signedNumeral a).length) := by
  have behind : Behind ('E' :: signedNumeral a) := .inr ⟨signedNumeral a, rfl⟩
  have mantissa := proper.ofChars behind
  simp only [proper.read_eq_decimal behind, decimal, mantissa, ← m.length_chars, List.drop_left,
    Exponent.ofChars_signedNumeral bound, List.length_append]

end Literal

end Reckoner
