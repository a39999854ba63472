import Reckoner.Token.Basic
import Reckoner.Value.Convert

namespace Reckoner.Literal

open Text

def maxExponent : Nat := 32767

def isSeparator (c : Char) : Bool := c == ',' || c == '.'

def startsWithDigit : List Char → Bool
  | c :: _ => c.isDigit
  | [] => false

def startsNumber (c : Char) (cs : List Char) : Bool :=
  c.isDigit || (isSeparator c && startsWithDigit cs)

def fractionDigits : List Char → List Char
  | c :: cs => if isSeparator c && startsWithDigit cs then cs.takeWhile Char.isDigit else []
  | [] => []

structure Mantissa where
  whole : List Char
  fraction : List Char
  deriving DecidableEq, Repr, Inhabited

def Mantissa.ofChars (cs : List Char) : Mantissa :=
  ⟨cs.takeWhile Char.isDigit, fractionDigits (cs.dropWhile Char.isDigit)⟩

def Mantissa.length (m : Mantissa) : Nat :=
  m.whole.length + if m.fraction.isEmpty then 0 else 1 + m.fraction.length

def Mantissa.exact (m : Mantissa) (exponent : Int) : Decimal :=
  .finite false (numeralValue 10 (m.whole ++ m.fraction)) (exponent - m.fraction.length)

/-- The exponent part after a mantissa: none, the value and length of a complete one, or a
    fault and the length up to it. -/
inductive Exponent
  | none
  | given (value : Int) (length : Nat)
  | fault (fault : LexicalFault) (length : Nat)
  deriving DecidableEq, Repr

/-- The value of a run of exponent digits and their number; ends at the digit by which the value
    leaves the range. -/
def exponentRun (value : Nat) : List Char → Nat × Nat
  | [] => (value, 0)
  | c :: cs =>
    if c.isDigit then
      let next := value * 10 + (digitOf? c).getD 0
      if maxExponent < next then (next, 1)
      else
        let (final, count) := exponentRun next cs
        (final, count + 1)
    else (value, 0)

def Exponent.ofChars : List Char → Exponent
  | c :: cs =>
    if c == 'e' || c == 'E' then
      let (negative, ds) := takeSign cs
      let signLength := cs.length - ds.length
      let (value, count) := exponentRun 0 ds
      if count = 0 then .fault .exponentExpected (1 + signLength)
      else if maxExponent < value then .fault .exponentOverflow (1 + signLength + count)
      else .given (Decimal.signed negative value) (1 + signLength + count)
    else .none
  | [] => .none

def fractionValue? (preferDecimal : Bool) (exact : Decimal) : Option Value :=
  if preferDecimal then
    match Decimal.Context.engine.round exact with
    | .ok d => some (.decimal d)
    | .error _ => none
  else some (.double (Binary64.ofDecimal exact))

def fractionLexeme (preferDecimal : Bool) (exact : Decimal) : Lexeme :=
  match fractionValue? preferDecimal exact with
  | some v => .number v
  | none => .error .numberTooLarge

def mantissaLexeme (preferDecimal : Bool) (m : Mantissa) : Lexeme :=
  let n := numeralValue 10 m.whole
  if m.fraction.isEmpty ∧ (n : Int) ≤ greatestWord then .number (.integer n)
  else fractionLexeme preferDecimal (m.exact 0)

def decimal (preferDecimal : Bool) (cs : List Char) : Lexeme × Nat :=
  let m := Mantissa.ofChars cs
  match Exponent.ofChars (cs.drop m.length) with
  | .none => (mantissaLexeme preferDecimal m, m.length)
  | .given e n => (fractionLexeme preferDecimal (m.exact e), m.length + n)
  | .fault fault n => (.error fault, m.length + n)

def prefixBits? (c : Char) : Option Nat :=
  if c == 'x' || c == 'X' then some 4
  else if c == 'o' || c == 'O' then some 3
  else if c == 'b' || c == 'B' then some 1
  else none

/-- A pattern under way, with its value and the numbers of digits and characters so far. It
    overflows at the digit that would push a one bit out. -/
def patternRun (bits value digits length : Nat) : List Char → Lexeme × Nat
  | [] => finish value digits length
  | c :: cs =>
    if c = '.' then patternRun bits value digits (length + 1) cs
    else match digitIn? (twoTo bits) c with
      | none => finish value digits length
      | some d =>
        if value / twoTo (64 - bits) = 0 then
          patternRun bits (value * twoTo bits + d) (digits + 1) (length + 1) cs
        else (.error .binaryOverflow, length + 1)
where
  finish (value digits length : Nat) : Lexeme × Nat :=
    if digits = 0 then (.error .digitExpected, length)
    else (.number (.integer (wrapWord value)), length)

def read (preferDecimal : Bool) : List Char → Lexeme × Nat
  | '0' :: c :: cs =>
    match prefixBits? c with
    | some bits => patternRun bits 0 0 2 cs
    | none => decimal preferDecimal ('0' :: c :: cs)
  | cs => decimal preferDecimal cs

theorem fractionDigits_ne_nil {c : Char} {cs : List Char} (sep : isSeparator c = true)
    (digit : startsWithDigit cs = true) : fractionDigits (c :: cs) ≠ [] := by
  cases cs with
  | nil => simp [startsWithDigit] at digit
  | cons d ds =>
    simp only [startsWithDigit] at digit
    simp [fractionDigits, startsWithDigit, sep, digit]

theorem Mantissa.length_pos {c : Char} {cs : List Char} (h : startsNumber c cs = true) :
    0 < (Mantissa.ofChars (c :: cs)).length := by
  by_cases digit : c.isDigit = true
  · have whole : (ofChars (c :: cs)).whole = c :: cs.takeWhile Char.isDigit :=
      List.takeWhile_cons_of_pos digit
    rw [length, whole, List.length_cons]
    omega
  · have both : isSeparator c = true ∧ startsWithDigit cs = true := by
      simpa [startsNumber, digit] using h
    have fraction : (ofChars (c :: cs)).fraction = fractionDigits (c :: cs) :=
      congrArg fractionDigits (List.dropWhile_cons_of_neg digit)
    have filled : (ofChars (c :: cs)).fraction.isEmpty = false := by
      rw [fraction, List.isEmpty_eq_false_iff]
      exact fractionDigits_ne_nil both.1 both.2
    rw [length, filled, if_neg Bool.false_ne_true]
    omega

theorem decimal_length_pos (preferDecimal : Bool) {c : Char} {cs : List Char}
    (h : startsNumber c cs = true) : 0 < (decimal preferDecimal (c :: cs)).2 := by
  have := Mantissa.length_pos h
  simp only [decimal]
  split <;> simp only <;> omega

theorem le_patternRun_length (bits value digits length : Nat) (cs : List Char) :
    length ≤ (patternRun bits value digits length cs).2 := by
  fun_induction patternRun bits value digits length cs with
  | case1 => simp only [patternRun.finish]; split <;> simp
  | case2 _ _ _ _ ih => omega
  | case3 => simp only [patternRun.finish]; split <;> simp
  | case4 _ _ _ _ _ _ _ _ _ ih => omega
  | case5 => simp

theorem read_length_pos (preferDecimal : Bool) (c : Char) (cs : List Char)
    (h : startsNumber c cs = true) : 0 < (read preferDecimal (c :: cs)).2 := by
  unfold read
  split
  · rename_i chars d ds same
    obtain ⟨rfl, rfl⟩ := List.cons.inj same
    split
    · exact Nat.lt_of_lt_of_le (by omega) (le_patternRun_length _ 0 0 2 ds)
    · exact decimal_length_pos preferDecimal h
  · exact decimal_length_pos preferDecimal h

end Reckoner.Literal
