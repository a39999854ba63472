import Mathlib
import Reckoner.Proofs.Display.Numerals
import Reckoner.Proofs.Scanning.Reach

namespace Reckoner

theorem twoTo_pos (n : Nat) : 0 < twoTo n := Nat.pow_pos (by decide)

theorem twoTo_add (m n : Nat) : twoTo (m + n) = twoTo m * twoTo n := Nat.pow_add ..

namespace Literal

open Text

/-- What a pattern goes on with: a digit of its base, or a point that groups digits. -/
def isPatternPart (base : Nat) (c : Char) : Bool := c == '.' || (digitIn? base c).isSome

def ungrouped (cs : List Char) : List Char := cs.filter (· != '.')

theorem ungrouped_point (cs : List Char) : ungrouped ('.' :: cs) = ungrouped cs := rfl

theorem ungrouped_digit {c : Char} (other : c ≠ '.') (cs : List Char) :
    ungrouped (c :: cs) = c :: ungrouped cs :=
  List.filter_cons_of_pos (bne_iff_ne.mpr other)

theorem room_iff {bits : Nat} (few : bits ≤ 64) {value d : Nat} (digit : d < twoTo bits) :
    value / twoTo (64 - bits) = 0 ↔ value * twoTo bits + d < twoTo 64 := by
  have split : twoTo 64 = twoTo (64 - bits) * twoTo bits := by
    rw [← twoTo_add, Nat.sub_add_cancel few]
  rw [Nat.div_eq_zero_iff_lt (twoTo_pos _), split]
  constructor
  · intro below
    have scaled := Nat.mul_le_mul_right (twoTo bits) (Nat.succ_le_of_lt below)
    rw [Nat.succ_mul] at scaled
    omega
  · intro bound
    exact Nat.lt_of_mul_lt_mul_right (Nat.lt_of_le_of_lt (Nat.le_add_right ..) bound)

theorem part_of_digit {base d : Nat} {c : Char} (known : digitIn? base c = some d) :
    isPatternPart base c = true := by
  rw [isPatternPart, known, Option.isSome_some, Bool.or_true]

variable {bits : Nat}

theorem patternRun_of_fits (few : bits ≤ 64) (value digits length : Nat) {cs : List Char}
    (fits : continued (twoTo bits) value (ungrouped (cs.takeWhile (isPatternPart (twoTo bits)))) <
      twoTo 64) :
    patternRun bits value digits length cs =
      patternRun.finish
        (continued (twoTo bits) value (ungrouped (cs.takeWhile (isPatternPart (twoTo bits)))))
        (digits + (ungrouped (cs.takeWhile (isPatternPart (twoTo bits)))).length)
        (length + (cs.takeWhile (isPatternPart (twoTo bits))).length) := by
  fun_induction patternRun bits value digits length cs with
  | case1 => rfl
  | case2 value digits length cs ih =>
    have point : isPatternPart (twoTo bits) '.' = true := rfl
    rw [List.takeWhile_cons_of_pos point, ungrouped_point] at fits ⊢
    rw [ih fits, List.length_cons]
    congr 1
    omega
  | case3 value digits length c cs other none =>
    have ends : ¬ isPatternPart (twoTo bits) c = true := by simp [isPatternPart, other, none]
    rw [List.takeWhile_cons_of_neg ends]
    rfl
  | case4 value digits length c cs other d known room ih =>
    have part := part_of_digit known
    have digit : digitOf? c = some d := (Option.filter_eq_some_iff.mp known).1
    rw [List.takeWhile_cons_of_pos part, ungrouped_digit other] at fits ⊢
    simp only [continued, digit, Option.getD_some] at fits ⊢
    rw [ih fits]
    simp only [List.length_cons]
    congr 1 <;> omega
  | case5 value digits length c cs other d known full =>
    have part := part_of_digit known
    obtain ⟨digit, small⟩ := Option.filter_eq_some_iff.mp known
    rw [List.takeWhile_cons_of_pos part, ungrouped_digit other] at fits
    simp only [continued, digit, Option.getD_some] at fits
    have below := le_continued (twoTo_pos bits) (value * twoTo bits + d)
      (ungrouped (cs.takeWhile (isPatternPart (twoTo bits))))
    exact absurd ((room_iff few (of_decide_eq_true small)).mpr (by omega)) full

theorem patternRun_digits (few : bits ≤ 64) {value digits length : Nat} {cs : List Char}
    (run : ∀ c ∈ cs, c ≠ '.' ∧ ∃ d, digitIn? (twoTo bits) c = some d)
    (bound : continued (twoTo bits) value cs < twoTo 64) :
    patternRun bits value digits length cs =
      patternRun.finish (continued (twoTo bits) value cs) (digits + cs.length)
        (length + cs.length) := by
  have parts : cs.takeWhile (isPatternPart (twoTo bits)) = cs := by
    refine List.takeWhile_eq_self_iff.mpr fun c member => ?_
    obtain ⟨d, known⟩ := (run c member).2
    exact part_of_digit known
  have plain : ungrouped cs = cs :=
    List.filter_eq_self.mpr fun c member => bne_iff_ne.mpr (run c member).1
  have read := patternRun_of_fits few value digits length
    (by rw [parts, plain]; exact bound)
  rwa [parts, plain] at read

/-- If the value of its digits leaves 64 bits, a pattern ends behind the digit where it does. -/
theorem patternRun_of_overflow (few : bits ≤ 64) (value digits length : Nat) {cs : List Char}
    (within : value < twoTo 64)
    (overflow : twoTo 64 ≤
      continued (twoTo bits) value (ungrouped (cs.takeWhile (isPatternPart (twoTo bits))))) :
    ∃ before digit behind, cs.takeWhile (isPatternPart (twoTo bits)) = before ++ digit :: behind ∧
      continued (twoTo bits) value (ungrouped before) < twoTo 64 ∧
      twoTo 64 ≤ continued (twoTo bits) value (ungrouped (before ++ [digit])) ∧
      patternRun bits value digits length cs =
        (.error .binaryOverflow, length + (before ++ [digit]).length) := by
  fun_induction patternRun bits value digits length cs with
  | case1 => exact absurd within (Nat.not_lt.mpr overflow)
  | case2 value digits length cs ih =>
    have point : isPatternPart (twoTo bits) '.' = true := rfl
    rw [List.takeWhile_cons_of_pos point, ungrouped_point] at overflow
    obtain ⟨before, digit, behind, run, fits, exceeds, read⟩ := ih within overflow
    refine ⟨'.' :: before, digit, behind, ?_, fits, exceeds, ?_⟩
    · rw [List.takeWhile_cons_of_pos point, run, List.cons_append]
    · rw [read, List.cons_append, List.length_cons, Nat.add_right_comm, Nat.add_assoc]
  | case3 value digits length c cs other none =>
    have ends : ¬ isPatternPart (twoTo bits) c = true := by simp [isPatternPart, other, none]
    rw [List.takeWhile_cons_of_neg ends] at overflow
    exact absurd within (Nat.not_lt.mpr overflow)
  | case4 value digits length c cs other d known room ih =>
    have part := part_of_digit known
    obtain ⟨digit, small⟩ := Option.filter_eq_some_iff.mp known
    rw [List.takeWhile_cons_of_pos part, ungrouped_digit other] at overflow
    simp only [continued, digit, Option.getD_some] at overflow
    obtain ⟨before, last, behind, run, fits, exceeds, read⟩ :=
      ih ((room_iff few (of_decide_eq_true small)).mp room) overflow
    refine ⟨c :: before, last, behind, ?_, ?_, ?_, ?_⟩
    · rw [List.takeWhile_cons_of_pos part, run, List.cons_append]
    · simpa only [ungrouped_digit other, continued, digit, Option.getD_some] using fits
    · simpa only [List.cons_append, ungrouped_digit other, continued, digit, Option.getD_some] using exceeds
    · rw [read, List.cons_append, List.length_cons, Nat.add_right_comm, Nat.add_assoc]
  | case5 value digits length c cs other d known full =>
    have part := part_of_digit known
    obtain ⟨digit, small⟩ := Option.filter_eq_some_iff.mp known
    refine ⟨[], c, cs.takeWhile (isPatternPart (twoTo bits)), List.takeWhile_cons_of_pos part, within,
      ?_, rfl⟩
    have exceeds := Nat.not_lt.mp (mt (room_iff few (of_decide_eq_true small)).mpr full)
    rw [List.nil_append, ungrouped_digit other]
    simpa only [ungrouped, List.filter_nil, continued, digit, Option.getD_some] using exceeds

/-- The letters behind the zero of a prefix, with the bases of the digits that follow. -/
def patternBases : List (Char × Nat) :=
  [('x', 16), ('X', 16), ('o', 8), ('O', 8), ('b', 2), ('B', 2)]

theorem bits_of_base {mark : Char} {base : Nat} (known : (mark, base) ∈ patternBases) :
    ∃ bits, prefixBits? mark = some bits ∧ bits ≤ 64 ∧ base = twoTo bits := by
  have table : ∀ b ∈ patternBases, ∃ bits ≤ 4, prefixBits? b.1 = some bits ∧ b.2 = twoTo bits := by
    decide
  obtain ⟨bits, few, mark, base⟩ := table (mark, base) known
  exact ⟨bits, mark, Nat.le_trans few (by decide), base⟩

/-- What a pattern is read as and the number of characters that it covers, if `run` stands behind its
    prefix of two characters: a signed number of 64 bits, or a fault where the digits are none or where
    their value leaves 64 bits. -/
def ReadsPattern (base : Nat) (run : List Char) (l : Lexeme) (length : Nat) : Prop :=
  let value := numeralValue base (ungrouped run)
  if ungrouped run = [] then l = .error .digitExpected ∧ length = 2 + run.length
  else if value < 2 ^ 64 then
    l = .number (.integer (value - if 2 ^ 63 ≤ value then 2 ^ 64 else 0)) ∧ length = 2 + run.length
  else l = .error .binaryOverflow ∧ ∃ before digit behind, run = before ++ digit :: behind ∧
    numeralValue base (ungrouped before) < 2 ^ 64 ∧
    2 ^ 64 ≤ numeralValue base (ungrouped (before ++ [digit])) ∧
    length = 2 + (before ++ [digit]).length

theorem wrapWord_pattern {n : Nat} (bound : n < 2 ^ 64) :
    wrapWord n = n - if 2 ^ 63 ≤ n then 2 ^ 64 else 0 := by
  have low : (n : Int) % wordCount = n := Int.emod_eq_of_lt (Int.natCast_nonneg n) (by
    unfold wordCount
    omega)
  rw [wrapWord, Int.bmod_def, low]
  unfold wordCount
  split
  · rename_i below
    rw [if_neg (by omega), sub_zero]
  · rename_i above
    rw [if_pos (by omega)]
    rfl

theorem read_reads (preferDecimal : Bool) {mark : Char} {base : Nat}
    (known : (mark, base) ∈ patternBases) (cs : List Char) :
    ReadsPattern base (cs.takeWhile (isPatternPart base)) (read preferDecimal ('0' :: mark :: cs)).1
      (read preferDecimal ('0' :: mark :: cs)).2 := by
  obtain ⟨bits, marks, few, rfl⟩ := bits_of_base known
  have words : twoTo 64 = 2 ^ 64 := rfl
  rw [read_of_mark marks]
  unfold ReadsPattern numeralValue
  dsimp only
  rw [← words]
  by_cases fits : continued (twoTo bits) 0 (ungrouped (cs.takeWhile (isPatternPart (twoTo bits)))) <
      twoTo 64
  · rw [patternRun_of_fits few 0 0 2 fits, patternRun.finish, Nat.zero_add]
    by_cases none : ungrouped (cs.takeWhile (isPatternPart (twoTo bits))) = []
    · rw [if_pos none, if_pos (List.length_eq_zero_iff.mpr none)]
      exact ⟨rfl, rfl⟩
    · rw [if_neg none, if_neg (mt List.length_eq_zero_iff.mp none), if_pos fits, wrapWord_pattern fits]
      exact ⟨rfl, rfl⟩
  · obtain ⟨before, digit, behind, run, within, exceeds, read⟩ :=
      patternRun_of_overflow few 0 0 2 (twoTo_pos 64) (Nat.not_lt.mp fits)
    have filled : ungrouped (cs.takeWhile (isPatternPart (twoTo bits))) ≠ [] := by
      intro none
      rw [none] at fits
      exact fits (twoTo_pos 64)
    rw [if_neg filled, if_neg fits, read]
    exact ⟨rfl, before, digit, behind, run, within, exceeds, rfl⟩

end Literal

namespace Token

open Literal

/-- Where a prefix of a base stands, a token is read from the longest run of digits of the base and points
    behind it. -/
theorem scan_pattern (preferDecimal : Bool) {text : String} {p : Nat} {mark : Char} {base : Nat}
    {cs : List Char} (here : (text.toList.drop p).dropWhile isSpace = '0' :: mark :: cs)
    (known : (mark, base) ∈ patternBases) :
    (scan preferDecimal text p).position = p + ((text.toList.drop p).takeWhile isSpace).length ∧
    ReadsPattern base (cs.takeWhile (isPatternPart base)) (scan preferDecimal text p).lexeme
      (scan preferDecimal text p).length := by
  refine ⟨position_eq preferDecimal text p, ?_⟩
  have scanned : scan preferDecimal text p = ⟨(Literal.read preferDecimal ('0' :: mark :: cs)).1,
      p + ((text.toList.drop p).takeWhile isSpace).length,
      (Literal.read preferDecimal ('0' :: mark :: cs)).2⟩ := by
    unfold scan Token.read
    rw [here]
    rfl
  rw [scanned]
  exact read_reads preferDecimal known cs

theorem scan_pattern_octal :
    ("1+\t0O00.1777777777777777777777.8".toList.drop 2).dropWhile isSpace =
      '0' :: 'O' :: "00.1777777777777777777777.8".toList ∧
    ('O', 8) ∈ patternBases ∧
    scan true "1+\t0O00.1777777777777777777777.8" 2 = ⟨.number (.integer (-1)), 3, 28⟩ := by
  have here : ("1+\t0O00.1777777777777777777777.8".toList.drop 2).dropWhile isSpace =
      '0' :: 'O' :: "00.1777777777777777777777.8".toList := by decide
  have known : ('O', 8) ∈ patternBases := by decide
  obtain ⟨position, reads⟩ := scan_pattern true here known
  have run : ("00.1777777777777777777777.8".toList).takeWhile (isPatternPart 8) =
      "00.1777777777777777777777.".toList := by decide
  have digits : ungrouped "00.1777777777777777777777.".toList = "001777777777777777777777".toList := by
    decide
  have value : Text.numeralValue 8 "001777777777777777777777".toList = 2 ^ 64 - 1 := by decide
  simp only [ReadsPattern, run, digits, value] at reads
  rw [if_neg (by decide), if_pos (by decide)] at reads
  refine ⟨here, known, Token.mk.injEq .. |>.mpr ⟨reads.1, ?_, reads.2⟩⟩
  exact position

end Token

end Reckoner
