import Mathlib.Tactic.NormNum
import Reckoner.Proofs.Display.Decimals
import Reckoner.Proofs.Values.Operators

namespace Reckoner

open Text Value

namespace Text

theorem upper_digitChar {d : Nat} (digit : d < 16) :
    (digitChar d).toUpper ≠ '.' ∧ digitOf? (digitChar d).toUpper = some d := by
  have table : ∀ d < 16, (digitChar d).toUpper ≠ '.' ∧ digitOf? (digitChar d).toUpper = some d := by
    decide
  exact table d digit

theorem continued_upper (base n : Nat) {cs : List Char} (run : ∀ c ∈ cs, ∃ d < 16, c = digitChar d) :
    continued base n (cs.map Char.toUpper) = continued base n cs := by
  induction cs generalizing n with
  | nil => rfl
  | cons c cs ih =>
    obtain ⟨⟨d, digit, rfl⟩, rest⟩ := List.forall_mem_cons.mp run
    simp only [List.map_cons, continued, (upper_digitChar digit).2, digitOf?_digitChar digit]
    exact ih _ rest

end Text

theorem wrapWord_low {n : Int} (fits : fitsWord n = true) :
    wrapWord ((n % wordCount).toNat : Int) = n := by
  have bounds := fitsWord_iff.mp fits
  have low : ((n % wordCount).toNat : Int) = n % wordCount :=
    Int.toNat_of_nonneg (Int.emod_nonneg n (by decide))
  rw [low, wrapWord, Int.emod_bmod]
  unfold leastWord greatestWord at bounds
  apply Int.bmod_eq_of_le <;> unfold wordCount <;> omega

namespace Literal

theorem read_word (preferDecimal : Bool) {mark : Char} {bits : Nat}
    (known : prefixBits? mark = some bits) (positive : 0 < bits) (few : bits ≤ 4) {word : Nat}
    (bound : word < twoTo 64) :
    let cs := '0' :: mark :: (numeral (twoTo bits) word).map Char.toUpper
    read preferDecimal cs = (.number (.integer (wrapWord word)), cs.length) := by
  have large : 2 ^ 1 ≤ twoTo bits := Nat.pow_le_pow_right (by decide) positive
  have small : twoTo bits ≤ 2 ^ 4 := Nat.pow_le_pow_right (by decide) few
  have digits : ∀ c ∈ numeral (twoTo bits) word, ∃ d < 16, c = digitChar d := by
    intro c member
    obtain ⟨d, digit, same⟩ := mem_numeral large member
    exact ⟨d, Nat.lt_of_lt_of_le digit small, same⟩
  have run : ∀ c ∈ (numeral (twoTo bits) word).map Char.toUpper,
      c ≠ '.' ∧ ∃ d, digitIn? (twoTo bits) c = some d := by
    intro upper member
    obtain ⟨c, inside, rfl⟩ := List.mem_map.mp member
    obtain ⟨d, digit, rfl⟩ := mem_numeral large inside
    obtain ⟨other, value⟩ := upper_digitChar (Nat.lt_of_lt_of_le digit small)
    exact ⟨other, d, Option.filter_eq_some_iff.mpr ⟨value, decide_eq_true digit⟩⟩
  have value : continued (twoTo bits) 0 ((numeral (twoTo bits) word).map Char.toUpper) = word :=
    (continued_upper _ 0 digits).trans (numeralValue_numeral large small word)
  have read : patternRun bits 0 0 2 _ = _ :=
    patternRun_digits (Nat.le_trans few (by decide)) run (by rw [value]; exact bound)
  have filled : 0 + ((numeral (twoTo bits) word).map Char.toUpper).length ≠ 0 := by
    simp [numeral_ne_nil]
  intro cs
  rw [read_of_mark known, read, value, patternRun.finish, if_neg filled]
  simp only [cs, List.length_cons]
  congr 1
  omega

end Literal

theorem intText_eq_toText (n : Int) : intText n = (Decimal.ofInt n).toText := by
  -- with exponent zero all digits stand before the point
  have plain : Decimal.magnitudeChars n.natAbs 0 = numeral 10 n.natAbs := by
    have digits := digitCount_pos n.natAbs
    have place : (Decimal.adjusted n.natAbs 0 + 1).toNat = (numeral 10 n.natAbs).length := by
      rw [length_numeral, Decimal.adjusted]
      omega
    unfold Decimal.magnitudeChars
    dsimp only
    rw [if_pos (by unfold Decimal.adjusted; omega), withPoint, if_neg (by unfold Decimal.adjusted; omega),
      if_pos (by omega), place]
    simp
  rw [intText, Decimal.toText, Decimal.ofInt, Decimal.chars, plain, intChars]
  simp

theorem word_yields (preferDecimal : Bool) {n : Int} (fits : fitsWord n = true) (mark : Char)
    (bits : Nat) (known : Literal.prefixBits? mark = some bits) (positive : 0 < bits)
    (few : bits ≤ 4) :
    Formula.Yields preferDecimal (String.ofList ('0' :: mark ::
      (numeral (twoTo bits) (n % wordCount).toNat).map Char.toUpper)) (.integer n) := by
  have bound : (n % wordCount).toNat < twoTo 64 := by
    have below : n % wordCount < wordCount := Int.emod_lt_of_pos n (by decide)
    have low : 0 ≤ n % wordCount := Int.emod_nonneg n (by decide)
    exact (Int.toNat_lt low).mpr below
  have read := Literal.read_word preferDecimal known positive few bound
  rw [wrapWord_low fits] at read
  exact Formula.yields_literal (by decide) read

theorem leastWord_yields (preferDecimal : Bool) : ∃ v, Formula.Yields preferDecimal (intText leastWord) v ∧
    v.tag = (if preferDecimal then .decimal else .double) ∧ v.number? = some (leastWord : ℚ) := by
  rw [intText_eq_toText]
  have digits : digitCount 9223372036854775808 = 19 := by cbv
  cases preferDecimal with
  | true =>
    have fits : (Decimal.finite true 9223372036854775808 0).Fits .engine := by
      rw [Decimal.Fits, Decimal.adjusted, digits]
      decide
    refine ⟨_, Decimal.toText_fraction fits (by decide), rfl, ?_⟩
    exact Decimal.number?_whole true 9223372036854775808
  | false =>
    have bound : (Decimal.adjusted leastWord.natAbs 0).natAbs ≤ Literal.maxExponent := by
      show (Decimal.adjusted 9223372036854775808 0).natAbs ≤ Literal.maxExponent
      rw [Decimal.adjusted, digits]
      decide
    refine ⟨.double (-Binary64.ofDecimal (.finite false 9223372036854775808 0)), ?_, rfl, ?_⟩
    · exact Decimal.toText_yields bound (if_neg (by decide)) rfl
    · have nearest : Binary64.ofDecimal (.finite false 9223372036854775808 0) =
          Binary64.ofRatio false 9223372036854775808 1 := by
        simp [Binary64.ofDecimal, Binary64.ofScaled, Decimal.adjusted, digits, tenTo]
      have parts : Binary64.parts (-Binary64.ofRatio false 9223372036854775808 1) =
          .finite true 4503599627370496 11 := by decide
      rw [Value.number?, nearest, Binary64.number?, parts]
      dsimp only
      norm_num [Decimal.signed, leastWord]

/-- In every supported base the text of a whole number of 64 bits compiles and evaluates to the
    number, except for the least one in base ten, which is read as an equal decimal or double. -/
theorem integer_display_round_trip (preferDecimal : Bool) {n base : Int} (fits : fitsWord n = true)
    (supported : base ∈ Value.supportedBases) :
    ∃ text, (Value.integer n).format base = .ok text ∧
      if n = leastWord ∧ base = 10 then
        ∃ v, Formula.Yields preferDecimal text v ∧
          v.tag = (if preferDecimal then .decimal else .double) ∧ v.number? = some (n : ℚ)
      else Formula.Yields preferDecimal text (.integer n) := by
  have bounds := fitsWord_iff.mp fits
  simp only [Value.supportedBases, List.mem_cons, List.not_mem_nil, or_false] at supported
  rcases supported with rfl | rfl | rfl | rfl
  · refine ⟨String.ofList (wordChars 2 n), rfl, ?_⟩
    rw [if_neg (by simp)]
    exact word_yields preferDecimal fits 'b' 1 rfl (by decide) (by decide)
  · refine ⟨String.ofList (wordChars 8 n), rfl, ?_⟩
    rw [if_neg (by simp)]
    exact word_yields preferDecimal fits 'o' 3 rfl (by decide) (by decide)
  · refine ⟨intText n, rfl, ?_⟩
    by_cases least : n = leastWord
    · rw [if_pos ⟨least, rfl⟩, least]
      exact leastWord_yields preferDecimal
    · have word : (n.natAbs : Int) ≤ greatestWord := by
        unfold leastWord greatestWord at *
        omega
      have yields := Decimal.toText_whole preferDecimal (decide (n < 0)) word
      rw [Decimal.signed_natAbs] at yields
      rw [if_neg (fun both => least both.1), intText_eq_toText]
      exact yields
  · refine ⟨String.ofList (wordChars 16 n), rfl, ?_⟩
    rw [if_neg (by simp)]
    exact word_yields preferDecimal fits 'x' 4 rfl (by decide) (by decide)

theorem integer_display_round_trip_octal :
    fitsWord (-1) = true ∧ (8 : Int) ∈ supportedBases ∧
    (Value.integer (-1)).format 8 = .ok "0o1777777777777777777777" ∧
    Formula.Yields false "0o1777777777777777777777" (.integer (-1)) := by
  have fits : fitsWord (-1) = true := by decide
  have supported : (8 : Int) ∈ supportedBases := by decide
  have chars : wordChars 8 (-1) = "0o1777777777777777777777".toList := by cbv
  obtain ⟨text, formatted, yields⟩ := integer_display_round_trip false fits supported
  have same : String.ofList (wordChars 8 (-1)) = text := Except.ok.inj formatted
  rw [chars, String.ofList_toList] at same
  rw [if_neg (by decide)] at yields
  subst same
  exact ⟨fits, supported, formatted, yields⟩

end Reckoner
