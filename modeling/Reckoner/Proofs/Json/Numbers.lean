import Reckoner.Json.Print
import Reckoner.Json.Read
import Reckoner.Proofs.Display.Literals

namespace Reckoner

namespace Json

open Text

def Delimited : List Char → Prop
  | [] => True
  | c :: _ => c = ',' ∨ c = ']' ∨ c = '}'

theorem Delimited.nil : Delimited [] := trivial

theorem Delimited.comma (rest : List Char) : Delimited (',' :: rest) := Or.inl rfl

theorem Delimited.bracket (rest : List Char) : Delimited (']' :: rest) := Or.inr (Or.inl rfl)

theorem Delimited.brace (rest : List Char) : Delimited ('\x7d' :: rest) := Or.inr (Or.inr rfl)

theorem Delimited.no_digits {rest : List Char} (delimited : Delimited rest) :
    rest.takeWhile Char.isDigit = [] ∧ rest.dropWhile Char.isDigit = rest := by
  cases rest with
  | nil => exact ⟨rfl, rfl⟩
  | cons c rest => rcases delimited with rfl | rfl | rfl <;> exact ⟨rfl, rfl⟩

theorem wholeDigits_numeral (n : Nat) {rest : List Char} (delimited : Delimited rest) :
    wholeDigits (numeral 10 n ++ rest) = (numeral 10 n, rest) := by
  obtain ⟨none, all⟩ := delimited.no_digits
  have digits : ∀ c ∈ numeral 10 n, c.isDigit = true := fun _ => isDigit_of_mem_numeral
  rcases Nat.eq_zero_or_pos n with rfl | positive
  · rw [show numeral 10 0 = ['0'] by unfold numeral; rfl]
    rfl
  · obtain ⟨c, cs, head, -⟩ := numeral_cons n
    unfold wholeDigits
    split
    · rename_i same
      rw [head] at same
      exact absurd (List.cons.inj same).1 (head_of_numeral positive head)
    · rw [List.takeWhile_append_of_pos digits, List.dropWhile_append_of_pos digits, none, all,
        List.append_nil]

theorem digitsAfter_delimited {isMark : Char → Bool} (sign : Bool) {rest : List Char}
    (other : isMark ',' = false ∧ isMark ']' = false ∧ isMark '\x7d' = false)
    (delimited : Delimited rest) : digitsAfter isMark sign rest = ([], rest) := by
  cases rest with
  | nil => rfl
  | cons c rest =>
    have unmarked : isMark c = false := by
      rcases delimited with rfl | rfl | rfl
      · exact other.1
      · exact other.2.1
      · exact other.2.2
    rw [digitsAfter, unmarked]
    rfl

theorem number?_intChars (n : Int) {rest : List Char} (delimited : Delimited rest) :
    number? (intChars n ++ rest) = some (integer n, rest) := by
  have read (negative : Bool) (cs : List Char) (sign : (cs.head? == some '-') = negative)
      (digits : (if negative then cs.drop 1 else cs) = numeral 10 n.natAbs ++ rest)
      (signed : negative = decide (n < 0)) : number? cs = some (integer n, rest) := by
    unfold number?
    dsimp only
    rw [sign, digits, wholeDigits_numeral n.natAbs delimited]
    dsimp only
    rw [digitsAfter_delimited false ⟨rfl, rfl, rfl⟩ delimited]
    dsimp only
    rw [digitsAfter_delimited true ⟨rfl, rfl, rfl⟩ delimited]
    dsimp only
    rw [if_neg (by simp [numeral_ne_nil]), List.isEmpty_nil, Bool.and_self, if_pos rfl,
      numeralValue_numeral (by decide) (by decide), signed,
      Decimal.signed_natAbs]
  unfold intChars
  split
  · rename_i negative
    exact read true _ rfl rfl (decide_eq_true negative).symm
  · rename_i other
    refine read false _ ?_ rfl (decide_eq_false other).symm
    obtain ⟨c, cs, head, digit⟩ := numeral_cons n.natAbs
    have sign : c ≠ '-' := by
      rintro rfl
      cases digit
    simp [head, sign]

theorem ne_of_digit {c d : Char} (digit : c.isDigit = true) (letter : d.isDigit = false) : d ≠ c := by
  rintro rfl
  rw [digit] at letter
  cases letter

def BeginsNumber (cs : List Char) : Prop :=
  ∃ d ds, d.isDigit = true ∧ (cs = d :: ds ∨ cs = '-' :: d :: ds)

theorem beginsNumber_intChars (n : Int) : BeginsNumber (intChars n) := by
  obtain ⟨d, ds, head, digit⟩ := numeral_cons n.natAbs
  refine ⟨d, ds, digit, ?_⟩
  unfold intChars
  split
  · exact .inr (congrArg _ head)
  · exact .inl head

namespace BeginsNumber

variable {cs : List Char}

theorem append (begins : BeginsNumber cs) (rest : List Char) : BeginsNumber (cs ++ rest) := by
  obtain ⟨d, ds, digit, rfl | rfl⟩ := begins
  · exact ⟨d, ds ++ rest, digit, .inl rfl⟩
  · exact ⟨d, ds ++ rest, digit, .inr rfl⟩

theorem head (begins : BeginsNumber cs) :
    ∃ c ds, cs = c :: ds ∧ isBlank c = false ∧ ∀ d, d.isDigit = false → d ≠ '-' → c ≠ d := by
  obtain ⟨c, ds, digit, rfl | rfl⟩ := begins
  · have other (d : Char) (letter : d.isDigit = false) : c ≠ d := (ne_of_digit digit letter).symm
    refine ⟨c, ds, rfl, ?_, fun d letter _ => other d letter⟩
    simp [isBlank, other ' ' rfl, other '\t' rfl, other '\n' rfl, other '\r' rfl]
  · exact ⟨_, _, rfl, rfl, fun d _ other => other.symm⟩

theorem name?_eq_none (begins : BeginsNumber cs) : name? cs = none := by
  obtain ⟨c, ds, digit, rfl | rfl⟩ := begins
  · simp [name?, names, ne_of_digit (d := 'n') digit rfl, ne_of_digit (d := 't') digit rfl,
      ne_of_digit (d := 'f') digit rfl, ne_of_digit (d := 'N') digit rfl,
      ne_of_digit (d := 'I') digit rfl, ne_of_digit (d := '-') digit rfl]
  · simp [name?, names, ne_of_digit (d := 'I') digit rfl]

end BeginsNumber

end Json

end Reckoner
