import Reckoner.Json.Print
import Reckoner.Json.Read

namespace Reckoner

namespace Text

theorem hexDigits_one {n : Nat} (digit : n < 16) : hexDigits 1 n = [Nat.digitChar n] := by
  unfold hexDigits
  rw [Nat.toDigits_of_lt_base digit]
  rfl

theorem hexDigits_succ (width n : Nat) :
    hexDigits (width + 2) n = hexDigits (width + 1) (n / 16) ++ [Nat.digitChar (n % 16)] := by
  unfold hexDigits
  dsimp only
  by_cases digit : n < 16
  · rw [Nat.toDigits_of_lt_base digit, Nat.div_eq_of_lt digit, Nat.mod_eq_of_lt digit,
      Nat.toDigits_of_lt_base (by decide)]
    simp only [List.length_singleton, Nat.add_sub_cancel]
    rw [show width + 2 - 1 = width + 1 by omega, List.replicate_succ']
    rfl
  · rw [Nat.toDigits_of_base_le (by decide) (by omega), List.length_append, List.length_singleton,
      List.append_assoc, show width + 2 = width + 1 + 1 from rfl, Nat.add_sub_add_right]

theorem hexDigits_four {n : Nat} (bound : n < 0x10000) :
    hexDigits 4 n = [Nat.digitChar (n / 16 / 16 / 16), Nat.digitChar (n / 16 / 16 % 16),
      Nat.digitChar (n / 16 % 16), Nat.digitChar (n % 16)] := by
  rw [hexDigits_succ, hexDigits_succ, hexDigits_succ, hexDigits_one (by omega)]
  rfl

theorem digitOf?_digitChar_hex {d : Nat} (digit : d < 16) : digitOf? (Nat.digitChar d) = some d := by
  have table : ∀ d < 16, digitOf? (Nat.digitChar d) = some d := by decide
  exact table d digit

end Text

namespace Json

open Text

theorem unit?_hexDigits {n : Nat} (bound : n < 0x10000) :
    ∃ a b c d, hexDigits 4 n = [a, b, c, d] ∧ unit? a b c d = some n := by
  refine ⟨_, _, _, _, hexDigits_four bound, ?_⟩
  unfold unit?
  rw [digitOf?_digitChar_hex (by omega), digitOf?_digitChar_hex (by omega),
    digitOf?_digitChar_hex (by omega), digitOf?_digitChar_hex (by omega)]
  show some _ = some _
  congr 1
  omega

theorem stringChar?_unit {n : Nat} (bound : n < 0x10000) (single : isHighUnit n = false)
    (rest : List Char) : stringChar? (unitChars n ++ rest) = some (unitChar n, rest) := by
  obtain ⟨a, b, c, d, digits, value⟩ := unit?_hexDigits bound
  rw [unitChars, digits]
  simp only [List.cons_append, List.nil_append, stringChar?, value, Option.bind_eq_bind,
    Option.bind_some, single, Bool.false_eq_true, if_false]
  rfl

theorem lowUnit?_unit {n : Nat} (bound : n < 0x10000) (low : isLowUnit n = true) (rest : List Char) :
    lowUnit? (unitChars n ++ rest) = some (n, rest) := by
  obtain ⟨a, b, c, d, digits, value⟩ := unit?_hexDigits bound
  rw [unitChars, digits]
  simp only [List.cons_append, List.nil_append, lowUnit?, value, low, if_true]

theorem stringChar?_pair {high low : Nat} (first : isHighUnit high = true) (second : isLowUnit low = true)
    (rest : List Char) :
    stringChar? (unitChars high ++ unitChars low ++ rest) = some (pairChar high low, rest) := by
  have highBound : high < 0x10000 := by simp [isHighUnit] at first; omega
  have lowBound : low < 0x10000 := by simp [isLowUnit] at second; omega
  obtain ⟨a, b, c, d, digits, value⟩ := unit?_hexDigits highBound
  rw [List.append_assoc, unitChars, digits]
  simp only [List.cons_append, List.nil_append, stringChar?, value, Option.bind_eq_bind,
    Option.bind_some, first, if_true, lowUnit?_unit lowBound second]
  rfl

theorem stringChar?_plain {c : Char} (quote : c ≠ '"') (mark : c ≠ '\\') (printed : 32 ≤ c.toNat)
    (rest : List Char) : stringChar? (c :: rest) = some (c, rest) := by
  unfold stringChar?
  split
  · rename_i same
    cases same
    exact absurd rfl mark
  · rename_i same
    cases same
    exact absurd rfl mark
  · rename_i same
    cases same
    have high : ¬ c.toNat < 32 := by omega
    simp [quote, mark, high]
  · rename_i same
    cases same

theorem unitChar_toNat (c : Char) : isHighUnit c.toNat = false ∧ unitChar c.toNat = c := by
  have valid : c.toNat < 0xD800 ∨ 0xDFFF < c.toNat ∧ c.toNat < 0x110000 := c.valid
  have high : isHighUnit c.toNat = false := by
    simp only [isHighUnit, Bool.and_eq_false_iff, decide_eq_false_iff_not]
    omega
  have low : isLowUnit c.toNat = false := by
    simp only [isLowUnit, Bool.and_eq_false_iff, decide_eq_false_iff_not]
    omega
  refine ⟨high, ?_⟩
  rw [unitChar, high, low]
  exact Char.ofNat_toNat c

theorem stringChar?_charText (c : Char) (rest : List Char) :
    stringChar? (charText c ++ rest) = some (c, rest) := by
  unfold charText
  split
  · rename_i escaped
    rcases Bool.or_eq_true_iff.mp escaped with quote | mark
    · cases eq_of_beq quote
      rfl
    · cases eq_of_beq mark
      rfl
  rename_i unescaped
  simp only [Bool.or_eq_true, beq_iff_eq, not_or] at unescaped
  iterate 5
    split
    · rename_i named
      cases eq_of_beq named
      rfl
  split
  · rename_i printed
    simp only [Bool.and_eq_true, decide_eq_true_eq] at printed
    exact stringChar?_plain unescaped.1 unescaped.2 printed.1 rest
  split
  · rename_i bound
    obtain ⟨single, same⟩ := unitChar_toNat c
    rw [stringChar?_unit bound single, same]
  -- beyond 16 bits the character is written as a pair, of which the first unit tells that there is a second
  · rename_i bound
    have valid : c.toNat < 0xD800 ∨ 0xDFFF < c.toNat ∧ c.toNat < 0x110000 := c.valid
    dsimp only
    have high : isHighUnit (0xD800 + (c.toNat - 0x10000) / 0x400) = true := by
      simp only [isHighUnit, Bool.and_eq_true, decide_eq_true_eq]
      omega
    have low : isLowUnit (0xDC00 + (c.toNat - 0x10000) % 0x400) = true := by
      simp only [isLowUnit, Bool.and_eq_true, decide_eq_true_eq]
      omega
    have point : 0x10000 + (0xD800 + (c.toNat - 0x10000) / 0x400 - 0xD800) * 0x400 +
        (0xDC00 + (c.toNat - 0x10000) % 0x400 - 0xDC00) = c.toNat := by omega
    rw [stringChar?_pair high low, pairChar, point, Char.ofNat_toNat]

theorem charText_head (c : Char) : ∃ d ds, charText c = d :: ds ∧ d ≠ '"' := by
  unfold charText
  split
  · exact ⟨_, _, rfl, by decide⟩
  rename_i unescaped
  simp only [Bool.or_eq_true, beq_iff_eq, not_or] at unescaped
  iterate 5
    split
    · exact ⟨_, _, rfl, by decide⟩
  split
  · exact ⟨c, [], rfl, unescaped.1⟩
  split
  · exact ⟨_, _, rfl, by decide⟩
  · exact ⟨_, _, rfl, by decide⟩

theorem stringBody?_cons {fuel : Nat} {c : Char} {cs rest body behind : List Char}
    (read : stringBody? fuel rest = some (body, behind)) (written : charText c ++ rest = cs) :
    stringBody? (fuel + 1) cs = some (c :: body, behind) := by
  obtain ⟨d, ds, head, other⟩ := charText_head c
  have first := stringChar?_charText c rest
  rw [written] at first
  rw [head, List.cons_append] at written
  subst written
  rw [stringBody?, first, Option.bind_eq_bind, Option.bind_some]
  · simp only [read, Option.bind_eq_bind, Option.bind_some]
    rfl
  · intro rest' same
    exact other (List.cons.inj same).1

theorem stringBody?_charTexts (cs rest : List Char) {fuel : Nat} (enough : cs.length < fuel) :
    stringBody? fuel (cs.flatMap charText ++ '"' :: rest) = some (cs, rest) := by
  -- one unit of fuel is spent on a character, however long it is written
  induction cs generalizing fuel with
  | nil =>
    obtain ⟨fuel, rfl⟩ : ∃ n, fuel = n + 1 := ⟨fuel - 1, by simp at enough; omega⟩
    rfl
  | cons c cs ih =>
    obtain ⟨fuel, rfl⟩ : ∃ n, fuel = n + 1 := ⟨fuel - 1, by simp at enough; omega⟩
    rw [List.flatMap_cons, List.append_assoc]
    exact stringBody?_cons (ih (by simpa using enough)) rfl

theorem length_le_charTexts (cs : List Char) : cs.length ≤ (cs.flatMap charText).length := by
  induction cs with
  | nil => exact Nat.le_refl _
  | cons c cs ih =>
    obtain ⟨d, ds, head, -⟩ := charText_head c
    simp only [List.flatMap_cons, head, List.length_append, List.length_cons]
    omega

theorem string?_charTexts (s : String) (rest : List Char) :
    string? (s.toList.flatMap charText ++ '"' :: rest) = some (s, rest) := by
  have bound := length_le_charTexts s.toList
  rw [string?, stringBody?_charTexts s.toList rest (by simp only [List.length_append]; omega)]
  simp

end Json

end Reckoner
