import Reckoner.Proofs.Values.Digits
import Reckoner.Text.Positional

namespace Reckoner.Text

theorem continued_append (base n : Nat) (cs ds : List Char) :
    continued base n (cs ++ ds) = continued base (continued base n cs) ds := by
  induction cs generalizing n with
  | nil => rfl
  | cons c cs ih => exact ih _

theorem le_continued {base : Nat} (positive : 0 < base) (n : Nat) (cs : List Char) :
    n ≤ continued base n cs := by
  induction cs generalizing n with
  | nil => exact Nat.le_refl n
  | cons c cs ih =>
    have grown : n ≤ n * base := Nat.le_mul_of_pos_right n positive
    have further := ih (n * base + (digitOf? c).getD 0)
    simp only [continued]
    omega

theorem digitOf?_digitChar {d : Nat} (digit : d < 16) : digitOf? (digitChar d) = some d := by
  have table : ∀ d < 16, digitOf? (digitChar d) = some d := by decide
  exact table d digit

theorem isDigit_digitChar {d : Nat} (digit : d < 10) : (digitChar d).isDigit = true := by
  have table : ∀ d < 10, (digitChar d).isDigit = true := by decide
  exact table d digit

theorem numeral_ne_nil (base n : Nat) : numeral base n ≠ [] := by
  unfold numeral
  split <;> simp

theorem mem_numeral {base : Nat} (large : 2 ≤ base) {n : Nat} {c : Char} (member : c ∈ numeral base n) :
    ∃ d < base, c = digitChar d := by
  fun_induction numeral base n with
  | case1 n last => exact ⟨n, by omega, List.mem_singleton.mp member⟩
  | case2 n more ih =>
    rcases List.mem_append.mp member with before | last
    · exact ih before
    · exact ⟨n % base, Nat.mod_lt _ (by omega), List.mem_singleton.mp last⟩

theorem isDigit_of_mem_numeral {n : Nat} {c : Char} (member : c ∈ numeral 10 n) :
    c.isDigit = true := by
  obtain ⟨d, digit, rfl⟩ := mem_numeral (by decide) member
  exact isDigit_digitChar digit

theorem numeralValue_numeral {base : Nat} (large : 2 ≤ base) (small : base ≤ 16) (n : Nat) :
    numeralValue base (numeral base n) = n := by
  -- the recursion writes the last digit behind the others
  fun_induction numeral base n with
  | case1 n last =>
    have digit : n < 16 := by omega
    simp [numeralValue, continued, digitOf?_digitChar digit]
  | case2 n more ih =>
    have digit : n % base < 16 := Nat.lt_of_lt_of_le (Nat.mod_lt _ (by omega)) small
    rw [numeralValue] at ih
    rw [numeralValue, continued_append, ih]
    simp only [continued, digitOf?_digitChar digit, Option.getD_some]
    exact Nat.div_add_mod' n base

theorem length_numeral (n : Nat) : (numeral 10 n).length = digitCount n := by
  fun_induction digitCount n with
  | case1 n small =>
    rw [numeral, dif_pos (.inl small)]
    rfl
  | case2 n large ih =>
    rw [numeral, dif_neg (by omega), List.length_append, ih]
    rfl

theorem numeral_cons (n : Nat) : ∃ c cs, numeral 10 n = c :: cs ∧ c.isDigit = true := by
  obtain ⟨c, cs, head⟩ := List.exists_cons_of_ne_nil (numeral_ne_nil 10 n)
  exact ⟨c, cs, head, isDigit_of_mem_numeral (head ▸ List.mem_cons_self)⟩

theorem head_of_numeral {n : Nat} (positive : 0 < n) {c : Char} {cs : List Char}
    (head : numeral 10 n = c :: cs) : c ≠ '0' := by
  fun_induction numeral 10 n generalizing cs with
  | case1 n last =>
    have table : ∀ d < 10, 0 < d → digitChar d ≠ '0' := by decide
    cases head
    exact table n (by omega) positive
  | case2 n more ih =>
    obtain ⟨d, ds, first, -⟩ := numeral_cons (n / 10)
    rw [first] at head
    exact ih (by omega) (first.trans (by rw [(List.cons.inj head).1]))

end Reckoner.Text
