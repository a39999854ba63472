import Reckoner.Binary64.Text
import Reckoner.Proofs.Display.Decimals

namespace Reckoner.Binary64

open Text Literal

def Unpadded (m : Mantissa) : Prop := m.whole = ['0'] ∨ m.whole.head? ≠ some '0'

theorem unpadded_of_prefix {m : Mantissa} (proper : m.Proper) {c : Nat} (positive : 0 < c)
    (begins : m.whole = ['0'] ∨ m.whole <+: numeral 10 c) : Unpadded m := by
  refine begins.imp_right fun ⟨ds, whole⟩ => ?_
  obtain ⟨d, ws, head⟩ := List.exists_cons_of_ne_nil proper.filled
  rw [head]
  rw [head, List.cons_append] at whole
  exact fun zero => head_of_numeral positive whole.symm (Option.some.inj zero)

def shown (c : Nat) (e : Int) : Nat × Int :=
  if isPositional (digitCount c + e) && 0 ≤ e then (c * tenTo (e.toNat + 1), -1) else (c, e)

theorem numeralValue_zeros (digits : List Char) (n : Nat) :
    numeralValue 10 (digits ++ List.replicate n '0') = numeralValue 10 digits * tenTo n := by
  unfold numeralValue
  rw [continued_append]
  generalize continued 10 0 digits = value
  induction n generalizing value with
  | zero => exact (Nat.mul_one value).symm
  | succ n ih =>
    rw [List.replicate_succ, continued, ih, tenTo_succ, Nat.mul_comm (tenTo n), ← Nat.mul_assoc]
    rfl

theorem numeral_zero : numeral 10 0 = ['0'] := by
  unfold numeral
  rfl

theorem whole_mantissa {c : Nat} (n : Nat) (zero : c = 0 → n = 0) :
    ∃ m : Mantissa, m.Proper ∧ Unpadded m ∧ m.fraction ≠ [] ∧
      withPoint (numeral 10 c) (digitCount c + n : Int) ++ ['.', '0'] = m.chars ∧
      m.exact 0 = .finite false (c * tenTo (n + 1)) (-1) := by
  have filled := numeral_ne_nil 10 c
  have digits := digitCount_pos c
  refine ⟨⟨numeral 10 c ++ List.replicate n '0', ['0']⟩,
    ⟨fun none => filled (List.append_eq_nil_iff.mp none).1, ?_, by simp⟩, ?_, nofun, ?_, ?_⟩
  · intro d member
    rcases List.mem_append.mp member with digit | filling
    · exact isDigit_of_mem_numeral digit
    · rw [(List.mem_replicate.mp filling).2]
      rfl
  · rcases Nat.eq_zero_or_pos c with rfl | positive
    · refine .inl ?_
      rw [zero rfl, numeral_zero]
      rfl
    · obtain ⟨d, ds, head, -⟩ := numeral_cons c
      refine .inr ?_
      rw [head]
      exact fun same => head_of_numeral positive head (Option.some.inj same)
  · rw [withPoint, length_numeral, if_neg (by omega), if_pos (by omega)]
    have missing : ((digitCount c : Int) + n).toNat - digitCount c = n := by omega
    rw [missing]
    rfl
  · have value : numeralValue 10 (numeral 10 c ++ List.replicate n '0' ++ ['0']) = c * tenTo (n + 1) := by
      have zeros : List.replicate n '0' ++ ['0'] = List.replicate (n + 1) '0' := List.replicate_succ'.symm
      rw [List.append_assoc, zeros, numeralValue_zeros, numeralValue_numeral (by decide) (by decide)]
    simp only [Mantissa.exact, value]
    rfl

theorem pointed_mantissa {c : Nat} (positive : 0 < c) (place : Int) (within : place ≤ digitCount c) :
    ∃ m : Mantissa, m.Proper ∧ Unpadded m ∧ withPoint (numeral 10 c) place = m.chars ∧
      ∀ a, m.exact a = .finite false c (a - (digitCount c - place)) := by
  have value : numeralValue 10 (numeral 10 c) = c := numeralValue_numeral (by decide) (by decide) c
  obtain ⟨m, proper, chars, begins, denotes⟩ := withPoint_mantissa (numeral_ne_nil 10 c)
    (fun d => isDigit_of_mem_numeral) place (by rw [length_numeral]; exact within)
  rw [value, length_numeral] at denotes
  exact ⟨m, proper, unpadded_of_prefix proper positive begins, chars, denotes⟩

theorem magnitudeChars_mantissa {c : Nat} {e : Int} (zero : c = 0 → e = 0) :
    ∃ m : Mantissa, m.Proper ∧ Unpadded m ∧
      ((m.fraction ≠ [] ∧ magnitudeChars c e = m.chars ∧
          m.exact 0 = .finite false (shown c e).1 (shown c e).2) ∨
        ∃ a, magnitudeChars c e = m.chars ++ exponentChars a ∧
          m.exact a = .finite false (shown c e).1 (shown c e).2) := by
  have digits := digitCount_pos c
  unfold magnitudeChars shown
  dsimp only
  rw [length_numeral]
  by_cases whole : isPositional (digitCount c + e) = true ∧ 0 ≤ e
  · obtain ⟨positional, whole⟩ := whole
    obtain ⟨n, rfl⟩ := Int.eq_ofNat_of_zero_le whole
    obtain ⟨m, proper, unpadded, fraction, chars, denotes⟩ :=
      whole_mantissa (c := c) n fun none => Int.ofNat.inj (zero none)
    rw [positional, if_pos rfl, if_pos whole, Bool.true_and, if_pos (decide_eq_true whole)]
    exact ⟨m, proper, unpadded, .inl ⟨fraction, chars, denotes⟩⟩
  have other : ¬ (isPositional (digitCount c + e) && decide (0 ≤ e)) = true := by
    simpa only [Bool.and_eq_true, decide_eq_true_eq] using whole
  have positive : 0 < c := by
    refine Nat.pos_of_ne_zero fun none => whole ?_
    rw [none, zero none, digitCount_of_lt (by decide)]
    decide
  rw [if_neg other]
  cases positional : isPositional (digitCount c + e) with
  | true =>
    have below : ¬ 0 ≤ e := fun least => whole ⟨positional, least⟩
    obtain ⟨m, proper, unpadded, chars, denotes⟩ :=
      pointed_mantissa positive (digitCount c + e) (by omega)
    rw [if_pos rfl, if_neg below, List.append_nil]
    have exact := denotes 0
    rw [show (0 : Int) - (digitCount c - (digitCount c + e)) = e by omega] at exact
    refine ⟨m, proper, unpadded, .inl ⟨fun none => ?_, chars, exact⟩⟩
    have place := (Decimal.finite.inj exact).2.2
    rw [none, List.length_nil] at place
    omega
  | false =>
    obtain ⟨m, proper, unpadded, chars, denotes⟩ := pointed_mantissa positive 1 (by omega)
    rw [if_neg Bool.false_ne_true, chars]
    refine ⟨m, proper, unpadded, .inr ⟨_, rfl, ?_⟩⟩
    rw [denotes]
    congr 1
    omega

theorem magnitudeChars_head {c : Nat} {e : Int} (zero : c = 0 → e = 0) :
    ∃ d ds, magnitudeChars c e = d :: ds ∧ d.isDigit = true := by
  obtain ⟨m, proper, -, ⟨-, chars, -⟩ | ⟨a, chars, -⟩⟩ := magnitudeChars_mantissa zero
  · rw [chars, ← List.append_nil m.chars]
    exact proper.chars_head []
  · rw [chars]
    exact proper.chars_head _

theorem toDecimal_of_parts {x : Float} {s : Bool} {m : Nat} {q : Int} (finite : parts x = .finite s m q) :
    toDecimal x = .finite s (shown (shortest m q).1 (shortest m q).2).1
      (shown (shortest m q).1 (shortest m q).2).2 := by
  rw [toDecimal, finite]
  dsimp only
  unfold shown
  split <;> rfl

theorem exponentChars_digits (a : Int) : ∃ ds, exponentChars a = 'e' :: (if a < 0 then '-' else '+') :: ds ∧
    ds ≠ [] ∧ (∀ d ∈ ds, d.isDigit = true) ∧ numeralValue 10 ds = a.natAbs := by
  have value : numeralValue 10 (numeral 10 a.natAbs) = a.natAbs :=
    numeralValue_numeral (by decide) (by decide) _
  have digits : ∀ d ∈ numeral 10 a.natAbs, d.isDigit = true := fun d => isDigit_of_mem_numeral
  refine ⟨_, rfl, ?_⟩
  split
  · exact ⟨nofun, List.forall_mem_cons.mpr ⟨rfl, digits⟩, value⟩
  · exact ⟨numeral_ne_nil 10 _, digits, value⟩

theorem readExponent?_exponentChars (a : Int) : Decimal.readExponent? (exponentChars a) = some a := by
  obtain ⟨ds, chars, filled, digits, value⟩ := exponentChars_digits a
  have sign : takeSign ((if a < 0 then '-' else '+') :: ds) = (decide (a < 0), ds) := by
    split <;> simp [takeSign, *]
  have all : ds.all Char.isDigit = true := List.all_eq_true.mpr digits
  have nonempty : ds.isEmpty = false := List.isEmpty_eq_false_iff.mpr filled
  simp only [chars, Decimal.readExponent?, sign, all, nonempty, value, Decimal.signed_natAbs]
  rfl

def OptionalExponent (cs : List Char) : Prop := cs = [] ∨ ∃ ds, cs = 'e' :: ds

theorem OptionalExponent.digits {run behind : List Char} (ends : OptionalExponent behind)
    (digits : ∀ c ∈ run, c.isDigit = true) :
    (run ++ behind).takeWhile Char.isDigit = run ∧ (run ++ behind).dropWhile Char.isDigit = behind := by
  rw [List.takeWhile_append_of_pos digits, List.dropWhile_append_of_pos digits]
  rcases ends with rfl | ⟨ds, rfl⟩
  · exact ⟨List.append_nil run, rfl⟩
  · rw [List.takeWhile_cons_of_neg (by decide), List.dropWhile_cons_of_neg (by decide)]
    exact ⟨List.append_nil run, rfl⟩

theorem readMagnitude?_mantissa {m : Mantissa} (proper : m.Proper) {behind : List Char}
    (ends : OptionalExponent behind)
    {a : Int} (exponent : Decimal.readExponent? behind = some a) (negative : Bool) :
    Decimal.readMagnitude? negative (m.chars ++ behind) =
      some (.finite negative (numeralValue 10 (m.whole ++ m.fraction)) (a - m.fraction.length)) := by
  obtain ⟨whole, fraction⟩ := m
  have filled : whole.isEmpty = false := List.isEmpty_eq_false_iff.mpr proper.filled
  unfold Decimal.readMagnitude? Mantissa.chars
  cases fraction with
  | nil =>
    obtain ⟨first, rest⟩ := ends.digits proper.whole
    have point (r : List Char) : behind ≠ '.' :: r := by
      rcases ends with rfl | ⟨ds, rfl⟩ <;> nofun
    simp only [pointed, List.isEmpty_nil, if_true, List.append_nil, first, rest, filled, Bool.false_and,
      Bool.false_eq_true, if_false, exponent]
    rfl
  | cons c cs =>
    obtain ⟨first, rest⟩ := ends.digits proper.fraction
    have point : ('.' :: (c :: cs ++ behind)).takeWhile Char.isDigit = [] ∧
        ('.' :: (c :: cs ++ behind)).dropWhile Char.isDigit = '.' :: (c :: cs ++ behind) :=
      ⟨List.takeWhile_cons_of_neg (by decide), List.dropWhile_cons_of_neg (by decide)⟩
    have text : whole ++ pointed (c :: cs) ++ behind = whole ++ '.' :: (c :: cs ++ behind) :=
      List.append_assoc ..
    rw [text, List.takeWhile_append_of_pos proper.whole, List.dropWhile_append_of_pos proper.whole, point.1,
      point.2, List.append_nil]
    simp only [first, rest, filled, Bool.false_and, Bool.false_eq_true, if_false, exponent]
    rfl

end Reckoner.Binary64
