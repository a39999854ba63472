import Reckoner.Json.Print
import Reckoner.Proofs.Binary64.Shortest
import Reckoner.Proofs.Display.Doubles
import Reckoner.Proofs.Json.Numbers

namespace Reckoner.Json

open Text Literal Binary64

variable {rest : List Char}

theorem wholeDigits_unpadded {m : Mantissa} (proper : m.Proper) (unpadded : Unpadded m) {behind : List Char}
    (stops : behind.takeWhile Char.isDigit = []) : wholeDigits (m.whole ++ behind) = (m.whole, behind) := by
  unfold wholeDigits
  split
  · rename_i cs text
    rcases unpadded with zero | other
    · rw [zero] at text ⊢
      cases text
      rfl
    · obtain ⟨d, ds, head⟩ := List.exists_cons_of_ne_nil proper.filled
      rw [head] at text other
      cases text
      exact absurd rfl other
  · have whole := List.takeWhile_append_dropWhile (p := Char.isDigit) (l := behind)
    rw [stops, List.nil_append] at whole
    rw [List.takeWhile_append_of_pos proper.whole, List.dropWhile_append_of_pos proper.whole, stops, whole,
      List.append_nil]

theorem stops_of_ends {behind : List Char} (ends : OptionalExponent behind) (delimited : Delimited rest) :
    (behind ++ rest).takeWhile Char.isDigit = [] ∧
      (behind ++ rest).dropWhile Char.isDigit = behind ++ rest := by
  rcases ends with rfl | ⟨ds, rfl⟩
  · exact delimited.no_digits
  · exact ⟨List.takeWhile_cons_of_neg (by decide), List.dropWhile_cons_of_neg (by decide)⟩

theorem digitsAfter_mark {isMark : Char → Bool} {mark : Char} (marks : isMark mark = true) {sign : Bool}
    {cs ds behind : List Char} (unsigned : (if sign then (takeSign cs).2 else cs) = ds ++ behind)
    (filled : ds ≠ []) (digits : ∀ d ∈ ds, d.isDigit = true)
    (stops : behind.takeWhile Char.isDigit = [] ∧ behind.dropWhile Char.isDigit = behind) :
    digitsAfter isMark sign (mark :: cs) =
      (mark :: cs.take (cs.length - (ds ++ behind).length) ++ ds, behind) := by
  have run : (ds ++ behind).takeWhile Char.isDigit = ds := by
    rw [List.takeWhile_append_of_pos digits, stops.1, List.append_nil]
  have left : (ds ++ behind).dropWhile Char.isDigit = behind := by
    rw [List.dropWhile_append_of_pos digits, stops.2]
  have some : ds.isEmpty = false := List.isEmpty_eq_false_iff.mpr filled
  rw [digitsAfter, unsigned, run, left, marks, some]
  rfl

theorem digitsAfter_pointed {fraction : List Char} (digits : ∀ c ∈ fraction, c.isDigit = true)
    {behind : List Char} (ends : OptionalExponent behind) (delimited : Delimited rest) :
    digitsAfter (· == '.') false (pointed fraction ++ (behind ++ rest)) =
      (pointed fraction, behind ++ rest) := by
  cases fraction with
  | nil =>
    rcases ends with rfl | ⟨ds, rfl⟩
    · exact digitsAfter_delimited false ⟨rfl, rfl, rfl⟩ delimited
    · rfl
  | cons c cs =>
    have unsigned : (if false then (takeSign (c :: cs ++ (behind ++ rest))).2
        else c :: cs ++ (behind ++ rest)) = c :: cs ++ (behind ++ rest) := rfl
    have text : pointed (c :: cs) ++ (behind ++ rest) = '.' :: (c :: cs ++ (behind ++ rest)) := rfl
    rw [text, digitsAfter_mark (by rfl) unsigned nofun digits (stops_of_ends ends delimited), Nat.sub_self]
    rfl

theorem digitsAfter_exponentChars (a : Int) (delimited : Delimited rest) :
    digitsAfter (fun c => c == 'e' || c == 'E') true (exponentChars a ++ rest) = (exponentChars a, rest) := by
  obtain ⟨ds, chars, filled, digits, -⟩ := exponentChars_digits a
  generalize mark : (if a < 0 then '-' else '+') = sign at chars
  have unsigned : (if true then (takeSign (sign :: (ds ++ rest))).2 else sign :: (ds ++ rest)) =
      ds ++ rest := by
    subst mark
    rw [if_pos rfl]
    split <;> rfl
  have length : (sign :: (ds ++ rest)).length - (ds ++ rest).length = 1 := by
    rw [List.length_cons]
    omega
  have text : exponentChars a ++ rest = 'e' :: (sign :: (ds ++ rest)) := by
    rw [chars]
    rfl
  rw [text, digitsAfter_mark (by rfl) unsigned filled digits delimited.no_digits, length, chars]
  rfl

theorem number?_mantissa {m : Mantissa} (proper : m.Proper) (unpadded : Unpadded m) {behind cs : List Char}
    {negative : Bool} (sign : (cs.head? == some '-') = negative)
    (text : (if negative then cs.drop 1 else cs) = m.chars ++ (behind ++ rest))
    (broken : m.fraction ≠ [] ∨ behind ≠ []) (delimited : Delimited rest) (ends : OptionalExponent behind)
    (after : digitsAfter (fun c => c == 'e' || c == 'E') true (behind ++ rest) = (behind, rest))
    {a : Int} (exponent : Decimal.readExponent? behind = some a) {c : Nat} {e : Int}
    (exact : m.exact a = .finite false c e) :
    number? cs = some (double (ofDecimal (.finite negative c e)), rest) := by
  have whole : (if negative then cs.drop 1 else cs) = m.whole ++ (pointed m.fraction ++ (behind ++ rest)) := by
    rw [text, Mantissa.chars, List.append_assoc]
  have stops : (pointed m.fraction ++ (behind ++ rest)).takeWhile Char.isDigit = [] := by
    cases m.fraction with
    | nil => exact (stops_of_ends ends delimited).1
    | cons d ds => exact List.takeWhile_cons_of_neg (by decide)
  have filled : m.whole.isEmpty = false := List.isEmpty_eq_false_iff.mpr proper.filled
  have number : ((pointed m.fraction).isEmpty && behind.isEmpty) = false := by
    unfold pointed
    rcases broken with fraction | exponent
    · rw [List.isEmpty_eq_false_iff.mpr fraction]
      rfl
    · rw [List.isEmpty_eq_false_iff.mpr exponent, Bool.and_false]
  have decimal := readMagnitude?_mantissa proper ends exponent negative
  rw [Mantissa.exact] at exact
  obtain ⟨-, coefficient, place⟩ := Decimal.finite.inj exact
  unfold number?
  dsimp only
  rw [sign, whole, wholeDigits_unpadded proper unpadded stops]
  dsimp only
  rw [digitsAfter_pointed proper.fraction ends delimited]
  dsimp only
  rw [after]
  dsimp only
  rw [filled, number, if_neg Bool.false_ne_true, if_neg Bool.false_ne_true, ← Mantissa.chars, decimal,
    coefficient, place]
  rfl

theorem number?_magnitude {c : Nat} {e : Int} (zero : c = 0 → e = 0) (delimited : Delimited rest)
    {negative : Bool} {cs : List Char} (sign : (cs.head? == some '-') = negative)
    (digits : (if negative then cs.drop 1 else cs) = magnitudeChars c e ++ rest) :
    number? cs = some (double (ofDecimal (.finite negative (shown c e).1 (shown c e).2)), rest) := by
  obtain ⟨m, proper, unpadded, ⟨fraction, text, exact⟩ | ⟨a, text, exact⟩⟩ := magnitudeChars_mantissa zero
  · have after : digitsAfter (fun c => c == 'e' || c == 'E') true ([] ++ rest) = ([], rest) :=
      digitsAfter_delimited true ⟨rfl, rfl, rfl⟩ delimited
    have chars : (if negative then cs.drop 1 else cs) = m.chars ++ ([] ++ rest) := by
      rw [digits, text, List.nil_append]
    exact number?_mantissa proper unpadded sign chars (.inl fraction) delimited (.inl rfl) after rfl exact
  · rw [text, List.append_assoc] at digits
    exact number?_mantissa proper unpadded sign digits (.inr (List.cons_ne_nil _ _)) delimited (.inr ⟨_, rfl⟩)
      (digitsAfter_exponentChars a delimited) (readExponent?_exponentChars a) exact

theorem shortest_zero {x : Float} {s : Bool} {m : Nat} {q : Int} (finite : parts x = .finite s m q)
    (none : (shortest m q).1 = 0) : (shortest m q).2 = 0 := by
  obtain ⟨⟨-, -, below⟩, -, -⟩ := normal_of_parts finite
  rcases Nat.eq_zero_or_pos m with rfl | positive
  · rfl
  · exact absurd none (Nat.ne_of_gt (coefficient_pos positive (near_shortest positive below)))

theorem number?_finite {x : Float} {s : Bool} {m : Nat} {q : Int} (finite : parts x = .finite s m q)
    (delimited : Delimited rest) : BeginsNumber (Binary64.chars x) ∧
      number? (Binary64.chars x ++ rest) = some (double x, rest) := by
  have same := ofDecimal_toDecimal finite
  obtain ⟨d, ds, head, digit⟩ := magnitudeChars_head (shortest_zero finite)
  rw [toDecimal_of_parts finite] at same
  rw [Binary64.chars, finite, ← same]
  dsimp only
  cases s with
  | true =>
    refine ⟨⟨d, ds, digit, .inr (congrArg ('-' :: ·) head)⟩, ?_⟩
    exact number?_magnitude (shortest_zero finite) delimited rfl rfl
  | false =>
    refine ⟨⟨d, ds, digit, .inl head⟩, ?_⟩
    refine number?_magnitude (shortest_zero finite) delimited ?_ rfl
    rw [if_neg Bool.false_ne_true, head]
    exact beq_eq_false_iff_ne.mpr fun sign => ne_of_digit digit (d := '-') rfl (Option.some.inj sign).symm

end Reckoner.Json
