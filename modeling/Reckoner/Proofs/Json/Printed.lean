import Reckoner.Proofs.Json.Sorted
import Reckoner.Text.Lines

namespace Reckoner

def Printed (c : Char) : Prop := 32 ≤ c.toNat ∧ c.toNat ≤ 126

instance (c : Char) : Decidable (Printed c) := inferInstanceAs (Decidable (_ ∧ _))

theorem Printed.not_line_end {c : Char} (printed : Printed c) : Text.isLineEnd c = false := by
  obtain ⟨low, high⟩ := printed
  simp only [Text.isLineEnd, Bool.or_eq_false_iff, Bool.and_eq_false_iff, decide_eq_false_iff_not,
    beq_eq_false_iff_ne]
  omega

theorem printed_of_all {cs : List Char} (all : cs.all (fun c => decide (Printed c)) = true) :
    ∀ c ∈ cs, Printed c :=
  fun c member => of_decide_eq_true (List.all_eq_true.mp all c member)

theorem printed_of_digit {c : Char} (digit : c.isDigit = true) : Printed c := by
  simp only [Char.isDigit, Bool.and_eq_true, decide_eq_true_eq, ge_iff_le, UInt32.le_iff_toNat_le] at digit
  have low : 48 ≤ c.toNat := digit.1
  have high : c.toNat ≤ 57 := digit.2
  unfold Printed
  omega

namespace Json

open Text

theorem intChars_printed (n : Int) : ∀ c ∈ intChars n, Printed c := by
  have digits : ∀ c ∈ numeral 10 n.natAbs, Printed c :=
    fun c member => printed_of_digit (isDigit_of_mem_numeral member)
  unfold intChars
  split
  · exact List.forall_mem_cons.mpr ⟨by decide, digits⟩
  · exact digits

theorem unitChars_printed {n : Nat} (bound : n < 0x10000) : ∀ c ∈ unitChars n, Printed c := by
  have digit : ∀ d < 16, Printed (Nat.digitChar d) := by decide
  rw [unitChars, hexDigits_four bound]
  simp only [List.forall_mem_cons]
  exact ⟨by decide, by decide, digit _ (by omega), digit _ (by omega), digit _ (by omega),
    digit _ (by omega), List.forall_mem_nil _⟩

theorem charText_printed (c : Char) : ∀ d ∈ charText c, Printed d := by
  unfold charText
  split
  · rename_i escaped
    rcases Bool.or_eq_true_iff.mp escaped with quote | mark
    · cases eq_of_beq quote
      exact printed_of_all rfl
    · cases eq_of_beq mark
      exact printed_of_all rfl
  iterate 5
    split
    · exact printed_of_all rfl
  split
  · rename_i printed
    simp only [Bool.and_eq_true, decide_eq_true_eq] at printed
    exact List.forall_mem_singleton.mpr printed
  split
  · rename_i bound
    exact unitChars_printed bound
  · have valid : c.toNat < 0xD800 ∨ 0xDFFF < c.toNat ∧ c.toNat < 0x110000 := c.valid
    exact List.forall_mem_append.mpr
      ⟨unitChars_printed (by omega), unitChars_printed (by omega)⟩

theorem stringChars_printed (s : String) : ∀ c ∈ stringChars s, Printed c := by
  intro c member
  simp only [stringChars, List.mem_append, List.mem_cons, List.mem_flatMap, List.not_mem_nil,
    or_false] at member
  rcases member with (rfl | ⟨d, -, inside⟩) | rfl
  · decide
  · exact charText_printed d c inside
  · decide

theorem withPoint_printed {digits : List Char} (printed : ∀ c ∈ digits, Printed c) (place : Int) :
    ∀ c ∈ withPoint digits place, Printed c := by
  have zeros (n : Nat) : ∀ c ∈ List.replicate n '0', Printed c :=
    fun c member => List.eq_of_mem_replicate member ▸ by decide
  have point : Printed '.' := by decide
  unfold withPoint
  split
  · rw [List.cons_append, List.cons_append]
    exact List.forall_mem_cons.mpr ⟨by decide, List.forall_mem_cons.mpr ⟨point,
      List.forall_mem_append.mpr ⟨zeros _, printed⟩⟩⟩
  split
  · exact List.forall_mem_append.mpr ⟨printed, zeros _⟩
  · exact List.forall_mem_append.mpr ⟨fun c member => printed c (List.mem_of_mem_take member),
      List.forall_mem_cons.mpr ⟨point, fun c member => printed c (List.mem_of_mem_drop member)⟩⟩

theorem exponentChars_printed (e : Int) : ∀ c ∈ Binary64.exponentChars e, Printed c := by
  have digits : ∀ c ∈ numeral 10 e.natAbs, Printed c :=
    fun c member => printed_of_digit (isDigit_of_mem_numeral member)
  refine List.forall_mem_cons.mpr ⟨by decide, List.forall_mem_cons.mpr ⟨?_, ?_⟩⟩
  · split <;> decide
  · split
    · exact List.forall_mem_cons.mpr ⟨by decide, digits⟩
    · exact digits

theorem magnitudeChars_printed (c : Nat) (e : Int) : ∀ d ∈ Binary64.magnitudeChars c e, Printed d := by
  have digits : ∀ d ∈ numeral 10 c, Printed d :=
    fun d member => printed_of_digit (isDigit_of_mem_numeral member)
  unfold Binary64.magnitudeChars
  dsimp only
  split
  · refine List.forall_mem_append.mpr ⟨withPoint_printed digits _, ?_⟩
    split
    · exact printed_of_all rfl
    · exact List.forall_mem_nil _
  · exact List.forall_mem_append.mpr ⟨withPoint_printed digits _, exponentChars_printed _⟩

theorem doubleChars_printed (x : Float) : ∀ c ∈ doubleChars x, Printed c := by
  unfold doubleChars Binary64.chars
  rcases Binary64.parts x with _ | s | ⟨s, m, q⟩
  · exact printed_of_all rfl
  · cases s <;> exact printed_of_all rfl
  · have magnitude := magnitudeChars_printed (Binary64.shortest m q).1 (Binary64.shortest m q).2
    cases s with
    | false => exact magnitude
    | true => exact List.forall_mem_cons.mpr ⟨by decide, magnitude⟩

mutual

theorem chars_printed (j : Json) : ∀ c ∈ j.chars, Printed c := by
  cases j with
  | null => exact printed_of_all rfl
  | bool b => cases b <;> exact printed_of_all rfl
  | double x => exact doubleChars_printed x
  | integer n => exact intChars_printed n
  | text s => exact stringChars_printed s
  | list js =>
    intro c member
    simp only [chars, List.mem_append, List.mem_cons, List.not_mem_nil, or_false] at member
    rcases member with (rfl | member) | rfl
    · decide
    · exact itemChars_printed js c member
    · decide
  | object es =>
    intro c member
    simp only [chars, List.mem_append, List.mem_cons, List.not_mem_nil, or_false] at member
    rcases member with (rfl | member) | rfl
    · decide
    · exact entryChars_printed es c member
    · decide

theorem itemChars_printed (js : List Json) : ∀ c ∈ itemChars js, Printed c := by
  match js with
  | [] => exact List.forall_mem_nil _
  | [j] => exact chars_printed j
  | j :: j' :: js =>
    rw [itemChars]
    · exact List.forall_mem_append.mpr ⟨chars_printed j, List.forall_mem_cons.mpr ⟨by decide,
        List.forall_mem_cons.mpr ⟨by decide, itemChars_printed (j' :: js)⟩⟩⟩
    · nofun

theorem entryChars_printed (es : List (String × Json)) : ∀ c ∈ entryChars es, Printed c := by
  match es with
  | [] => exact List.forall_mem_nil _
  | [(key, j)] =>
    exact List.forall_mem_append.mpr ⟨stringChars_printed key, List.forall_mem_cons.mpr ⟨by decide,
      List.forall_mem_cons.mpr ⟨by decide, chars_printed j⟩⟩⟩
  | (key, j) :: e :: es =>
    have behind := List.forall_mem_cons.mpr ⟨(by decide : Printed ','),
      List.forall_mem_cons.mpr ⟨(by decide : Printed ' '), entryChars_printed (e :: es)⟩⟩
    have inside := List.forall_mem_append.mpr ⟨chars_printed j, behind⟩
    rw [entryChars]
    · simp only [List.append_assoc, List.cons_append]
      exact List.forall_mem_append.mpr ⟨stringChars_printed key, List.forall_mem_cons.mpr ⟨by decide,
        List.forall_mem_cons.mpr ⟨by decide, inside⟩⟩⟩
    · nofun

end

end Json

end Reckoner
