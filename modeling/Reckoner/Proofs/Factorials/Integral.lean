import Reckoner.Proofs.Factorials.Loops
import Reckoner.Proofs.Modes.Operators

namespace Reckoner.UnaryOp

open Binary64 (IsNearest)
open Decimal (Context)

theorem factorial_eq (n : Nat) : Reckoner.factorial n = n.factorial := by
  induction n with
  | zero => rfl
  | succ n ih => rw [Reckoner.factorial, ih, Nat.factorial_succ]

def DoubleOfFactorial (n : Nat) (y : Float) : Prop :=
  if n ≤ 170 then Binary64.number? y = some (Binary64.grid.round n.factorial)
  else y = Binary64.infinity false

/-- A computation comes to the factorial of a natural number in some representation, exactly unless that is
    a double. -/
inductive Computes (n : Nat) : Tag → Except Error Value → Prop
  | integer : Computes n .integer (.ok (.integer n.factorial))
  | decimal {d : Decimal} (value : d.number? = some (n.factorial : ℚ)) :
      Computes n .decimal (.ok (.decimal d))
  | double {y : Float} (nearest : DoubleOfFactorial n y) : Computes n .double (.ok (.double y))

theorem doubleOfFactorial_infinity {n : Nat} (beyond : 170 < n) :
    DoubleOfFactorial n (Binary64.infinity false) := by
  rw [DoubleOfFactorial, if_neg (by omega)]

/-- The factorial of 170 has no more than 1023 bits. -/
theorem doubleOfFactorial_ofRatio {n : Nat} (inside : n ≤ 170) :
    DoubleOfFactorial n (Binary64.ofRatio false (Reckoner.factorial n) 1) := by
  have small : n.factorial < 2 ^ 1023 := (Nat.factorial_le inside).trans_lt (by decide +kernel)
  have nearest := Binary64.ofRatio_nearest false n.factorial Nat.one_pos
  obtain ⟨m, q, finite⟩ := Binary64.parts_ofRatio false le_rfl small
  rw [DoubleOfFactorial, if_pos inside, factorial_eq]
  rw [Nat.cast_one, div_one] at nearest
  unfold IsNearest at nearest
  split at nearest
  · rw [nearest, Binary64.parts_infinity] at finite
    cases finite
  · exact nearest

theorem doubleFactorial_whole {x : Float} {n : Int} (value : Binary64.number? x = some (n : ℚ)) :
    doubleFactorial x =
      if n < 0 then .error (.eval (.negativeFactorial (.double x)))
      else if 170 < n then .ok (.double (Binary64.infinity false))
      else .ok (.double (Binary64.ofRatio false (Reckoner.factorial n.toNat) 1)) := by
  obtain ⟨number, finite⟩ := Binary64.proper_of_number value
  have whole : Binary64.isIntegral x = true := (Binary64.isIntegral_iff value).mpr (Rat.den_intCast n)
  have truncated : Binary64.toInt? .down x = some n := by
    rw [Binary64.toInt?_down, value, Option.map_some, towardZero_intCast]
  rw [doubleFactorial, number, finite, whole, truncated]
  rfl

theorem doubleFactorial_natCast {n : Nat} {x : Float} (value : Binary64.number? x = some (n : ℚ)) :
    Computes n .double (doubleFactorial x) := by
  rw [doubleFactorial_whole (n := n) (by exact_mod_cast value), if_neg (by omega), Int.toNat_natCast]
  split
  · exact .double (doubleOfFactorial_infinity (by omega))
  · exact .double (doubleOfFactorial_ofRatio (by omega))

theorem doubleFactorial_nearest {n : Nat} {x : Float} (nearest : IsNearest false n x) :
    Computes n .double (doubleFactorial x) := by
  have cases := nearest.of_natCast
  split at cases
  · exact doubleFactorial_natCast cases
  rename_i large
  have infinite := Computes.double (doubleOfFactorial_infinity (n := n) (by omega))
  rcases cases with rfl | ⟨k, value, least⟩
  · exact infinite
  · have whole := doubleFactorial_whole (n := k) (by exact_mod_cast value)
    rwa [whole, if_neg (by omega), if_pos (by omega)]

theorem whole_decimal {d : Decimal} {n : Int} (value : d.number? = some (n : ℚ)) :
    d.isNan = false ∧ d.isIntegral = true ∧ d.toInt? .down = some n ∧ (d.isNegative = true ↔ n < 0) := by
  refine ⟨Decimal.isNan_of_number value, (Decimal.isIntegral_iff value).mpr (Rat.den_intCast n), ?_, ?_⟩
  · rw [Decimal.toInt?_down, value, Option.map_some, towardZero_intCast]
  · rw [Decimal.isNegative_iff value]
    exact_mod_cast Iff.rfl

theorem decimalFactorial_negative {d : Decimal} {n : Int} (value : d.number? = some (n : ℚ))
    (negative : n < 0) : decimalFactorial d = .error (.eval (.negativeFactorial (.decimal d))) := by
  obtain ⟨number, whole, -, sign⟩ := whole_decimal value
  rw [decimalFactorial, number, whole, sign.mpr negative]
  rfl

def wideTag (n : Nat) : Tag := if (n.factorial : ℚ) ≤ Context.engine.greatest then .decimal else .double

theorem decimalFactorial_natCast {d : Decimal} {n : Nat} (value : d.number? = some (n : ℚ)) :
    Computes n (wideTag n) (decimalFactorial d) := by
  obtain ⟨number, whole, truncated, sign⟩ := whole_decimal (n := n) (by exact_mod_cast value)
  have positive : d.isNegative = false := Bool.eq_false_iff.mpr fun negative => by
    have below := sign.mp negative
    omega
  have product := decimalProduct_factorial n
  rw [decimalFactorial, number, whole, positive, truncated]
  simp only [Bool.not_true, Bool.false_eq_true, if_false, Option.getD_some, Int.toNat_natCast]
  by_cases inside : n ≤ 27
  · rw [if_pos inside] at product
    obtain ⟨r, result, exact⟩ := product
    rw [wideTag, if_pos ((factorial_le_greatest n).mpr inside), result]
    exact .decimal exact
  · rw [if_neg inside] at product
    rw [wideTag, if_neg (mt (factorial_le_greatest n).mp inside), product]
    exact doubleFactorial_nearest (Binary64.ofDecimal_nearest value)

theorem wordFactorial_natCast (preferDecimal : Bool) {n : Nat} (fits : fitsWord n = true) :
    wordFactorial preferDecimal n =
      if fitsWord n.factorial then .ok (.integer n.factorial)
      else if preferDecimal then decimalFactorial (.ofInt n)
      else doubleFactorial (Binary64.ofRatio false n 1) := by
  have positive : ¬ (n : Int) < 0 := by omega
  rw [wordFactorial, if_neg positive, Int.toNat_natCast, wordProduct?_factorial, Option.filter_some,
    Value.toDecimal_word fits, Value.toDouble_word fits, decide_eq_false positive, Int.natAbs_natCast]
  by_cases kept : fitsWord n.factorial = true
  · rw [if_pos kept, if_pos kept]
  · rw [if_neg kept, if_neg kept]
    rfl

/-- The representation of a factorial. Words, too, end at the last factorial in their range; decimals follow
    if they are preferred. -/
def factorialTag (preferDecimal : Bool) (tag : Tag) (n : Nat) : Tag :=
  match tag with
  | .empty | .integer =>
    if n.factorial ≤ greatestWord then .integer else if preferDecimal then wideTag n else .double
  | .decimal => wideTag n
  | .double => .double

theorem wordFactorial_computes (preferDecimal : Bool) {n : Nat} (fits : fitsWord n = true) :
    Computes n (factorialTag preferDecimal .integer n) (wordFactorial preferDecimal n) := by
  have word : fitsWord n.factorial = true ↔ n.factorial ≤ greatestWord := by
    rw [fitsWord_iff, leastWord]
    omega
  rw [wordFactorial_natCast preferDecimal fits, factorialTag]
  by_cases kept : n.factorial ≤ greatestWord
  · rw [if_pos kept, if_pos (word.mpr kept)]
    exact .integer
  rw [if_neg kept, if_neg (mt word.mp kept)]
  cases preferDecimal with
  | true => exact decimalFactorial_natCast (Decimal.number?_whole false n)
  | false =>
    have nearest := Binary64.ofRatio_nearest false n Nat.one_pos
    rw [Nat.cast_one, div_one] at nearest
    exact doubleFactorial_nearest nearest

theorem applyFactorial_whole (preferDecimal : Bool) {v : Value} {n : Int} (bounded : v.Bounded)
    (value : v.number? = some (n : ℚ)) :
    if n < 0 then applyFactorial preferDecimal v = .error (.eval (.negativeFactorial v))
    else Computes n.toNat (factorialTag preferDecimal v.tag n.toNat) (applyFactorial preferDecimal v) := by
  split
  · rename_i negative
    cases v with
    | empty =>
      obtain rfl : 0 = n := by exact_mod_cast Option.some.inj value
      cases negative
    | integer m =>
      obtain rfl : m = n := by exact_mod_cast Option.some.inj value
      exact if_pos negative
    | decimal d => exact decimalFactorial_negative value negative
    | double x => exact (doubleFactorial_whole value).trans (if_pos negative)
  · rename_i positive
    obtain ⟨k, rfl⟩ := Int.eq_ofNat_of_zero_le (Int.not_lt.mp positive)
    rw [Int.toNat_natCast]
    cases v with
    | empty =>
      obtain rfl : 0 = k := by exact_mod_cast Option.some.inj value
      exact .integer
    | integer m =>
      obtain rfl : m = k := by exact_mod_cast Option.some.inj value
      exact wordFactorial_computes preferDecimal (bounded _ rfl)
    | decimal d => exact decimalFactorial_natCast (by exact_mod_cast value)
    | double x => exact doubleFactorial_natCast (by exact_mod_cast value)

/-- Factorials of whole numbers in both modes. They are exact except in doubles, and however large the
    number is the loops on words and on decimals leave early. -/
theorem factorial_exact (preferDecimal : Bool) {v : Value} {n : Int} (bounded : v.Bounded)
    (value : v.number? = some (n : ℚ)) :
    (if n < 0 then factorial.apply preferDecimal v = .error (.eval (.negativeFactorial v))
      else Computes n.toNat (factorialTag preferDecimal v.tag n.toNat) (factorial.apply preferDecimal v)) ∧
    (wordProduct? n.toNat 2 1 = (countedProduct multiplyWord n.toNat 2 1).1.toOption ∧
      (countedProduct multiplyWord n.toNat 2 1).2 ≤ 20) ∧
    decimalProduct n.toNat 2 (.ofNat 1) = (countedProduct multiplyDecimal n.toNat 2 (.ofNat 1)).1 ∧
      (countedProduct multiplyDecimal n.toNat 2 (.ofNat 1)).2 ≤ 27 :=
  ⟨applyFactorial_whole preferDecimal bounded value,
    ⟨wordProduct?_eq _ _ _, exact_words.count_le _ (by decide) rfl⟩,
    decimalProduct_eq _ _ _, exact_decimals.count_le _ (by decide) (Decimal.number?_whole false 1)⟩

theorem factorial_last_decimal :
    (Value.integer 27).Bounded ∧ (Value.integer 27).number? = some ((27 : Int) : ℚ) ∧
      Computes 27 .decimal (factorial.apply true (.integer 27)) := by
  have bounded : (Value.integer 27).Bounded := by
    rintro n same
    cases same
    decide
  have tag : factorialTag true .integer 27 = .decimal := by
    rw [factorialTag, if_neg (by decide), if_pos rfl, wideTag, if_pos ((factorial_le_greatest 27).mpr le_rfl)]
  exact ⟨bounded, rfl, tag ▸ (factorial_exact true bounded rfl).1⟩

end Reckoner.UnaryOp
