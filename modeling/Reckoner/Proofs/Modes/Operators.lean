import Reckoner.Proofs.Binary64.Words
import Reckoner.Proofs.Evaluation.Agreement
import Reckoner.Proofs.Values.Operators

namespace Reckoner

/-- Nothing, or a whole number of 64 bits. -/
def Value.Whole : Value → Prop
  | empty => True
  | integer n => fitsWord n = true
  | _ => False

def LeavesWhole (x : Except Error Value) : Prop := ∃ v, x = .ok v ∧ ¬ v.Whole

theorem leavesWhole_decimal (d : Decimal) : LeavesWhole (.ok (.decimal d)) := ⟨_, rfl, nofun⟩

theorem leavesWhole_double (x : Float) : LeavesWhole (.ok (.double x)) := ⟨_, rfl, nofun⟩

def Coincide : Except Error Value → Except Error Value → Prop :=
  Agree fun v w => v.Whole ∨ w.Whole → v = w

namespace Coincide

theorem refl (x : Except Error Value) : Coincide x x := Agree.of_eq fun _ _ => rfl

theorem of_eq {x y : Except Error Value} (same : x = y) : Coincide x y := same ▸ refl x

theorem symm {x y : Except Error Value} (coincide : Coincide x y) : Coincide y x := by
  cases x <;> cases y
  · exact Eq.symm coincide
  · cases coincide
  · cases coincide
  · exact fun whole => (coincide whole.symm).symm

theorem of_leavesWhole {x y : Except Error Value} (first : LeavesWhole x) (second : LeavesWhole y) :
    Coincide x y := by
  obtain ⟨v, rfl, left⟩ := first
  obtain ⟨w, rfl, right⟩ := second
  exact fun whole => absurd whole (not_or.mpr ⟨left, right⟩)

theorem modes (f : Bool → Except Error Value) (coincide : Coincide (f false) (f true)) (b : Bool) :
    Coincide (f b) (f !b) := by
  cases b with
  | false => exact coincide
  | true => exact coincide.symm

end Coincide

theorem natAbs_le_of_fitsWord {n : Int} (fits : fitsWord n = true) : n.natAbs ≤ 2 ^ 63 := by
  rw [fitsWord_iff] at fits
  unfold leastWord greatestWord at fits
  omega

theorem natAbs_lt_of_fitsWord {n : Int} (fits : fitsWord n = true) : n.natAbs < 2 ^ 200 :=
  Nat.lt_of_le_of_lt (natAbs_le_of_fitsWord fits) (Nat.pow_lt_pow_right (by decide) (by decide))

namespace Decimal

theorem ofInt_fits {n : Int} (fits : fitsWord n = true) : (ofInt n).Fits .engine := by
  have small := natAbs_le_of_fitsWord fits
  have digits : digitCount n.natAbs ≤ 19 := digitCount_le_of_lt (by decide) (by
    have bound : 2 ^ 63 < tenTo 19 := by decide
    omega)
  refine ⟨?_, ?_, ?_⟩
  · show _ ≤ 28
    omega
  · decide
  · show adjusted n.natAbs 0 ≤ 28
    unfold adjusted
    omega

end Decimal

namespace Value

theorem toDecimal_word {n : Int} (fits : fitsWord n = true) :
    (integer n).toDecimal = .ok (.ofInt n) := by
  rw [toDecimal, Decimal.round_of_fits (Decimal.ofInt_fits fits)]
  rfl

theorem toDecimal_of_above {n : Int} (positive : 0 < n.natAbs) (above : 29 < digitCount n.natAbs) :
    (integer n).toDecimal = .error (.decimal .overflow) := by
  have beyond : Decimal.Context.engine.maxExponent < Decimal.adjusted n.natAbs 0 := by
    show (28 : Int) < (digitCount n.natAbs : Int) + 0 - 1
    omega
  rw [toDecimal, Decimal.ofInt, Decimal.round_of_above positive beyond]
  rfl

theorem toDouble_small {n : Int} (small : n.natAbs < 2 ^ 200) :
    (integer n).toDouble = .ok (Binary64.ofRatio (n < 0) n.natAbs 1) := by
  rw [toDouble, Binary64.ofInt?_of_small (by decide) small]

theorem toDouble_word {n : Int} (fits : fitsWord n = true) :
    (integer n).toDouble = .ok (Binary64.ofRatio (n < 0) n.natAbs 1) :=
  toDouble_small (natAbs_lt_of_fitsWord fits)

end Value

namespace HostValue

theorem fractional_coincides {exact : Except Decimal.Signal Decimal} {nearest : Except Error Float}
    {good : Decimal → Prop} (overflows : Ends good (fun signal => signal = .overflow) exact)
    (possible : ∀ d, exact = .ok d → ∃ x, nearest = .ok x) :
    Coincide (fractional false exact nearest) (fractional true exact nearest) := by
  cases exact with
  | ok d =>
    obtain ⟨x, rfl⟩ := possible d rfl
    exact .of_leavesWhole (leavesWhole_double x) (leavesWhole_decimal d)
  | error signal =>
    obtain rfl : signal = .overflow := overflows
    exact .of_eq rfl

theorem toDouble_of_rounded {n : Int} {d : Decimal}
    (rounded : Decimal.Context.engine.round (.ofInt n) = .ok d) :
    ∃ x, (Value.integer n).toDouble = .ok x := by
  have small : n.natAbs < 2 ^ 200 := by
    rcases Nat.eq_zero_or_pos n.natAbs with none | positive
    · rw [none]
      exact Nat.two_pow_pos 200
    · have top : (digitCount n.natAbs : Int) + 0 - 1 ≤ 28 := Decimal.adjusted_le_of_round positive rounded
      calc n.natAbs < tenTo (digitCount n.natAbs) := lt_tenTo_digitCount _
        _ ≤ tenTo 29 := tenTo_le_iff.mpr (by omega)
        _ < 2 ^ 200 := by decide
  exact ⟨_, Value.toDouble_small small⟩

/-- A value that both modes convert. What is not a number has no double where it is signaling, and no
    decimal of the context where its payload is too long. -/
def Convertible : HostValue → Prop
  | decimal d | tagged (.decimal d) => d.isNan = true → d.isSignaling = false ∧ d.Fits .engine
  | _ => True

theorem ofFraction_coincides {d : Decimal} (convertible : (decimal d).Convertible) :
    Coincide (ofFraction false d) (ofFraction true d) := by
  cases number : d.isNan with
  | false =>
    exact fractional_coincides (Decimal.round_overflows .engine number) fun _ _ =>
      ⟨_, doubleOfDecimal_quiet (Decimal.isSignaling_of_number number)⟩
  | true =>
    obtain ⟨quiet, fits⟩ := convertible number
    unfold ofFraction
    rw [doubleOfDecimal_quiet quiet, Decimal.round_of_fits fits]
    exact .of_leavesWhole (leavesWhole_double _) (leavesWhole_decimal _)

theorem toValue_coincides {v : HostValue} (convertible : v.Convertible) :
    Coincide (v.toValue false) (v.toValue true) := by
  have double (x : Float) : Coincide (ofDouble false x) (ofDouble true x) :=
    fractional_coincides (decimalOfDouble_overflows x) fun _ _ => ⟨_, rfl⟩
  cases v with
  | none | bool | text | list | mapping | function => exact .refl _
  | integer n =>
    show Coincide (ofWhole false n) (ofWhole true n)
    unfold ofWhole
    split
    · exact .refl _
    · exact fractional_coincides (Decimal.round_overflows .engine rfl) fun _ => toDouble_of_rounded
  | decimal d => exact ofFraction_coincides convertible
  | double x => exact double x
  | tagged v =>
    cases v with
    | empty | integer => exact .refl _
    | decimal d => exact ofFraction_coincides convertible
    | double x => exact double x

end HostValue

theorem Value.promote_whole {v w : Value} (left : v.Whole) (right : w.Whole) :
    ∃ a b, v.promote w = .ok (.words a b) ∧ fitsWord a = true ∧ fitsWord b = true := by
  cases v with
  | empty =>
    cases w with
    | empty => exact ⟨0, 0, rfl, rfl, rfl⟩
    | integer b => exact ⟨0, b, rfl, rfl, right⟩
    | decimal | double => cases right
  | integer a =>
    cases w with
    | empty => exact ⟨a, 0, rfl, left, rfl⟩
    | integer b => exact ⟨a, b, rfl, left, right⟩
    | decimal | double => cases right
  | decimal | double => cases left

namespace BinaryOp

theorem applyWide_decimals (op : BinaryOp) {a b : Int} (left : fitsWord a = true)
    (right : fitsWord b = true) :
    op.applyWide true (.integer a) (.integer b) = op.applyDecimals (.ofInt a) (.ofInt b) := by
  rw [applyWide, Value.toDecimal_word left, Value.toDecimal_word right]
  rfl

theorem applyWide_leavesWhole {op : BinaryOp} {a b : Int} (left : fitsWord a = true)
    (right : fitsWord b = true) (divisor : op = divide → b ≠ 0) (preferDecimal : Bool) :
    LeavesWhole (op.applyWide preferDecimal (.integer a) (.integer b)) := by
  cases preferDecimal with
  | false =>
    rw [applyWide, Value.toDouble_word left, Value.toDouble_word right]
    exact leavesWhole_double _
  | true =>
    rw [applyWide_decimals op left right]
    have noZero : ¬ (op = divide ∧ (Decimal.ofInt b).isZero = true) := by
      rintro ⟨division, zero⟩
      exact divisor division (Int.natAbs_eq_zero.mp (beq_iff_eq.mp zero))
    rcases applyDecimals_succeeds (a := .ofInt a) (b := .ofInt b) rfl rfl noZero with
      ⟨d, result, -⟩ | ⟨x, result⟩
    · exact result ▸ leavesWhole_decimal d
    · exact result ▸ leavesWhole_double x

theorem apply_coincides (op : BinaryOp) {v w : Value} (left : v.Whole) (right : w.Whole) :
    Coincide (op.apply false v w) (op.apply true v w) := by
  obtain ⟨a, b, words, left, right⟩ := Value.promote_whole left right
  have applied (preferDecimal : Bool) :
      op.apply preferDecimal v w = op.applyWords preferDecimal a b := by
    rw [apply, words]
    rfl
  rw [applied, applied]
  unfold applyWords
  cases result : op.onWords a b with
  | error fault => exact .refl _
  | ok r =>
    cases r with
    | some n => exact .refl _
    | none =>
      have divisor : op = divide → b ≠ 0 := by
        rintro rfl rfl
        cases result
      exact .of_leavesWhole (applyWide_leavesWhole left right divisor false)
        (applyWide_leavesWhole left right divisor true)

end BinaryOp

theorem Binary64.ofDecimal_ofInt {n : Int} (fits : fitsWord n = true) :
    ofDecimal (.ofInt n) = ofRatio (n < 0) n.natAbs 1 := by
  obtain ⟨-, low, high⟩ := Decimal.ofInt_fits fits
  have inside : Decimal.adjusted n.natAbs 0 ≤ 28 := high
  have digits := digitCount_pos n.natAbs
  have place : Decimal.adjusted n.natAbs 0 = (digitCount n.natAbs : Int) + 0 - 1 := rfl
  have above : ¬ Decimal.adjusted n.natAbs 0 < -400 := by omega
  have below : ¬ 400 < Decimal.adjusted n.natAbs 0 := by omega
  show ofScaled (n < 0) n.natAbs 0 = _
  rw [ofScaled, if_neg below, decide_eq_false above, Bool.or_false]
  split
  · rename_i zero
    rw [of_decide_eq_true zero]
  · exact congrArg (ofRatio _ · 1) (Nat.mul_one _)

namespace UnaryOp

theorem negateWord_coincides {n : Int} (fits : fitsWord n = true) :
    Coincide (negateWord false n) (negateWord true n) := by
  unfold negateWord
  split
  · exact .refl _
  · rw [Value.toDecimal_word fits, Value.toDouble_word fits]
    refine .of_leavesWhole (leavesWhole_double _) ?_
    show LeavesWhole (negateDecimal (.ofInt n))
    have negated := Decimal.negate_of_fits (Decimal.ofInt_fits fits)
    rw [← Decimal.ofInt] at negated
    rw [negateDecimal, negated]
    exact leavesWhole_decimal _

theorem doubleFactorial_leavesWhole {x : Float} {m : Nat} {q : Int}
    (finite : Binary64.parts x = .finite false m q) : LeavesWhole (doubleFactorial x) := by
  have number : ¬ (Binary64.isNan x || (Binary64.isInfinite x && !Binary64.hasSign x)) = true := by
    rw [Binary64.isNan, Binary64.isInfinite, finite]
    exact Bool.false_ne_true
  have positive : ¬ (Binary64.toInt? .down x).getD 0 < 0 := by
    rw [Binary64.toInt?, finite]
    exact Int.not_lt.mpr (Int.natCast_nonneg _)
  rw [doubleFactorial, if_neg number]
  split
  · exact leavesWhole_double _
  dsimp only
  rw [if_neg positive]
  split
  · exact leavesWhole_double _
  · exact leavesWhole_double _

theorem decimalProduct_overflows {n i : Nat} {product : Decimal} (finite : product.isFinite = true) :
    Ends (fun _ => True) (fun signal => signal = .overflow) (decimalProduct n i product) := by
  fun_induction decimalProduct n i product with
  | case1 i product more next multiplied ih =>
    exact ih ((Decimal.multiply_overflows .engine finite rfl).of_ok multiplied)
  | case2 i product more signal refused =>
    exact (Decimal.multiply_overflows .engine finite rfl).of_error refused
  | case3 => trivial

theorem decimalFactorial_leavesWhole {n : Int} (fits : fitsWord n = true) (positive : ¬ n < 0) :
    LeavesWhole (decimalFactorial (.ofInt n)) := by
  have sign : (Decimal.ofInt n).isNegative = false := by
    show (decide (n < 0) && n.natAbs != 0) = false
    rw [decide_eq_false positive, Bool.false_and]
  have integral : (Decimal.ofInt n).isIntegral = true := rfl
  have number : (Decimal.ofInt n).isNan = false := rfl
  simp only [decimalFactorial, number, integral, sign, Bool.not_true, Bool.false_eq_true, if_false]
  split
  · exact leavesWhole_decimal _
  · obtain ⟨m, q, finite⟩ :=
      Binary64.parts_ofRatio (decide (n < 0)) (by decide) (natAbs_lt_of_fitsWord fits)
    rw [decide_eq_false positive] at finite
    rw [Binary64.ofDecimal_ofInt fits, decide_eq_false positive]
    exact doubleFactorial_leavesWhole finite
  · rename_i signal other refused
    exact absurd ((decimalProduct_overflows rfl).of_error refused) other

theorem wordFactorial_coincides {n : Int} (fits : fitsWord n = true) :
    Coincide (wordFactorial false n) (wordFactorial true n) := by
  unfold wordFactorial
  split
  · exact .refl _
  rename_i positive
  split
  · exact .refl _
  · rw [Value.toDecimal_word fits, Value.toDouble_word fits]
    obtain ⟨m, q, finite⟩ :=
      Binary64.parts_ofRatio (decide (n < 0)) (by decide) (natAbs_lt_of_fitsWord fits)
    rw [decide_eq_false positive] at finite ⊢
    exact .of_leavesWhole (doubleFactorial_leavesWhole finite)
      (decimalFactorial_leavesWhole fits positive)

theorem apply_coincides (op : UnaryOp) {v : Value} (whole : v.Whole) :
    Coincide (op.apply false v) (op.apply true v) := by
  cases v with
  | empty => exact .refl _
  | integer n =>
    cases op with
    | negate => exact negateWord_coincides whole
    | complement => exact .refl _
    | factorial => exact wordFactorial_coincides whole
  | decimal | double => cases whole

end UnaryOp

end Reckoner
