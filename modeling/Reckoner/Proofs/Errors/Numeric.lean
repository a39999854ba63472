import Reckoner.Proofs.Evaluation.Tree
import Reckoner.Proofs.Values.Operators

namespace Reckoner

def Error.Numeric (loud : Prop) : Error → Prop
  | .eval _ | .conversion _ | .divisionByZero _ | .decimal _ | .range _ => True
  | .badValue .signalingToDouble => loud
  | _ => False

variable {α : Type} {preferDecimal : Bool} {loud : Prop}

abbrev Numeric (loud : Prop) (x : Except Error α) : Prop := Ends (fun _ => True) (Error.Numeric loud) x

abbrev Quietly (loud : Prop) (x : Except Error Value) : Prop :=
  Ends (Value.Heeds loud) (Error.Numeric loud) x

theorem doubleOfDecimal_numeric {d : Decimal} (heeds : d.Heeds loud) :
    Numeric loud (doubleOfDecimal d) :=
  .ite (fun signaling => heeds signaling) fun _ => trivial

namespace Value

theorem checkedWord_numeric (v : Value) (n : Option Int) : Numeric loud (checkedWord v n) := by
  cases n with
  | none => trivial
  | some n => exact .ite (fun _ => trivial) fun _ => trivial

theorem toWord_numeric (v : Value) : Numeric loud v.toWord := by
  cases v with
  | empty | integer => trivial
  | decimal | double => exact checkedWord_numeric _ _

theorem toDecimal_numeric {v : Value} (heeds : v.Heeds loud) :
    Ends (Decimal.Heeds loud) (Error.Numeric loud) v.toDecimal := by
  cases v with
  | empty => exact Decimal.heeds_of_quiet rfl
  | decimal => exact heeds
  | integer n =>
    exact (Ends.mapError (Decimal.round_silent rfl) fun _ _ => trivial).mono
      fun _ => Decimal.heeds_of_quiet
  | double x =>
    exact (Ends.mapError (decimalOfDouble_silent x) fun signal _ => by cases signal <;> trivial).mono
      fun _ => Decimal.heeds_of_quiet

theorem toDouble_numeric {v : Value} (heeds : v.Heeds loud) : Numeric loud v.toDouble := by
  cases v with
  | empty | double => trivial
  | decimal d => exact doubleOfDecimal_numeric heeds
  | integer n =>
    unfold toDouble
    dsimp only
    split <;> trivial

end Value

def Operands.Heeds (loud : Prop) : Operands → Prop
  | decimals a b => a.Heeds loud ∧ b.Heeds loud
  | _ => True

theorem Value.promote_numeric {a b : Value} (left : a.Heeds loud) (right : b.Heeds loud) :
    Ends (Operands.Heeds loud) (Error.Numeric loud) (a.promote b) := by
  unfold promote
  split
  · exact (toWord_numeric a).bind fun _ _ => (toWord_numeric b).bind fun _ _ => trivial
  · exact (toWord_numeric a).bind fun _ _ => (toWord_numeric b).bind fun _ _ => trivial
  · exact (toDecimal_numeric left).bind fun _ first =>
      (toDecimal_numeric right).bind fun _ second => ⟨first, second⟩
  · exact (toDouble_numeric left).bind fun _ _ => (toDouble_numeric right).bind fun _ _ => trivial

namespace HostValue

theorem fractional_quietly {rounded : Except Decimal.Signal Decimal} {nearest : Except Error Float}
    (heeds : Ends (Decimal.Heeds loud) (fun _ => True) rounded) (numeric : Numeric loud nearest) :
    Quietly loud (fractional preferDecimal rounded nearest) := by
  refine .ite (fun _ => ?_) fun _ => numeric.map fun _ _ => trivial
  cases rounded with
  | ok d => exact heeds
  | error signal =>
    cases signal with
    | overflow => exact numeric.map fun _ _ => trivial
    | invalid => trivial

theorem toValue_quietly {v : HostValue} (heeds : v.Heeds loud) :
    Quietly loud (v.toValue preferDecimal) := by
  have whole (n : Int) : Quietly loud (ofWhole preferDecimal n) :=
    .ite (fun _ => trivial) fun _ =>
      fractional_quietly ((Decimal.round_silent rfl).mono fun _ => Decimal.heeds_of_quiet)
        (Value.toDouble_numeric trivial)
  have fraction (d : Decimal) (heeds : d.Heeds loud) : Quietly loud (ofFraction preferDecimal d) := by
    refine fractional_quietly ?_ (doubleOfDecimal_numeric heeds)
    cases signaling : d.isSignaling with
    | true =>
      have loud := heeds signaling
      exact (Ends.always _).mono fun _ _ _ => loud
    | false => exact (Decimal.round_silent signaling).mono fun _ => Decimal.heeds_of_quiet
  have double (x : Float) : Quietly loud (ofDouble preferDecimal x) :=
    fractional_quietly ((decimalOfDouble_silent x).mono fun _ => Decimal.heeds_of_quiet) trivial
  cases v with
  | none | bool | text | list | mapping | function => trivial
  | integer n => exact whole n
  | decimal d => exact fraction d heeds
  | double x => exact double x
  | tagged v =>
    cases v with
    | empty | integer => trivial
    | decimal d => exact fraction d heeds
    | double x => exact double x

end HostValue

theorem WordOp.apply_quietly (op : WordOp) (left right : Value) : Quietly loud (op.apply left right) := by
  have computed (a b : Int) : Numeric loud (op.onWords a b) := by
    cases op with
    | modulo | divide => exact .ite (fun _ => trivial) fun _ => trivial
    | shiftLeft | shiftRight | bitAnd | bitOr | bitXor => trivial
  exact left.toWord_numeric.bind fun a _ => right.toWord_numeric.bind fun b _ =>
    (computed a b).bind fun _ _ => trivial

namespace BinaryOp

theorem applyDecimals_quietly (op : BinaryOp) {a b : Decimal} (left : a.Heeds loud)
    (right : b.Heeds loud) : Quietly loud (op.applyDecimals a b) := by
  refine .ite (fun _ => trivial) fun _ => ?_
  have signals := onDecimals_signals op a b
  split
  · rename_i d done
    exact Decimal.heeds_of_quiet (signals.of_ok done)
  · exact Decimal.heeds_of_quiet rfl
  · exact (doubleOfDecimal_numeric left).bind fun _ _ =>
      (doubleOfDecimal_numeric right).bind fun _ _ => trivial
  · rename_i e invalid overflow failed
    rcases signals.of_error failed with ⟨signal, rfl⟩ | ⟨rfl, signaling⟩
    · trivial
    · exact signaling.elim left right

theorem applyWide_quietly (op : BinaryOp) {a b : Value} (left : a.Heeds loud) (right : b.Heeds loud) :
    Quietly loud (op.applyWide preferDecimal a b) := by
  refine .ite (fun _ => ?_) fun _ => ?_
  · exact (Value.toDecimal_numeric left).bind fun _ first =>
      (Value.toDecimal_numeric right).bind fun _ second => applyDecimals_quietly op first second
  · exact (Value.toDouble_numeric left).bind fun _ _ =>
      (Value.toDouble_numeric right).bind fun _ _ => trivial

theorem onWords_numeric (op : BinaryOp) (a b : Int) : Numeric loud (op.onWords a b) := by
  cases op with
  | add | subtract | multiply | root | power => trivial
  | divide => exact .ite (fun _ => trivial) fun _ => .ite (fun _ => trivial) fun _ => trivial

theorem apply_quietly (op : BinaryOp) {left right : Value} (first : left.Heeds loud)
    (second : right.Heeds loud) : Quietly loud (op.apply preferDecimal left right) := by
  apply (Value.promote_numeric first second).bind
  intro operands quiet
  cases operands with
  | words a b =>
    apply (onWords_numeric op a b).bind
    intro result _
    cases result with
    | some n => trivial
    | none => exact op.applyWide_quietly trivial trivial
  | decimals a b => exact op.applyDecimals_quietly quiet.1 quiet.2
  | doubles a b => trivial

end BinaryOp

theorem Operation.apply_quietly (op : Operation) {left right : Value} (first : left.Heeds loud)
    (second : right.Heeds loud) : Quietly loud (op.apply preferDecimal left right) := by
  cases op with
  | number op => exact op.apply_quietly first second
  | word op => exact op.apply_quietly left right

namespace UnaryOp

theorem doubleFactorial_quietly (x : Float) : Quietly loud (doubleFactorial x) :=
  .ite (fun _ => trivial) fun _ => .ite (fun _ => trivial) fun _ =>
    .ite (fun _ => trivial) fun _ => .ite (fun _ => trivial) fun _ => trivial

theorem decimalProduct_silent {n i : Nat} {product : Decimal} (quiet : product.isSignaling = false) :
    Decimal.Silent (decimalProduct n i product) := by
  fun_induction decimalProduct n i product with
  | case1 i product more next multiplied ih =>
    exact ih ((Decimal.multiply_silent _ _).of_ok multiplied)
  | case2 => trivial
  | case3 => exact quiet

theorem decimalFactorial_quietly {d : Decimal} (heeds : d.Heeds loud) :
    Quietly loud (decimalFactorial d) := by
  refine .ite (fun _ => heeds) fun _ => .ite (fun _ => ?_) fun _ => .ite (fun _ => trivial) fun _ => ?_
  · unfold decimalGamma
    split
    · rename_i r rounded
      exact Decimal.heeds_of_quiet ((decimalOfDouble_silent _).of_ok rounded)
    · trivial
    · trivial
  · split
    · rename_i r product
      exact Decimal.heeds_of_quiet ((decimalProduct_silent rfl).of_ok product)
    · exact doubleFactorial_quietly _
    · trivial

theorem negateDecimal_quietly (d : Decimal) : Quietly loud (negateDecimal d) :=
  (Ends.mapError (Decimal.negate_silent d) fun _ _ => trivial).map fun _ => Decimal.heeds_of_quiet

theorem apply_quietly (op : UnaryOp) {v : Value} (heeds : v.Heeds loud) :
    Quietly loud (op.apply preferDecimal v) := by
  have decimal (n : Int) : Ends (Decimal.Heeds loud) (Error.Numeric loud) (Value.integer n).toDecimal :=
    Value.toDecimal_numeric trivial
  have double (n : Int) : Numeric loud (Value.integer n).toDouble := Value.toDouble_numeric trivial
  cases op with
  | negate =>
    cases v with
    | empty | double => trivial
    | decimal d => exact negateDecimal_quietly d
    | integer n =>
      refine .ite (fun _ => trivial) fun _ => .ite (fun _ => ?_) fun _ => ?_
      · exact (decimal n).bind fun _ _ => negateDecimal_quietly _
      · exact (double n).bind fun _ _ => trivial
  | complement => exact v.toWord_numeric.map fun _ _ => trivial
  | factorial =>
    cases v with
    | empty => trivial
    | decimal d => exact decimalFactorial_quietly heeds
    | double x => exact doubleFactorial_quietly x
    | integer n =>
      refine .ite (fun _ => trivial) fun _ => ?_
      split
      · trivial
      · refine .ite (fun _ => ?_) fun _ => ?_
        · exact (decimal n).bind fun _ => decimalFactorial_quietly
        · exact (double n).bind fun _ _ => doubleFactorial_quietly _

end UnaryOp

end Reckoner
