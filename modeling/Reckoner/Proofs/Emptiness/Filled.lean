import Mathlib
import Reckoner.Function.Library
import Reckoner.Machine

namespace Reckoner

def Value.filled : Value → Value
  | .empty => .integer 0
  | v => v

def HostValue.filled : HostValue → HostValue
  | .none => .integer 0
  | v => v

namespace Value

variable (preferDecimal : Bool) (a b v : Value)

@[simp] theorem toWord_filled : v.filled.toWord = v.toWord := by cases v <;> rfl

@[simp] theorem toDecimal_filled : v.filled.toDecimal = v.toDecimal := by
  cases v with
  | empty => cbv
  | integer | decimal | double => rfl

@[simp] theorem toDouble_filled : v.filled.toDouble = v.toDouble := by
  cases v with
  | empty => cbv
  | integer | decimal | double => rfl

theorem promote_filled : a.filled.promote b.filled = a.promote b := by
  unfold promote
  simp only [toWord_filled, toDecimal_filled, toDouble_filled]
  cases a <;> cases b <;> rfl

theorem wordApply_filled (op : WordOp) : op.apply a.filled b.filled = op.apply a b := by
  simp only [WordOp.apply, toWord_filled]

theorem binaryApply_filled (op : BinaryOp) :
    op.apply preferDecimal a.filled b.filled = op.apply preferDecimal a b := by
  simp only [BinaryOp.apply, promote_filled]

theorem unaryApply_filled (op : UnaryOp) : op.apply preferDecimal v.filled = op.apply preferDecimal v := by
  cases v with
  | empty =>
    cases op with
    | negate | complement => rfl
    | factorial => cbv
  | integer | decimal | double => rfl

end Value

namespace HostValue

variable (preferDecimal : Bool) (v digits : HostValue)

theorem ofValue_filled (v : Value) : ofValue v.filled = (ofValue v).filled := by cases v <;> rfl

theorem toValue_filled :
    (v.filled.toValue preferDecimal).map Value.filled = (v.toValue preferDecimal).map Value.filled := by
  cases v <;> rfl

@[simp] theorem toNumber_filled : v.filled.toNumber = v.toNumber := by cases v <;> rfl

@[simp] theorem asDouble_filled : v.filled.asDouble = v.asDouble := by cases v <;> rfl

@[simp] theorem toWhole_filled (mode : Rounding) : v.filled.toWhole mode = v.toWhole mode := by
  cases v <;> rfl

@[simp] theorem absolute_filled : v.filled.absolute = v.absolute := by
  simp only [absolute, toNumber_filled]

@[simp] theorem sign_filled : v.filled.sign = v.sign := by simp only [sign, toNumber_filled]

@[simp] theorem roundTo_filled : v.filled.roundTo digits.filled = v.roundTo digits := by
  have finite : finiteDigits digits.filled = finiteDigits digits := by cases digits <;> rfl
  have whole : digitsOf digits.filled = digitsOf digits := by cases digits <;> rfl
  simp only [roundTo, finite, whole, toNumber_filled]

end HostValue

namespace Library

open HostValue

def Fills (body : List HostValue → Except Error HostValue) : Prop :=
  ∀ args : List HostValue, body (args.map filled) = body args

theorem ofDouble_fills (f : Float → Except Binary64.MathFault Float) : Fills (ofDouble f) := by
  intro args
  rcases args with _ | ⟨x, _ | ⟨y, rest⟩⟩ <;> simp [ofDouble]

theorem ofDoubles_fills (f : Float → Float → Except Binary64.MathFault Float) :
    Fills (ofDoubles f) := by
  intro args
  rcases args with _ | ⟨x, _ | ⟨y, _ | ⟨z, rest⟩⟩⟩ <;> simp [ofDoubles]

theorem ofValue_fills {f : HostValue → Except Error HostValue} (same : ∀ v, f v.filled = f v) :
    Fills (Library.ofValue f) := by
  intro args
  rcases args with _ | ⟨x, _ | ⟨y, rest⟩⟩ <;> simp [Library.ofValue, same]

theorem log_fills : Fills log := by
  intro args
  rcases args with _ | ⟨x, _ | ⟨y, _ | ⟨z, rest⟩⟩⟩ <;> simp [log]

theorem round_fills : Fills round := by
  intro args
  rcases args with _ | ⟨x, _ | ⟨y, _ | ⟨z, rest⟩⟩⟩ <;> simp [round]

theorem functions_fill : ∀ f ∈ functions, Fills f.2.body := by
  have whole (mode : Rounding) : Fills (Library.ofValue (toWhole mode)) :=
    ofValue_fills fun v => toWhole_filled v mode
  simp [functions, entry, whole, ofDouble_fills, ofDoubles_fills, log_fills, round_fills,
    ofValue_fills absolute_filled, ofValue_fills sign_filled]

end Library

end Reckoner
