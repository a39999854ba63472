import Mathlib.Algebra.Field.Rat
import Reckoner.Value.Basic

namespace Reckoner

/-- The number that a finite decimal denotes. -/
def Decimal.number? : Decimal → Option ℚ
  | finite s c e => some (signed s c * 10 ^ e)
  | _ => none

/-- The number that a finite double denotes. -/
def Binary64.number? (x : Float) : Option ℚ :=
  match parts x with
  | .finite s m q => some (Decimal.signed s m * 2 ^ q)
  | _ => none

/-- The number that a value denotes; an empty value counts as zero. -/
def Value.number? : Value → Option ℚ
  | empty => some 0
  | integer n => some n
  | decimal d => d.number?
  | double x => Binary64.number? x

theorem Decimal.number?_whole (s : Bool) (c : Nat) :
    (finite s c 0).number? = some ((signed s c : Int) : ℚ) := by
  simp [number?]

theorem Decimal.number?_zero_sign (s : Bool) (c : Nat) (e : Int) :
    (finite (s && c != 0) c e).number? = (finite s c e).number? := by
  cases c with
  | zero => cases s <;> rfl
  | succ c => rw [show (s && c + 1 != 0) = s from Bool.and_true s]

end Reckoner
