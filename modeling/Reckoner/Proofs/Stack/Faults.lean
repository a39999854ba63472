import Reckoner.Proofs.Errors.Numeric

namespace Reckoner

variable {α : Type}

def Error.Foreign : Error → Prop
  | .stack _ => False
  | _ => True

abbrev Stackless (x : Except Error α) : Prop := Ends (fun _ => True) Error.Foreign x

theorem Error.Numeric.foreign {e : Error} (numeric : e.Numeric True) : e.Foreign := by
  cases e with
  | stack => exact numeric.elim
  | _ => trivial

theorem Ends.stackless {good : α → Prop} {x : Except Error α}
    (numeric : Ends good (Error.Numeric True) x) : Stackless x :=
  (numeric.weaken fun _ => Error.Numeric.foreign).mono fun _ _ => trivial

theorem Value.heeds_true (v : Value) : v.Heeds True := by
  cases v with
  | decimal => exact fun _ => trivial
  | _ => trivial

theorem HostValue.toValue_stackless (preferDecimal : Bool) (v : HostValue) :
    Stackless (v.toValue preferDecimal) := by
  have heeds : v.Heeds True := by
    cases v with
    | tagged v => exact v.heeds_true
    | decimal => exact fun _ => trivial
    | _ => trivial
  exact (toValue_quietly heeds).stackless

theorem Operation.apply_stackless (preferDecimal : Bool) (op : Operation) (left right : Value) :
    Stackless (op.apply preferDecimal left right) :=
  (op.apply_quietly left.heeds_true right.heeds_true).stackless

theorem UnaryOp.apply_stackless (preferDecimal : Bool) (op : UnaryOp) (v : Value) :
    Stackless (op.apply preferDecimal v) :=
  (op.apply_quietly v.heeds_true).stackless

end Reckoner
