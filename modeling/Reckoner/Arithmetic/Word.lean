import Reckoner.Operator
import Reckoner.Value.Convert

namespace Reckoner.WordOp

def bitwise (f : BitVec 64 → BitVec 64 → BitVec 64) (a b : Int) : Int :=
  (f (BitVec.ofInt 64 a) (BitVec.ofInt 64 b)).toInt

def onWords (op : WordOp) (a b : Int) : Except Error Int :=
  match op with
  | modulo => if b = 0 then .error .zeroDivision else .ok (wrapWord (a.tmod b))
  | divide => if b = 0 then .error .zeroDivision else .ok (wrapWord (a.tdiv b))
  | shiftLeft => .ok (wrapWord (a * twoTo (b % 64).toNat))
  | shiftRight => .ok (wrapWord (a / twoTo (b % 64).toNat))
  | bitAnd => .ok (bitwise (· &&& ·) a b)
  | bitOr => .ok (bitwise (· ||| ·) a b)
  | bitXor => .ok (bitwise (· ^^^ ·) a b)

def apply (op : WordOp) (left right : Value) : Except Error Value := do
  let a ← left.toWord
  let b ← right.toWord
  return .integer (← op.onWords a b)

end Reckoner.WordOp
