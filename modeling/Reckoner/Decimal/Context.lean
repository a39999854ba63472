import Reckoner.Decimal.Basic

namespace Reckoner.Decimal

inductive Signal
  | overflow
  | invalid
  deriving DecidableEq, Repr

structure Context where
  precision : Nat
  maxExponent : Int
  minExponent : Int
  deriving DecidableEq, Repr

namespace Context

def engine : Context := ⟨28, 28, -28⟩

def ample : Context := ⟨28, 999999, -999999⟩

def tiny (ctx : Context) : Int := ctx.minExponent - ctx.precision + 1

def lastExponent (ctx : Context) (top : Int) : Int := max (top - ctx.precision + 1) ctx.tiny

/-- The positive number `n / d * 10 ^ e` rounded once, half to even. -/
def roundQuotient (ctx : Context) (s : Bool) (n d : Nat) (e : Int) : Except Signal Decimal :=
  let top := logTen n d + e
  let low := ctx.lastExponent top
  if ctx.maxExponent < top then .error .overflow
  else
    -- below a tenth of the last place nothing is left, whatever the powers of ten
    let q := if top + 1 < low then 0
      else roundHalfEven (n * tenTo (e - low).toNat) (d * tenTo (low - e).toNat)
    if q = tenTo ctx.precision then
      if ctx.maxExponent < top + 1 then .error .overflow
      else .ok (.finite s (tenTo (ctx.precision - 1)) (low + 1))
    else .ok (.finite s q low)

/-- What an operation makes of an operand that is not a number: the last digits of its payload. -/
def propagate (ctx : Context) (signaling negative : Bool) (payload : Nat) : Except Signal Decimal :=
  if signaling then .error .invalid
  else .ok (.notNumber false negative (payload % tenTo ctx.precision))

def round (ctx : Context) : Decimal → Except Signal Decimal
  | .notNumber signaling s payload =>
    if ctx.precision < digitCount payload then .error .invalid
    else .ok (.notNumber signaling s payload)
  | .finite s 0 e => .ok (.finite s 0 (max ctx.tiny (min e ctx.maxExponent)))
  | .finite s c e =>
    let top := adjusted c e
    if ctx.lastExponent top ≤ e then
      if ctx.maxExponent < top then .error .overflow else .ok (.finite s c e)
    else ctx.roundQuotient s c 1 e
  | .infinity s => .ok (.infinity s)

end Context

end Reckoner.Decimal
