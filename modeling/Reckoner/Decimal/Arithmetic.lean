import Reckoner.Decimal.Context

namespace Reckoner.Decimal

def equalsZero (d : Decimal) : Except Signal Bool :=
  if d.isSignaling then .error .invalid else .ok d.isZero

def bothZero (a b : Decimal) : Except Signal Bool := do
  if ← a.equalsZero then b.equalsZero else return false

def scaled (c : Nat) (e low : Int) : Nat := c * tenTo (e - low).toNat

def exactSum (s₁ : Bool) (c₁ : Nat) (e₁ : Int) (s₂ : Bool) (c₂ : Nat) (e₂ : Int) : Decimal :=
  let low := min e₁ e₂
  let n := signed s₁ (scaled c₁ e₁ low) + signed s₂ (scaled c₂ e₂ low)
  .finite (if n = 0 then s₁ && s₂ else n < 0) n.natAbs low

def add (ctx : Context) : Decimal → Decimal → Except Signal Decimal
  | notNumber signaling s payload, d => ctx.propagate (signaling || d.isSignaling) s payload
  | _, notNumber signaling s payload => ctx.propagate signaling s payload
  | infinity s, infinity t => if s = t then .ok (infinity s) else .error .invalid
  | infinity s, _ => .ok (infinity s)
  | _, infinity s => .ok (infinity s)
  | finite s₁ c₁ e₁, finite s₂ c₂ e₂ => ctx.round (exactSum s₁ c₁ e₁ s₂ c₂ e₂)

/-- The same magnitude with the other sign, not rounded. What is not a number keeps its sign. -/
def opposite : Decimal → Decimal
  | notNumber signaling s payload => notNumber signaling s payload
  | infinity s => infinity !s
  | finite s c e => finite (!s) c e

def subtract (ctx : Context) (a b : Decimal) : Except Signal Decimal := add ctx a b.opposite

def negate (ctx : Context) : Decimal → Except Signal Decimal
  | notNumber signaling s payload => ctx.propagate signaling s payload
  | finite _ 0 e => ctx.round (finite false 0 e)
  | d => ctx.round d.opposite

def absolute (ctx : Context) : Decimal → Except Signal Decimal
  | notNumber signaling s payload => ctx.propagate signaling s payload
  | infinity _ => .ok (infinity false)
  | finite _ c e => ctx.round (finite false c e)

def multiply (ctx : Context) : Decimal → Decimal → Except Signal Decimal
  | notNumber signaling s payload, d => ctx.propagate (signaling || d.isSignaling) s payload
  | _, notNumber signaling s payload => ctx.propagate signaling s payload
  | infinity s, d => if d.isZero then .error .invalid else .ok (infinity (s != d.hasSign))
  | d, infinity s => if d.isZero then .error .invalid else .ok (infinity (s != d.hasSign))
  | finite s₁ c₁ e₁, finite s₂ c₂ e₂ => ctx.round (finite (s₁ != s₂) (c₁ * c₂) (e₁ + e₂))

/-- The numerator, denominator and exponent of a quotient with one digit more than the context
    keeps before its point. -/
def quotientTerms (ctx : Context) (c₁ : Nat) (e₁ : Int) (c₂ : Nat) (e₂ : Int) : Nat × Nat × Int :=
  let shift : Int := (digitCount c₂ : Int) - digitCount c₁ + ctx.precision + 1
  (c₁ * tenTo shift.toNat, c₂ * tenTo (-shift).toNat, e₁ - e₂ - shift)

def dropZeros : Nat → Nat → Int → Nat × Int
  | 0, c, e => (c, e)
  | steps + 1, c, e => if c % 10 = 0 then dropZeros steps (c / 10) (e + 1) else (c, e)

/-- The quotient of finite numbers, the divisor not zero. An exact quotient has the exponent
    nearest to the difference of the exponents. -/
def finiteQuotient (ctx : Context) (s : Bool) (c₁ : Nat) (e₁ : Int) (c₂ : Nat) (e₂ : Int) :
    Except Signal Decimal :=
  if c₁ = 0 then ctx.round (finite s 0 (e₁ - e₂))
  else
    let (n, d, e) := quotientTerms ctx c₁ e₁ c₂ e₂
    if n % d = 0 then
      let (c, e) := dropZeros (e₁ - e₂ - e).toNat (n / d) e
      ctx.round (finite s c e)
    else ctx.roundQuotient s n d e

def divide (ctx : Context) : Decimal → Decimal → Except Signal Decimal
  | notNumber signaling s payload, d => ctx.propagate (signaling || d.isSignaling) s payload
  | _, notNumber signaling s payload => ctx.propagate signaling s payload
  | infinity _, infinity _ => .error .invalid
  | infinity s, d => .ok (infinity (s != d.hasSign))
  | d, infinity s => .ok (finite (s != d.hasSign) 0 ctx.tiny)
  | finite s₁ c₁ e₁, finite s₂ c₂ e₂ =>
    if c₂ = 0 then .error .invalid else finiteQuotient ctx (s₁ != s₂) c₁ e₁ c₂ e₂

/-- Rounds to `places` fractional digits, which may be negative; refuses a result that the
    context cannot hold. -/
def quantize (ctx : Context) (places : Int) : Decimal → Except Signal Decimal
  | finite s c e =>
    let low := -places
    if ctx.maxExponent < low || low < ctx.tiny then .error .invalid
    else if c = 0 then .ok (finite s 0 low)
    else if ctx.precision < (digitCount c : Int) + e - low then .error .invalid
    else
      let q := if adjusted c e + 1 < low then 0
        else roundHalfEven (c * tenTo (e - low).toNat) (tenTo (low - e).toNat)
      if ctx.precision < digitCount q || ctx.maxExponent < adjusted q low then .error .invalid
      else .ok (finite s q low)
  | infinity _ => .error .invalid
  | notNumber signaling s payload => ctx.propagate signaling s payload

end Reckoner.Decimal
