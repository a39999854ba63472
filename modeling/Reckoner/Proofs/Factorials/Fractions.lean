import Reckoner.Proofs.Factorials.Loops

namespace Reckoner.UnaryOp

open Decimal (Context)

variable (gamma : Float → Float)

def doubleFactorialOver (x : Float) : Except Error Value :=
  if Binary64.isNan x || (Binary64.isInfinite x && !Binary64.hasSign x) then .ok (.double x)
  else if !Binary64.isIntegral x then .ok (.double (gamma (x + 1)))
  else
    let n := (Binary64.toInt? .down x).getD 0
    if n < 0 then .error (.eval (.negativeFactorial (.double x)))
    else if 170 < n then .ok (.double (Binary64.infinity false))
    else .ok (.double (Binary64.ofRatio false (Reckoner.factorial n.toNat) 1))

def decimalGammaOver (d : Decimal) : Except Error Value :=
  match decimalOfDouble (gamma (Binary64.ofDecimal d + 1)) with
  | .ok r => .ok (.decimal r)
  | .error .overflow => .ok (.double (Binary64.infinity false))
  | .error signal => .error (.decimal signal)

def decimalFactorialOver (d : Decimal) : Except Error Value :=
  if d.isNan then .ok (.decimal d)
  else if !d.isIntegral then decimalGammaOver gamma d
  else if d.isNegative then .error (.eval (.negativeFactorial (.decimal d)))
  else
    match decimalProduct ((d.toInt? .down).getD 0).toNat 2 (.ofNat 1) with
    | .ok r => .ok (.decimal r)
    | .error .overflow => doubleFactorialOver gamma (Binary64.ofDecimal d)
    | .error signal => .error (.decimal signal)

variable {gamma} {d : Decimal} {x : ℚ}

theorem decimalFactorialOver_whole (value : d.number? = some x) (whole : x.den = 1) {y : Float}
    (result : decimalFactorialOver gamma d = .ok (.double y)) :
    doubleFactorialOver gamma (Binary64.ofDecimal d) = .ok (.double y) := by
  rw [decimalFactorialOver, (Decimal.isIntegral_iff value).mpr whole] at result
  split at result
  · cases result
  split at result
  · contradiction
  split at result
  · cases result
  split at result
  · cases result
  · exact result
  · cases result

theorem decimalFactorialOver_fraction (value : d.number? = some x) (fraction : x.den ≠ 1) :
    decimalFactorialOver gamma d = decimalGammaOver gamma d := by
  have broken : d.isIntegral = false := by
    rw [Bool.eq_false_iff]
    exact mt (Decimal.isIntegral_iff value).mp fraction
  rw [decimalFactorialOver, Decimal.isNan_of_number value, broken]
  rfl

theorem doubleFactorialOver_fraction {y : Float} (value : Binary64.number? y = some x)
    (fraction : x.den ≠ 1) : doubleFactorialOver gamma y = .ok (.double (gamma (y + 1))) := by
  obtain ⟨number, finite⟩ := Binary64.proper_of_number value
  have broken : Binary64.isIntegral y = false := by
    rw [Bool.eq_false_iff]
    exact mt (Binary64.isIntegral_iff value).mp fraction
  rw [doubleFactorialOver, number, finite, broken]
  rfl

theorem decimalGammaOver_cases (gamma : Float → Float) (d : Decimal) :
    let exact := Binary64.toDecimal (gamma (Binary64.ofDecimal d + 1))
    (Context.engine.Exceeded exact → decimalGammaOver gamma d = .ok (.double (Binary64.infinity false))) ∧
      (¬ Context.engine.Exceeded exact →
        ∃ r, decimalGammaOver gamma d = .ok (.decimal r) ∧ Context.engine.Holds exact r) := by
  obtain ⟨beyond, inside⟩ := Decimal.round_cases Decimal.engine_proper
    (Binary64.toDecimal (gamma (Binary64.ofDecimal d + 1)))
  constructor
  · intro exceeded
    rw [decimalGammaOver, decimalOfDouble, beyond exceeded]
  · intro kept
    obtain ⟨r, rounded, holds⟩ :=
      inside kept fun refused => refused.2 (Binary64.toDecimal_nan_fits refused.1)
    rw [decimalGammaOver, decimalOfDouble, rounded]
    exact ⟨r, rfl, holds⟩

theorem ne_infinity_of_exceeded {y : Float} (s : Bool)
    (exceeded : Context.engine.Exceeded (Binary64.toDecimal y)) : y ≠ Binary64.infinity s := by
  rintro rfl
  obtain ⟨x, value, -⟩ := exceeded
  rw [Binary64.toDecimal, Binary64.parts_infinity] at value
  cases value

/-- Where the factorial of a decimal leaves the decimals. A whole number goes on with the double of the
    decimal. Any other number comes to infinity exactly where the gamma function has a finite value beyond
    the decimals; this value is lost, but is the factorial of the decimal's double. -/
structure LeavesDecimals (gamma : Float → Float) (d : Decimal) (x : ℚ) : Prop where
  whole (integral : x.den = 1) (y : Float) (result : decimalFactorialOver gamma d = .ok (.double y)) :
    doubleFactorialOver gamma (Binary64.ofDecimal d) = .ok (.double y)
  infinite (fraction : x.den ≠ 1) (y : Float) :
    decimalFactorialOver gamma d = .ok (.double y) ↔ y = Binary64.infinity false ∧
      Context.engine.Exceeded (Binary64.toDecimal (gamma (Binary64.ofDecimal d + 1)))
  kept (fraction : x.den ≠ 1)
    (inside : ¬ Context.engine.Exceeded (Binary64.toDecimal (gamma (Binary64.ofDecimal d + 1)))) :
    ∃ r, decimalFactorialOver gamma d = .ok (.decimal r) ∧
      Context.engine.Holds (Binary64.toDecimal (gamma (Binary64.ofDecimal d + 1))) r
  lost (z : ℚ) (double : Binary64.number? (Binary64.ofDecimal d) = some z) (fraction : z.den ≠ 1)
    (beyond : Context.engine.Exceeded (Binary64.toDecimal (gamma (Binary64.ofDecimal d + 1)))) :
    doubleFactorialOver gamma (Binary64.ofDecimal d) = .ok (.double (gamma (Binary64.ofDecimal d + 1))) ∧
      gamma (Binary64.ofDecimal d + 1) ≠ Binary64.infinity false

theorem leavesDecimals (gamma : Float → Float) (value : d.number? = some x) : LeavesDecimals gamma d x := by
  obtain ⟨beyond, inside⟩ := decimalGammaOver_cases gamma d
  refine ⟨fun whole y => decimalFactorialOver_whole value whole, fun fraction y => ?_,
    fun fraction kept => ?_, fun z double fraction exceeded => ?_⟩
  · rw [decimalFactorialOver_fraction value fraction]
    by_cases exceeded : Context.engine.Exceeded (Binary64.toDecimal (gamma (Binary64.ofDecimal d + 1)))
    · rw [beyond exceeded]
      constructor
      · intro same
        cases same
        exact ⟨rfl, exceeded⟩
      · rintro ⟨rfl, -⟩
        rfl
    · obtain ⟨r, result, -⟩ := inside exceeded
      rw [result]
      exact ⟨nofun, fun ⟨_, lost⟩ => absurd lost exceeded⟩
  · rw [decimalFactorialOver_fraction value fraction]
    exact inside kept
  · exact ⟨doubleFactorialOver_fraction double fraction, ne_infinity_of_exceeded false exceeded⟩

/-- Factorials of finite decimals in both modes and over any gamma function, the one in use among them. -/
theorem decimal_factorial_leaves (value : d.number? = some x) :
    (∀ preferDecimal, factorial.apply preferDecimal (.decimal d) = decimalFactorialOver Binary64.gamma d) ∧
    (∀ preferDecimal y, factorial.apply preferDecimal (.double y) = doubleFactorialOver Binary64.gamma y) ∧
    ∀ gamma, LeavesDecimals gamma d x :=
  ⟨fun _ => rfl, fun _ _ => rfl, fun gamma => leavesDecimals gamma value⟩

theorem number?_half : (Decimal.finite false 305 (-1)).number? = some (61 / 2) := by
  norm_num [Decimal.number?, Decimal.signed]

theorem half_factorial_leaves :
    (Decimal.finite false 305 (-1)).number? = some (61 / 2) ∧
      ∀ gamma : Float → Float,
        Context.engine.Exceeded
            (Binary64.toDecimal (gamma (Binary64.ofDecimal (.finite false 305 (-1)) + 1))) →
          decimalFactorialOver gamma (.finite false 305 (-1)) = .ok (.double (Binary64.infinity false)) := by
  refine ⟨number?_half, fun gamma beyond => ?_⟩
  exact (((decimal_factorial_leaves number?_half).2.2 gamma).infinite (by norm_num) _).mpr ⟨rfl, beyond⟩

/-- The double nearest to the factorial of 30.5 is beyond the decimals. It is what doubles give; decimals
    give infinity. -/
theorem half_factorial_lost :
    let value := Binary64.ofRatio false 1470922564714727171981154747154432 1
    decimalFactorialOver (fun _ => value) (.finite false 305 (-1)) =
        .ok (.double (Binary64.infinity false)) ∧
      doubleFactorialOver (fun _ => value) (Binary64.ofDecimal (.finite false 305 (-1))) =
        .ok (.double value) ∧
      value ≠ Binary64.infinity false := by
  intro value
  have overflow : decimalOfDouble value = .error .overflow := by decide +kernel
  have number : (Binary64.isNan (Binary64.ofDecimal (.finite false 305 (-1))) ||
      (Binary64.isInfinite (Binary64.ofDecimal (.finite false 305 (-1))) &&
        !Binary64.hasSign (Binary64.ofDecimal (.finite false 305 (-1))))) = false := by decide +kernel
  have fraction : Binary64.isIntegral (Binary64.ofDecimal (.finite false 305 (-1))) = false := by
    decide +kernel
  refine ⟨?_, ?_, by decide +kernel⟩
  · rw [decimalFactorialOver, if_neg (by decide), if_pos (by decide +kernel), decimalGammaOver, overflow]
  · rw [doubleFactorialOver, number, fraction]
    rfl

end Reckoner.UnaryOp
