import Reckoner.Proofs.Rounding.Operators
import Reckoner.Proofs.Rounding.Wholes

namespace Reckoner

open Decimal (Context)

def Decimal.HasDouble : Decimal → Float → Prop
  | notNumber .., y => y = Binary64.nan
  | infinity s, y => y = Binary64.infinity s
  | finite s c e, y => Binary64.IsNearest s (c * 10 ^ e) y

theorem Decimal.hasDouble (d : Decimal) : d.HasDouble (Binary64.ofDecimal d) := by
  cases d with
  | notNumber | infinity => rfl
  | finite s c e => exact Binary64.ofScaled_nearest s c e

theorem Decimal.quiet_of_exceeded {ctx : Context} {d : Decimal} (exceeded : ctx.Exceeded d) :
    d.isSignaling = false := by
  obtain ⟨x, value, -⟩ := exceeded
  exact BinaryOp.quiet_of_number value

namespace HostValue

def IsNumber : HostValue → Prop
  | none | bool _ | integer _ | decimal _ | double _ | tagged _ => True
  | text _ | list _ | mapping _ | function => False

def IsDecimal (v : HostValue) (d : Decimal) : Prop := v = decimal d ∨ v = tagged (.decimal d)

/-- A number that is not converted, and its error: a whole number that is rounded beyond the doubles, and
    what is not a number with a payload beyond the context, or a signaling one where doubles are preferred. -/
inductive Lost (preferDecimal : Bool) : HostValue → Error → Prop
  | whole {n : Int} (large : 2 ^ 1024 ≤ Binary64.grid.round n.natAbs) :
      Lost preferDecimal (integer n) (.range .wholeToDouble)
  | payload {v : HostValue} {d : Decimal} (held : v.IsDecimal d) (preferred : preferDecimal = true)
      (refused : Context.engine.Refuses d) : Lost preferDecimal v (.decimal .invalid)
  | signaling {v : HostValue} {d : Decimal} (held : v.IsDecimal d) (doubles : preferDecimal = false)
      (signaling : d.isSignaling = true) : Lost preferDecimal v (.badValue .signalingToDouble)

/-- A number that is no word, exactly as a decimal and to the nearest as a double. -/
inductive Fraction : HostValue → Decimal → Float → Prop
  | whole {n : Int} {y : Float} (beyond : fitsWord n = false)
      (nearest : Binary64.IsNearest (n < 0) n.natAbs y) : Fraction (integer n) (.ofInt n) y
  | decimal {d : Decimal} {y : Float} (nearest : d.HasDouble y) : Fraction (decimal d) d y
  | double (x : Float) : Fraction (double x) (Binary64.toDecimal x) x
  | taggedDecimal {d : Decimal} {y : Float} (nearest : d.HasDouble y) : Fraction (tagged (.decimal d)) d y
  | taggedDouble (x : Float) : Fraction (tagged (.double x)) (Binary64.toDecimal x) x

/-- The tagged number that a number of the host becomes. -/
inductive Becomes (preferDecimal : Bool) : HostValue → Value → Prop
  | empty : Becomes preferDecimal none .empty
  | truth (t : Bool) : Becomes preferDecimal (bool t) (.integer (if t then -1 else 0))
  | word {n : Int} (fits : fitsWord n = true) : Becomes preferDecimal (integer n) (.integer n)
  | taggedEmpty : Becomes preferDecimal (tagged .empty) .empty
  | taggedWord (n : Int) : Becomes preferDecimal (tagged (.integer n)) (.integer n)
  | decimal {v : HostValue} {d r : Decimal} {y : Float} (number : v.Fraction d y)
      (preferred : preferDecimal = true) (holds : Context.engine.Holds d r) :
      Becomes preferDecimal v (.decimal r)
  | double {v : HostValue} {d : Decimal} {y : Float} (number : v.Fraction d y)
      (beyond : preferDecimal = true → Context.engine.Exceeded d) : Becomes preferDecimal v (.double y)

theorem fractional_cases (preferDecimal : Bool) (d : Decimal) (nearest : Except Error Float) :
    (preferDecimal = true → ¬ Context.engine.Exceeded d → ¬ Context.engine.Refuses d →
      ∃ r, fractional preferDecimal (Context.engine.round d) nearest = .ok (.decimal r) ∧
        Context.engine.Holds d r) ∧
    ((preferDecimal = true → Context.engine.Exceeded d) →
      fractional preferDecimal (Context.engine.round d) nearest = nearest.map .double) := by
  obtain ⟨beyond, inside⟩ := Decimal.round_cases Decimal.engine_proper d
  constructor
  · rintro rfl kept held
    obtain ⟨r, rounded, holds⟩ := inside kept held
    rw [fractional.eq_def, if_pos rfl, rounded]
    exact ⟨r, rfl, holds⟩
  · intro exceeded
    cases preferDecimal with
    | false => rfl
    | true => rw [fractional.eq_def, if_pos rfl, beyond (exceeded rfl)]

theorem fractional_becomes (preferDecimal : Bool) {v : HostValue} {d : Decimal} {y : Float}
    (number : v.Fraction d y) (held : preferDecimal = true → ¬ Context.engine.Refuses d)
    {nearest : Except Error Float}
    (double : (preferDecimal = true → Context.engine.Exceeded d) → nearest = .ok y) :
    ∃ w, fractional preferDecimal (Context.engine.round d) nearest = .ok w ∧ v.Becomes preferDecimal w := by
  obtain ⟨decimals, doubles⟩ := fractional_cases preferDecimal d nearest
  by_cases exceeded : preferDecimal = true → Context.engine.Exceeded d
  · rw [doubles exceeded, double exceeded]
    exact ⟨_, rfl, .double number exceeded⟩
  · obtain ⟨preferred, kept⟩ := Classical.not_imp.mp exceeded
    obtain ⟨r, result, holds⟩ := decimals preferred kept (held preferred)
    exact ⟨_, result, .decimal number preferred holds⟩

theorem toDouble_integer (n : Int) :
    (2 ^ 1024 ≤ Binary64.grid.round n.natAbs →
        (Value.integer n).toDouble = .error (.range .wholeToDouble)) ∧
      (¬ 2 ^ 1024 ≤ Binary64.grid.round n.natAbs →
        ∃ y, (Value.integer n).toDouble = .ok y ∧ Binary64.IsNearest (n < 0) n.natAbs y) := by
  have nearest := Binary64.ofRatio_nearest (decide (n < 0)) n.natAbs Nat.one_pos
  rw [Nat.cast_one, div_one] at nearest
  constructor
  · intro large
    have value : Binary64.ofRatio (decide (n < 0)) n.natAbs 1 = Binary64.infinity (decide (n < 0)) := by
      rwa [Binary64.IsNearest, if_pos large] at nearest
    have infinite : Binary64.isInfinite (Binary64.ofRatio (decide (n < 0)) n.natAbs 1) = true := by
      rw [value, Binary64.isInfinite, Binary64.parts_infinity]
    rw [Value.toDouble, Binary64.ofInt?, if_pos infinite]
  · intro inside
    have value := nearest
    rw [Binary64.IsNearest, if_neg inside] at value
    rw [Value.toDouble, Binary64.ofInt?, (Binary64.proper_of_number value).2]
    exact ⟨_, rfl, nearest⟩

theorem exceeded_of_large {n : Int} (large : 2 ^ 1024 ≤ Binary64.grid.round n.natAbs) :
    Context.engine.Exceeded (.ofInt n) := by
  by_contra kept
  obtain ⟨r, rounded, -⟩ := (Decimal.round_cases Decimal.engine_proper (.ofInt n)).2 kept nofun
  obtain ⟨y, converted⟩ := toDouble_of_rounded rounded
  cases converted.symm.trans ((toDouble_integer n).1 large)

/-- How the conversion of a value of the host ends. What is no number is refused; a number that is lost is
    refused, too, with an error of its own; every other number becomes a tagged one. -/
structure Converts (preferDecimal : Bool) (v : HostValue) (result : Except Error Value) : Prop where
  refused (other : ¬ v.IsNumber) : result = .error (.conversion v)
  lost {e : Error} (lost : v.Lost preferDecimal e) : result = .error e
  becomes (number : v.IsNumber) (kept : ∀ e, ¬ v.Lost preferDecimal e) :
    ∃ w, result = .ok w ∧ v.Becomes preferDecimal w

variable {preferDecimal : Bool} {v : HostValue} {result : Except Error Value}

theorem Converts.of_number (number : v.IsNumber) (kept : ∀ e, ¬ v.Lost preferDecimal e)
    (becomes : ∃ w, result = .ok w ∧ v.Becomes preferDecimal w) : Converts preferDecimal v result :=
  ⟨fun other => absurd number other, fun lost => absurd lost (kept _), fun _ _ => becomes⟩

theorem not_lost {e : Error} (noDecimal : ∀ d, ¬ v.IsDecimal d) (noWhole : ∀ n, v ≠ integer n) :
    ¬ v.Lost preferDecimal e := by
  intro lost
  cases lost with
  | whole => exact noWhole _ rfl
  | payload held | signaling held => exact noDecimal _ held

theorem ofWhole_converts (preferDecimal : Bool) (n : Int) :
    Converts preferDecimal (integer n) (ofWhole preferDecimal n) := by
  have cause {e : Error} (lost : (integer n).Lost preferDecimal e) :
      e = .range .wholeToDouble ∧ 2 ^ 1024 ≤ Binary64.grid.round n.natAbs := by
    cases lost with
    | whole large => exact ⟨rfl, large⟩
    | payload held | signaling held => rcases held with held | held <;> cases held
  obtain ⟨large, converted⟩ := toDouble_integer n
  by_cases fits : fitsWord n = true
  · rw [ofWhole, if_pos fits]
    refine .of_number trivial (fun e lost => ?_) ⟨_, rfl, .word fits⟩
    cases (Value.toDouble_word fits).symm.trans (large (cause lost).2)
  rw [ofWhole, if_neg fits]
  by_cases beyond : 2 ^ 1024 ≤ Binary64.grid.round n.natAbs
  · have doubles := (fractional_cases preferDecimal (.ofInt n) (Value.integer n).toDouble).2 fun _ =>
      exceeded_of_large beyond
    refine ⟨fun other => absurd trivial other, fun lost => ?_, fun _ kept => absurd (.whole beyond) (kept _)⟩
    rw [doubles, large beyond, (cause lost).1]
    rfl
  · obtain ⟨y, double, nearest⟩ := converted beyond
    exact .of_number trivial (fun e lost => beyond (cause lost).2)
      (fractional_becomes preferDecimal (.whole (Bool.eq_false_iff.mpr fits) nearest) (fun _ => nofun)
        fun _ => double)

theorem lost_of_decimal {d : Decimal} {e : Error} (held : v.IsDecimal d) (lost : v.Lost preferDecimal e) :
    (preferDecimal = true ∧ Context.engine.Refuses d ∧ e = .decimal .invalid) ∨
      preferDecimal = false ∧ d.isSignaling = true ∧ e = .badValue .signalingToDouble := by
  have only {c : Decimal} (other : v.IsDecimal c) : c = d := by
    rcases held with rfl | rfl <;> rcases other with other | other <;> cases other <;> rfl
  cases lost with
  | whole => rcases held with held | held <;> cases held
  | payload other preferred refused => exact .inl ⟨preferred, only other ▸ refused, rfl⟩
  | signaling other doubles signaling => exact .inr ⟨doubles, only other ▸ signaling, rfl⟩

theorem ofFraction_converts (preferDecimal : Bool) {d : Decimal} (number : v.IsNumber)
    (held : v.IsDecimal d) (fraction : v.Fraction d (Binary64.ofDecimal d)) :
    Converts preferDecimal v (ofFraction preferDecimal d) := by
  cases preferDecimal with
  | true =>
    have cause {e : Error} (lost : v.Lost true e) := (lost_of_decimal held lost).resolve_right
      fun other => Bool.true_eq_false.mp other.1
    by_cases refused : Context.engine.Refuses d
    · refine ⟨fun other => absurd number other, fun lost => ?_,
        fun _ kept => absurd (.payload held rfl refused) (kept _)⟩
      rw [(cause lost).2.2, ofFraction, Decimal.round_of_refuses refused]
      rfl
    · exact .of_number number (fun e lost => refused (cause lost).2.1)
        (fractional_becomes true fraction (fun _ => refused) fun exceeded =>
          doubleOfDecimal_quiet (Decimal.quiet_of_exceeded (exceeded rfl)))
  | false =>
    have cause {e : Error} (lost : v.Lost false e) := (lost_of_decimal held lost).resolve_left
      fun other => Bool.false_eq_true.mp other.1
    cases signaling : d.isSignaling with
    | true =>
      refine ⟨fun other => absurd number other, fun lost => ?_,
        fun _ kept => absurd (.signaling held rfl signaling) (kept _)⟩
      rw [(cause lost).2.2, ofFraction, doubleOfDecimal, if_pos signaling]
      rfl
    | false =>
      refine .of_number number (fun e lost => ?_)
        (fractional_becomes false fraction (fun preferred => absurd preferred Bool.false_ne_true)
          fun _ => doubleOfDecimal_quiet signaling)
      cases signaling.symm.trans (cause lost).2.1

theorem ofDouble_converts (preferDecimal : Bool) {x : Float} (number : v.IsNumber)
    (noDecimal : ∀ d, ¬ v.IsDecimal d) (noWhole : ∀ n, v ≠ integer n)
    (fraction : v.Fraction (Binary64.toDecimal x) x) :
    Converts preferDecimal v (ofDouble preferDecimal x) :=
  .of_number number (fun _ => not_lost noDecimal noWhole)
    (fractional_becomes preferDecimal fraction (fun _ refused =>
      refused.2 (Binary64.toDecimal_nan_fits refused.1)) fun _ => rfl)

/-- Values of the host are converted or refused, in both modes. -/
theorem toValue_converts (preferDecimal : Bool) (v : HostValue) :
    v.Converts preferDecimal (v.toValue preferDecimal) := by
  cases v with
  | text | list | mapping | function =>
    exact ⟨fun _ => rfl, fun lost => absurd lost (not_lost (by simp [IsDecimal]) nofun), False.elim⟩
  | none => exact .of_number trivial (fun _ => not_lost (by simp [IsDecimal]) nofun) ⟨_, rfl, .empty⟩
  | bool t => exact .of_number trivial (fun _ => not_lost (by simp [IsDecimal]) nofun) ⟨_, rfl, .truth t⟩
  | integer n => exact ofWhole_converts preferDecimal n
  | decimal d => exact ofFraction_converts preferDecimal trivial (.inl rfl) (.decimal d.hasDouble)
  | double x => exact ofDouble_converts preferDecimal trivial (by simp [IsDecimal]) nofun (.double x)
  | tagged v =>
    cases v with
    | empty =>
      exact .of_number trivial (fun _ => not_lost (by simp [IsDecimal]) nofun) ⟨_, rfl, .taggedEmpty⟩
    | integer n =>
      exact .of_number trivial (fun _ => not_lost (by simp [IsDecimal]) nofun) ⟨_, rfl, .taggedWord n⟩
    | decimal d => exact ofFraction_converts preferDecimal trivial (.inr rfl) (.taggedDecimal d.hasDouble)
    | double x =>
      exact ofDouble_converts preferDecimal trivial (by simp [IsDecimal]) nofun (.taggedDouble x)

theorem large_of_le {n : Int} {k : Nat} (beyond : 1024 ≤ k) (large : 2 ^ k ≤ n.natAbs) :
    2 ^ 1024 ≤ Binary64.grid.round n.natAbs := by
  have least : ((Binary64.grid.base : Nat) : ℚ) ^ (k : Int) ≤ n.natAbs := by
    rw [zpow_natCast]
    exact_mod_cast large
  have above : (2 : ℚ) ^ (k : Int) ≤ Binary64.grid.round n.natAbs :=
    Binary64.grid.power_le_round (by decide) (le_trans (by decide) (Int.natCast_nonneg k)) least
  rw [zpow_natCast] at above
  exact (pow_le_pow_right₀ one_le_two beyond).trans above

/-- Ten to the power of 400 is a number of the host, but is not converted in either mode. -/
theorem power400_lost :
    (integer (10 ^ 400 : Nat)).toValue false = .error (.range .wholeToDouble) ∧
      (integer (10 ^ 400 : Nat)).toValue true = .error (.range .wholeToDouble) := by
  have large : 2 ^ 1024 ≤ Binary64.grid.round ((10 ^ 400 : Nat) : Int).natAbs := by
    refine large_of_le le_rfl ?_
    rw [Int.natAbs_natCast]
    decide +kernel
  have lost (preferDecimal : Bool) :=
    (ofWhole_converts preferDecimal (10 ^ 400 : Nat)).lost (.whole large)
  exact ⟨lost false, lost true⟩

end HostValue

end Reckoner
