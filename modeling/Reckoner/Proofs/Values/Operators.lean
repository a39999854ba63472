import Reckoner.Arithmetic.Unary
import Reckoner.Proofs.Values.Decimals
import Reckoner.Proofs.Values.Quiet

namespace Reckoner

namespace Value

/-- A whole number of 64 bits, a decimal of the engine's context, a double or nothing. -/
def WellFormed : Value → Prop
  | empty => True
  | integer n => fitsWord n = true
  | decimal d => d.Fits .engine
  | double _ => True

/-- A well-formed value, and no decimal unless decimals are preferred. -/
inductive Admissible (preferDecimal : Bool) : Value → Prop
  | empty : Admissible preferDecimal .empty
  | integer {n : Int} (fits : fitsWord n = true) : Admissible preferDecimal (.integer n)
  | decimal {d : Decimal} (preferred : preferDecimal = true) (fits : d.Fits .engine) :
      Admissible preferDecimal (.decimal d)
  | double (x : Float) : Admissible preferDecimal (.double x)

variable {preferDecimal : Bool}

theorem Admissible.wellFormed {v : Value} (admissible : v.Admissible preferDecimal) :
    v.WellFormed ∧ (preferDecimal = false → v.tag ≠ .decimal) := by
  cases admissible with
  | empty | double => exact ⟨trivial, nofun⟩
  | integer fits => exact ⟨fits, nofun⟩
  | decimal preferred fits => exact ⟨fits, fun refused => by simp [refused] at preferred⟩

end Value

open Value

abbrev Admits (preferDecimal : Bool) (x : Except Error Value) : Prop :=
  Ends (Admissible preferDecimal) (fun _ => True) x

abbrev FitsWord (x : Except Error Int) : Prop := Ends (fun n => fitsWord n = true) (fun _ => True) x

theorem fitsWord_iff {n : Int} : fitsWord n = true ↔ leastWord ≤ n ∧ n ≤ greatestWord := by
  simp [fitsWord]

theorem fitsWord_wrapWord (n : Int) : fitsWord (wrapWord n) = true := by
  have low := Int.le_bmod (x := n) (m := wordCount) (by decide)
  have high := Int.bmod_lt (x := n) (m := wordCount) (by decide)
  rw [fitsWord_iff]
  unfold wrapWord leastWord greatestWord
  unfold wordCount at *
  omega

namespace Value

theorem checkedWord_fits (v : Value) (n : Option Int) : FitsWord (checkedWord v n) := by
  cases n with
  | none => trivial
  | some n => exact .ite (fun fits => fits) fun _ => trivial

theorem toWord_fits {v : Value} (wellFormed : v.WellFormed) : FitsWord v.toWord := by
  cases v with
  | empty => exact (by decide : fitsWord 0 = true)
  | integer n => exact wellFormed
  | decimal | double => exact checkedWord_fits _ _

theorem toDecimal_fits {v : Value} (wellFormed : v.WellFormed) :
    Ends (Decimal.Fits .engine) (fun _ => True) v.toDecimal := by
  cases v with
  | empty => exact Decimal.zero_fits Decimal.engine_proper false (by decide) (by decide)
  | integer n => exact (Decimal.round_fits Decimal.engine_proper _).mapError fun _ _ => trivial
  | decimal d => exact wellFormed
  | double x => exact (Decimal.round_fits Decimal.engine_proper _).mapError fun _ _ => trivial

end Value

theorem Binary64.toDecimal_nan_fits {x : Float} (nan : (toDecimal x).isNan = true) :
    (toDecimal x).Fits .engine := by
  unfold toDecimal at nan ⊢
  split at nan
  · exact Decimal.nan_fits Decimal.engine_proper
  · cases nan
  · dsimp only at nan
    split at nan <;> cases nan

theorem decimalOfDouble_overflows (x : Float) :
    Ends (fun d => d.isFinite = (Binary64.toDecimal x).isFinite) (fun signal => signal = .overflow)
      (decimalOfDouble x) := by
  cases number : (Binary64.toDecimal x).isNan with
  | false => exact Decimal.round_overflows .engine number
  | true =>
    rw [decimalOfDouble, Decimal.round_of_fits (Binary64.toDecimal_nan_fits number)]
    rfl

namespace HostValue

/-- A value of the host that is no number tagged as a whole one beyond 64 bits. Numbers of other
    tags are brought into range when they are converted. -/
def Bounded : HostValue → Prop
  | tagged (.integer n) => fitsWord n = true
  | _ => True

variable (preferDecimal : Bool)

theorem fractional_admits {rounded : Except Decimal.Signal Decimal}
    (fits : Decimal.Fitting .engine rounded) (nearest : Except Error Float) :
    Admits preferDecimal (fractional preferDecimal rounded nearest) := by
  have doubled : Admits preferDecimal (nearest.map .double) :=
    (Ends.always nearest).map fun x _ => .double x
  apply Ends.ite
  · intro preferred
    cases rounded with
    | ok d => exact .decimal preferred fits
    | error signal =>
      cases signal with
      | overflow => exact doubled
      | invalid => trivial
  · intro _
    exact doubled

theorem toValue_admits {v : HostValue} (bounded : v.Bounded) :
    Admits preferDecimal (v.toValue preferDecimal) := by
  have rounded (d : Decimal) : Decimal.Fitting .engine (Decimal.Context.engine.round d) :=
    Decimal.round_fits Decimal.engine_proper d
  have fraction (d : Decimal) : Admits preferDecimal (ofFraction preferDecimal d) :=
    fractional_admits preferDecimal (rounded d) _
  have double (x : Float) : Admits preferDecimal (ofDouble preferDecimal x) :=
    fractional_admits preferDecimal (rounded _) _
  cases v with
  | none => exact .empty
  | bool b => cases b <;> exact .integer (by decide)
  | integer n => exact .ite (fun fits => .integer fits) fun _ => fractional_admits _ (rounded _) _
  | decimal d => exact fraction d
  | double x => exact double x
  | tagged v =>
    cases v with
    | empty => exact .empty
    | integer n => exact .integer bounded
    | decimal d => exact fraction d
    | double x => exact double x
  | text | list | mapping | function => trivial

end HostValue

/-- Operands of one representation, well-formed, and decimals only where these are preferred. -/
inductive Operands.Admissible (preferDecimal : Bool) : Operands → Prop
  | words {a b : Int} (left : fitsWord a = true) (right : fitsWord b = true) :
      Admissible preferDecimal (.words a b)
  | decimals {a b : Decimal} (preferred : preferDecimal = true) (left : a.Fits .engine)
      (right : b.Fits .engine) : Admissible preferDecimal (.decimals a b)
  | doubles (a b : Float) : Admissible preferDecimal (.doubles a b)

variable {preferDecimal : Bool}

theorem promote_admits {a b : Value} (left : a.Admissible preferDecimal)
    (right : b.Admissible preferDecimal) :
    Ends (Operands.Admissible preferDecimal) (fun _ => True) (a.promote b) := by
  have words : Ends (Operands.Admissible preferDecimal) (fun _ => True)
      (do return .words (← a.toWord) (← b.toWord)) :=
    (toWord_fits left.wellFormed.1).bind fun _ fits =>
      (toWord_fits right.wellFormed.1).bind fun _ fits' => .words fits fits'
  unfold Value.promote
  split
  · exact words
  · exact words
  · rename_i tag
    have preferred : preferDecimal = true := by
      cases preferDecimal with
      | true => rfl
      | false =>
        have first := left.wellFormed.2 rfl
        have second := right.wellFormed.2 rfl
        unfold Tag.higher at tag
        split at tag <;> contradiction
    exact (toDecimal_fits left.wellFormed.1).bind fun _ fits =>
      (toDecimal_fits right.wellFormed.1).bind fun _ fits' => .decimals preferred fits fits'
  · exact .after fun _ => .after fun _ => .doubles _ _

theorem fitsWord_bitwise (f : BitVec 64 → BitVec 64 → BitVec 64) (a b : Int) :
    fitsWord (WordOp.bitwise f a b) = true := by
  unfold WordOp.bitwise
  have low := BitVec.le_toInt (f (BitVec.ofInt 64 a) (BitVec.ofInt 64 b))
  have high := BitVec.toInt_lt (x := f (BitVec.ofInt 64 a) (BitVec.ofInt 64 b))
  rw [fitsWord_iff]
  unfold leastWord greatestWord
  omega

theorem WordOp.onWords_fits (op : WordOp) (a b : Int) : FitsWord (op.onWords a b) := by
  cases op with
  | modulo | divide => exact .ite (fun _ => trivial) fun _ => fitsWord_wrapWord _
  | shiftLeft | shiftRight => exact fitsWord_wrapWord _
  | bitAnd | bitOr | bitXor => exact fitsWord_bitwise _ a b

theorem WordOp.apply_admits (op : WordOp) (left right : Value) :
    Admits preferDecimal (op.apply left right) :=
  .after fun a => .after fun b => (op.onWords_fits a b).bind fun _ fits => .integer fits

namespace BinaryOp

theorem fitsWord_of_filter {a n : Int} (kept : (some a).filter fitsWord = some n) :
    fitsWord n = true := (Option.filter_eq_some_iff.mp kept).2

theorem fitsWord_of_wordPower? {a b n : Int} (power : wordPower? a b = some n) :
    fitsWord n = true := by
  unfold wordPower? at power
  split at power
  · cases power
    decide
  split at power
  · cases power
    split <;> decide
  split at power
  · cases power
  split at power
  · cases power
    split <;> decide
  split at power
  · cases power
  · exact fitsWord_of_filter power

theorem onWords_fits (op : BinaryOp) (a b : Int) :
    Ends (fun result => ∀ n, result = some n → fitsWord n = true) (fun _ => True)
      (op.onWords a b) := by
  cases op with
  | add | subtract | multiply => exact fun n => fitsWord_of_filter
  | divide =>
    exact .ite (fun _ => trivial) fun _ => .ite (fun _ => nofun) fun _ n => fitsWord_of_filter
  | root => exact nofun
  | power => exact fun n => fitsWord_of_wordPower?

abbrev FitsDecimal (x : Except Error Decimal) : Prop :=
  Ends (Decimal.Fits .engine) (fun _ => True) x

theorem fitsDecimal_of_fitting {x : Except Decimal.Signal Decimal}
    (fits : Decimal.Fitting .engine x) : FitsDecimal (x.mapError .decimal) :=
  fits.mapError fun _ _ => trivial

theorem throughDoubles_fits (f : Float → Float → Float) (a b : Decimal) :
    FitsDecimal (throughDoubles f a b) :=
  .after fun _ => .after fun _ =>
    fitsDecimal_of_fitting (Decimal.round_fits Decimal.engine_proper _)

theorem decimalPower_fits (a b : Decimal) : FitsDecimal (decimalPower a b) := by
  have proper := Decimal.engine_proper
  refine .after fun bothZero => ?_
  exact .ite (fun _ => Decimal.ofNat_one_fits proper) fun _ =>
    .ite (fun _ => fitsDecimal_of_fitting (Decimal.power_fits proper a b)) fun _ =>
      throughDoubles_fits _ a b

theorem onDecimals_fits (op : BinaryOp) (a b : Decimal) : FitsDecimal (op.onDecimals a b) := by
  have proper := Decimal.engine_proper
  cases op with
  | add => exact fitsDecimal_of_fitting (Decimal.add_fits proper a b)
  | subtract => exact fitsDecimal_of_fitting (Decimal.add_fits proper a b.opposite)
  | multiply => exact fitsDecimal_of_fitting (Decimal.multiply_fits proper a b)
  | divide => exact fitsDecimal_of_fitting (Decimal.divide_fits proper a b)
  | root => exact throughDoubles_fits _ a b
  | power => exact decimalPower_fits a b

abbrev Signals (a b : Decimal) (x : Except Error Decimal) : Prop :=
  Ends (fun d => d.isSignaling = false)
    (fun e => (∃ signal, e = .decimal signal) ∨
      e = .badValue .signalingToDouble ∧ (a.isSignaling = true ∨ b.isSignaling = true)) x

theorem signals_of_silent {a b : Decimal} {x : Except Decimal.Signal Decimal}
    (silent : Decimal.Silent x) : Signals a b (x.mapError .decimal) :=
  silent.mapError fun signal _ => .inl ⟨signal, rfl⟩

theorem throughDoubles_signals (f : Float → Float → Float) (a b : Decimal) :
    Signals a b (throughDoubles f a b) := by
  cases left : a.isSignaling with
  | true =>
    rw [throughDoubles, doubleOfDecimal, if_pos left]
    exact .inr ⟨rfl, .inl left⟩
  | false =>
    rw [throughDoubles, doubleOfDecimal_quiet left]
    cases right : b.isSignaling with
    | true =>
      rw [doubleOfDecimal, if_pos right]
      exact .inr ⟨rfl, .inr right⟩
    | false =>
      rw [doubleOfDecimal_quiet right]
      exact signals_of_silent (decimalOfDouble_silent _)

theorem onDecimals_signals (op : BinaryOp) (a b : Decimal) : Signals a b (op.onDecimals a b) := by
  cases op with
  | add => exact signals_of_silent (Decimal.add_silent a b)
  | subtract => exact signals_of_silent (Decimal.add_silent a b.opposite)
  | multiply => exact signals_of_silent (Decimal.multiply_silent a b)
  | divide => exact signals_of_silent (Decimal.divide_silent a b)
  | root => exact throughDoubles_signals _ a b
  | power =>
    have asked : Ends (fun _ : Bool => True) (fun e => (∃ signal, e = Error.decimal signal) ∨
        e = .badValue .signalingToDouble ∧ (a.isSignaling = true ∨ b.isSignaling = true))
        ((Decimal.bothZero a b).mapError .decimal) :=
      (Ends.always _).mapError fun signal _ => .inl ⟨signal, rfl⟩
    apply asked.bind
    intro bothZero _
    exact .ite (fun _ => rfl) fun _ =>
      .ite (fun _ => signals_of_silent (Decimal.power_silent a b)) fun _ => throughDoubles_signals _ a b

theorem applyDecimals_succeeds {op : BinaryOp} {a b : Decimal} (left : a.isSignaling = false)
    (right : b.isSignaling = false) (divisor : ¬ (op = divide ∧ b.isZero = true)) :
    (∃ d, op.applyDecimals a b = .ok (.decimal d) ∧ d.isSignaling = false) ∨
      ∃ x, op.applyDecimals a b = .ok (.double x) := by
  have signals := onDecimals_signals op a b
  rw [applyDecimals, if_neg divisor, doubleOfDecimal_quiet left, doubleOfDecimal_quiet right]
  cases result : op.onDecimals a b with
  | ok d => exact .inl ⟨d, rfl, signals.of_ok result⟩
  | error e =>
    rcases signals.of_error result with ⟨signal, rfl⟩ | ⟨-, signaling⟩
    · cases signal with
      | overflow => exact .inr ⟨_, rfl⟩
      | invalid => exact .inl ⟨.nan, rfl, rfl⟩
    · simp [left, right] at signaling

theorem applyDecimals_admits (preferred : preferDecimal = true) (op : BinaryOp) (a b : Decimal) :
    Admits preferDecimal (op.applyDecimals a b) := by
  refine .ite (fun _ => trivial) fun _ => ?_
  have fits := op.onDecimals_fits a b
  split
  · rename_i d done
    exact .decimal preferred (fits.of_ok done)
  · exact .decimal preferred (Decimal.nan_fits Decimal.engine_proper)
  · exact .after fun _ => .after fun _ => .double _
  · trivial

theorem applyWide_admits (op : BinaryOp) (a b : Value) :
    Admits preferDecimal (op.applyWide preferDecimal a b) := by
  apply Ends.ite
  · intro preferred
    exact .after fun a => .after fun b => applyDecimals_admits preferred op a b
  · intro _
    exact .after fun _ => .after fun _ => .double _

theorem apply_admits (op : BinaryOp) {left right : Value} (first : left.Admissible preferDecimal)
    (second : right.Admissible preferDecimal) :
    Admits preferDecimal (op.apply preferDecimal left right) := by
  apply (promote_admits first second).bind
  intro operands admissible
  cases admissible with
  | @words a b =>
    apply (op.onWords_fits a b).bind
    intro result fits
    cases result with
    | some n => exact .integer (fits n rfl)
    | none => exact op.applyWide_admits _ _
  | decimals preferred => exact applyDecimals_admits preferred op _ _
  | doubles a b => exact .double _

end BinaryOp

namespace UnaryOp

theorem fitsWord_of_wordProduct? {n i : Nat} {product r : Int} (fits : fitsWord product = true)
    (done : wordProduct? n i product = some r) : fitsWord r = true := by
  fun_induction wordProduct? n i product with
  | case1 i product more fits' ih => exact ih fits' done
  | case2 => cases done
  | case3 =>
    cases done
    exact fits

theorem decimalProduct_fits {n i : Nat} {product : Decimal} (fits : product.Fits .engine) :
    Decimal.Fitting .engine (decimalProduct n i product) := by
  fun_induction decimalProduct n i product with
  | case1 i product more next multiplied ih =>
    exact ih ((Decimal.multiply_fits Decimal.engine_proper _ _).of_ok multiplied)
  | case2 => trivial
  | case3 => exact fits

theorem doubleFactorial_admits (x : Float) : Admits preferDecimal (doubleFactorial x) :=
  .ite (fun _ => .double _) fun _ => .ite (fun _ => .double _) fun _ =>
    .ite (fun _ => trivial) fun _ => .ite (fun _ => .double _) fun _ => .double _

theorem decimalGamma_admits (preferred : preferDecimal = true) (d : Decimal) :
    Admits preferDecimal (decimalGamma d) := by
  unfold decimalGamma
  split
  · rename_i r rounded
    exact .decimal preferred ((Decimal.round_fits Decimal.engine_proper _).of_ok rounded)
  · exact .double _
  · trivial

theorem decimalFactorial_admits (preferred : preferDecimal = true) {d : Decimal}
    (fits : d.Fits .engine) : Admits preferDecimal (decimalFactorial d) := by
  refine .ite (fun _ => .decimal preferred fits) fun _ =>
    .ite (fun _ => decimalGamma_admits preferred d) fun _ => .ite (fun _ => trivial) fun _ => ?_
  split
  · rename_i r product
    exact .decimal preferred
      ((decimalProduct_fits (Decimal.ofNat_one_fits Decimal.engine_proper)).of_ok product)
  · exact doubleFactorial_admits _
  · trivial

theorem wordFactorial_admits (n : Int) (fits : fitsWord n = true) :
    Admits preferDecimal (wordFactorial preferDecimal n) := by
  refine .ite (fun _ => trivial) fun _ => ?_
  split
  · rename_i r product
    exact .integer (fitsWord_of_wordProduct? (by decide) product)
  · apply Ends.ite
    · intro preferred
      have wellFormed : (Value.integer n).WellFormed := fits
      exact (toDecimal_fits wellFormed).bind fun _ fits => decimalFactorial_admits preferred fits
    · intro _
      exact .after doubleFactorial_admits

theorem negateDecimal_admits (preferred : preferDecimal = true) (d : Decimal) :
    Admits preferDecimal (negateDecimal d) :=
  ((Decimal.negate_fits Decimal.engine_proper d).mapError fun _ _ => trivial).map
    fun _ fits => .decimal preferred fits

theorem fitsWord_neg {n : Int} (fits : fitsWord n = true) (other : n ≠ leastWord) :
    fitsWord (-n) = true := by
  rw [fitsWord_iff] at *
  unfold leastWord greatestWord at *
  omega

theorem fitsWord_complement {n : Int} (fits : fitsWord n = true) : fitsWord (-n - 1) = true := by
  rw [fitsWord_iff] at *
  unfold leastWord greatestWord at *
  omega

theorem apply_admits (op : UnaryOp) {v : Value} (admissible : v.Admissible preferDecimal) :
    Admits preferDecimal (op.apply preferDecimal v) := by
  cases op with
  | complement =>
    exact (toWord_fits admissible.wellFormed.1).map fun _ fits =>
      .integer (fitsWord_complement fits)
  | negate =>
    cases admissible with
    | empty => exact .integer (by decide)
    | decimal preferred fits => exact negateDecimal_admits preferred _
    | double x => exact .double _
    | integer fits =>
      apply Ends.ite
      · intro other
        exact .integer (fitsWord_neg fits other)
      · intro _
        exact .ite (fun preferred => .after (negateDecimal_admits preferred)) fun _ =>
          .after fun x => .double _
  | factorial =>
    cases admissible with
    | empty => exact .integer (by decide)
    | integer fits => exact wordFactorial_admits _ fits
    | decimal preferred fits => exact decimalFactorial_admits preferred fits
    | double x => exact doubleFactorial_admits x

end UnaryOp

end Reckoner
