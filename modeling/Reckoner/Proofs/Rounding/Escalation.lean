import Reckoner.Proofs.Display.Doubles
import Reckoner.Proofs.Rounding.Operators
import Reckoner.Proofs.Rounding.Wholes

namespace Reckoner

open Decimal (Context)

namespace Decimal

variable {ctx : Context}

abbrev Remains (x : Except Signal Decimal) : Prop :=
  Ends (fun d => d.isFinite = true) (fun signal => signal = .overflow) x

theorem isNan_of_finite {d : Decimal} (finite : d.isFinite = true) : d.isNan = false := by
  cases d with
  | notNumber | infinity => cases finite
  | finite => rfl

theorem round_remains (ctx : Context) {d : Decimal} (finite : d.isFinite = true) : Remains (ctx.round d) :=
  (round_overflows ctx (isNan_of_finite finite)).mono fun _ same => same.trans finite

theorem finiteQuotient_remains (ctx : Context) (s : Bool) (c₁ : Nat) (e₁ : Int) (c₂ : Nat) (e₂ : Int) :
    Remains (finiteQuotient ctx s c₁ e₁ c₂ e₂) := by
  have quotient (n d : Nat) (e : Int) : Remains (ctx.roundQuotient s n d e) :=
    .ite (fun _ => rfl) fun _ => .ite (fun _ => .ite (fun _ => rfl) fun _ => rfl) fun _ => rfl
  exact .ite (fun _ => round_remains ctx rfl) fun _ => .ite (fun _ => round_remains ctx rfl) fun _ =>
    quotient _ _ _

theorem powerBits_remains {base power : Decimal} {bits : List Bool} (first : base.isFinite = true)
    (finite : power.isFinite = true) : Remains (powerBits ctx base power bits) := by
  induction bits generalizing power with
  | nil => exact finite
  | cons bit bits ih =>
    apply (multiply_overflows ctx finite finite).bind
    intro square squared
    have rest (product : Decimal) (kept : product.isFinite = true) :
        Remains (if product.vanished then .ok product else powerBits ctx base product bits) :=
      .ite (fun _ => kept) fun _ => ih kept
    exact .ite (fun _ => (multiply_overflows ctx squared first).bind rest) fun _ => rest square squared

theorem powerSquares_remains {base power : Decimal} {bits : List Bool} (first : base.isFinite = true)
    (finite : power.isFinite = true) : Remains (powerSquares ctx base power bits) := by
  induction bits generalizing base power with
  | nil => exact finite
  | cons bit bits ih =>
    have rest (product : Decimal) (kept : product.isFinite = true) :
        Remains (if product.vanished || bits.isEmpty then .ok product
          else multiply ctx base base >>= fun square => powerSquares ctx square product bits) := by
      refine .ite (fun _ => kept) fun _ => ?_
      apply (multiply_overflows ctx first first).bind
      intro square squared
      exact ih squared kept
    exact .ite (fun _ => (multiply_overflows ctx finite first).bind rest) fun _ => rest power finite

theorem guardedPower_remains (work : Context) {c : Nat} (positive : c ≠ 0) (e : Int) (negative : Bool)
    (n : Nat) : Remains (guardedPower work c e negative n) := by
  have rest (base : Decimal) (kept : base.isFinite = true) : Remains (wholePower work base n) :=
    .ite (fun _ => powerBits_remains kept kept) fun _ => powerSquares_remains kept rfl
  have reciprocal : Remains (divide work (ofNat 1) (finite false c e)) := by
    rw [ofNat, divide, if_neg positive]
    exact finiteQuotient_remains work _ _ _ _ _
  exact .ite (fun _ => reciprocal.bind rest) fun _ => rest _ rfl

theorem powerOfOne_finite (ctx : Context) (s : Bool) (e : Int) (negative : Bool) (n : Nat) :
    (powerOfOne ctx s e negative n).isFinite = true := by
  unfold powerOfOne
  split <;> rfl

theorem opposite_finite {d : Decimal} (finite : d.isFinite = true) : d.opposite.isFinite = true := by
  cases d with
  | notNumber | infinity => cases finite
  | finite => rfl

theorem power_remains (ctx : Context) {a b : Decimal} {x y : ℚ} (left : a.number? = some x)
    (right : b.number? = some y) (notBoth : ¬ (x = 0 ∧ y = 0)) :
    if x = 0 ∧ y < 0 then ∃ s, power ctx a b = .ok (infinity s) else Remains (power ctx a b) := by
  have base := BinaryOp.isZero_iff left
  have exponent := BinaryOp.isZero_iff right
  have sign := isNegative_iff right
  obtain ⟨s, c, e, rfl, -⟩ := exists_finite left
  obtain ⟨t, cb, eb, rfl, -⟩ := exists_finite right
  cases c with
  | zero =>
    have zero : x = 0 := base.mp rfl
    have some : cb ≠ 0 := fun none => notBoth ⟨zero, exponent.mp (beq_iff_eq.mpr none)⟩
    cases t with
    | true =>
      have negative : y < 0 := sign.mp (bne_iff_ne.mpr some)
      rw [if_pos ⟨zero, negative⟩]
      exact ⟨_, if_neg some⟩
    | false =>
      have positive : ¬ y < 0 := fun negative => by cases sign.mpr negative
      rw [if_neg fun infinite => positive infinite.2, power, if_neg some]
      rfl
  | succ c =>
    have nonzero : x ≠ 0 := fun zero => by cases base.mpr zero
    rw [if_neg fun infinite => nonzero infinite.1]
    refine .ite (fun _ => rfl) fun _ => .ite (fun _ => powerOfOne_finite ..) fun _ => ?_
    apply (guardedPower_remains _ (Nat.succ_ne_zero c) e t _).bind
    intro power kept
    refine round_remains ctx ?_
    split
    · exact opposite_finite kept
    · exact kept

end Decimal

theorem decimalOfDouble_infinite {z : Float} (infinite : Binary64.isInfinite z = true) :
    ∃ s, decimalOfDouble z = .ok (.infinity s) := by
  unfold Binary64.isInfinite at infinite
  split at infinite
  · rename_i s kind
    refine ⟨s, ?_⟩
    rw [decimalOfDouble, Binary64.toDecimal, kind]
    rfl
  · cases infinite

theorem decimalOfDouble_finite {z : Float} (finite : Binary64.isInfinite z = false) :
    Ends (fun d => d.isFinite = true ∨ d = .nan) (fun signal => signal = .overflow) (decimalOfDouble z) := by
  rw [decimalOfDouble]
  cases kind : Binary64.parts z with
  | nan =>
    rw [Binary64.toDecimal, kind]
    dsimp only
    rw [Decimal.round_of_fits (Decimal.nan_fits Decimal.engine_proper)]
    exact .inr rfl
  | infinity =>
    rw [Binary64.isInfinite, kind] at finite
    cases finite
  | finite s m q =>
    rw [Binary64.toDecimal_of_parts kind]
    exact (Decimal.round_remains .engine rfl).mono fun _ => .inl

namespace BinaryOp

/-- Negative powers of zero, and roots and fractional powers that doubles have as an infinity. -/
def StaysInfinite (op : BinaryOp) (x y : ℚ) (z : Float) : Prop :=
  (op = power ∧ y.den = 1 ∧ x = 0 ∧ y < 0) ∨
    ((op = root ∨ (op = power ∧ y.den ≠ 1)) ∧ Binary64.isInfinite z = true)

variable {op : BinaryOp} {a b : Decimal} {x y : ℚ}

theorem throughDoubles_number (f : Float → Float → Float) (left : a.number? = some x)
    (right : b.number? = some y) : throughDoubles f a b =
      (decimalOfDouble (f (Binary64.ofDecimal a) (Binary64.ofDecimal b))).mapError .decimal := by
  rw [throughDoubles, doubleOfDecimal_quiet (quiet_of_number left),
    doubleOfDecimal_quiet (quiet_of_number right)]
  rfl

theorem bothZero_number (left : a.number? = some x) (right : b.number? = some y) :
    Decimal.bothZero a b = .ok (a.isZero && b.isZero) := by
  unfold Decimal.bothZero Decimal.equalsZero
  rw [quiet_of_number left, quiet_of_number right]
  cases a.isZero <;> rfl

theorem onDecimals_power (left : a.number? = some x) (right : b.number? = some y) :
    power.onDecimals a b = Except.mapError .decimal
      (if x = 0 ∧ y = 0 then .ok (.ofNat 1)
      else if y.den = 1 then Decimal.power .engine a b
      else decimalOfDouble (power.onDoubles (Binary64.ofDecimal a) (Binary64.ofDecimal b))) := by
  have zero : (a.isZero && b.isZero) = true ↔ x = 0 ∧ y = 0 := by
    rw [Bool.and_eq_true, isZero_iff left, isZero_iff right]
  rw [onDecimals, decimalPower, bothZero_number left right, throughDoubles_number _ left right]
  simp only [← zero, ← Decimal.isIntegral_iff right]
  show (if _ then _ else _) = _
  split
  · rfl
  split <;> rfl

theorem onDecimals_infinite (left : a.number? = some x) (right : b.number? = some y)
    (infinite : op.StaysInfinite x y (op.onDoubles (Binary64.ofDecimal a) (Binary64.ofDecimal b))) :
    ∃ s, op.onDecimals a b = .ok (.infinity s) := by
  have readBack {z : Float} (infinite : Binary64.isInfinite z = true) :
      ∃ s, (decimalOfDouble z).mapError Error.decimal = .ok (.infinity s) := by
    obtain ⟨s, result⟩ := decimalOfDouble_infinite infinite
    exact ⟨s, by rw [result]; rfl⟩
  rcases infinite with ⟨rfl, whole, zero, negative⟩ | ⟨rfl | ⟨rfl, fraction⟩, infinite⟩
  · have notBoth : ¬ (x = 0 ∧ y = 0) := fun both => negative.ne both.2
    have infinite := Decimal.power_remains .engine left right notBoth
    rw [if_pos ⟨zero, negative⟩] at infinite
    obtain ⟨s, result⟩ := infinite
    rw [onDecimals_power left right, if_neg notBoth, if_pos whole, result]
    exact ⟨s, rfl⟩
  · rw [onDecimals, throughDoubles_number _ left right]
    exact readBack infinite
  · have notBoth : ¬ (x = 0 ∧ y = 0) := fun both => fraction (both.2 ▸ rfl)
    rw [onDecimals_power left right, if_neg notBoth, if_neg fraction]
    exact readBack infinite

theorem onDecimals_finite (left : a.number? = some x) (right : b.number? = some y)
    (divisor : ¬ (op = divide ∧ y = 0))
    (finite : ¬ op.StaysInfinite x y (op.onDoubles (Binary64.ofDecimal a) (Binary64.ofDecimal b))) :
    Ends (fun d => d.isFinite = true ∨ d = .nan) (fun e => e = .decimal .overflow) (op.onDecimals a b) := by
  have overflows {r : Except Decimal.Signal Decimal}
      (ends : Ends (fun d => d.isFinite = true ∨ d = .nan) (fun signal => signal = .overflow) r) :
      Ends (fun d => d.isFinite = true ∨ d = .nan) (fun e => e = .decimal .overflow)
        (r.mapError Error.decimal) :=
    ends.mapError fun _ => congrArg Error.decimal
  have readBack (through : op = root ∨ (op = power ∧ y.den ≠ 1)) :=
    decimalOfDouble_finite (Bool.eq_false_iff.mpr fun infinite => finite (.inr ⟨through, infinite⟩))
  by_cases isRoot : op = root
  · subst isRoot
    rw [onDecimals, throughDoubles_number _ left right]
    exact overflows (readBack (.inl rfl))
  by_cases isPower : op = power
  · subst isPower
    rw [onDecimals_power left right]
    refine overflows (.ite (fun _ => .inl rfl) fun notBoth => .ite (fun whole => ?_) fun fraction => ?_)
    · have remains := Decimal.power_remains .engine left right notBoth
      rw [if_neg fun infinite => finite (.inl ⟨rfl, whole, infinite⟩)] at remains
      exact remains.mono fun _ => .inl
    · exact readBack (.inr ⟨rfl, fraction⟩)
  -- The result of any other operation is exact but for one rounding.
  obtain ⟨q, exact⟩ := exists_exact isRoot isPower divisor
  obtain ⟨r, result, rounds, -⟩ := onDecimals_rounds left right isPower exact
  rw [result]
  refine overflows ((rounds.weaken fun _ => And.left).mono fun d value => .inl ?_)
  obtain ⟨s, c, e, rfl, -⟩ := Decimal.exists_finite value
  rfl

theorem applyDecimals_escalates (left : a.number? = some x) (right : b.number? = some y)
    (divisor : ¬ (op = divide ∧ y = 0)) :
    let z := op.onDoubles (Binary64.ofDecimal a) (Binary64.ofDecimal b)
    (op.StaysInfinite x y z → ∃ s, op.applyDecimals a b = .ok (.decimal (.infinity s))) ∧
      (¬ op.StaysInfinite x y z → ∃ v, op.applyDecimals a b = .ok v ∧
        ((∃ d, v = .decimal d ∧ d.Fits .engine ∧ (d.isFinite = true ∨ d = .nan)) ∨ v = .double z)) := by
  have zero := isZero_iff right
  rw [applyDecimals, if_neg fun refused => divisor ⟨refused.1, zero.mp refused.2⟩,
    doubleOfDecimal_quiet (quiet_of_number left), doubleOfDecimal_quiet (quiet_of_number right)]
  constructor
  · intro infinite
    obtain ⟨s, result⟩ := onDecimals_infinite left right infinite
    rw [result]
    exact ⟨s, rfl⟩
  · intro finite
    have ends := onDecimals_finite left right divisor finite
    have fits := op.onDecimals_fits a b
    generalize op.onDecimals a b = r at ends fits ⊢
    cases r with
    | ok d => exact ⟨_, rfl, .inl ⟨d, rfl, fits, ends⟩⟩
    | error e =>
      obtain rfl : e = .decimal .overflow := ends
      exact ⟨_, rfl, .inr rfl⟩

end BinaryOp

theorem Value.Exact.toDouble {v : Value} {x : ℚ} (exact : v.Exact x) {d : Decimal}
    (decimal : v.toDecimal = .ok d) : v.toDouble = .ok (Binary64.ofDecimal d) := by
  cases exact with
  | empty =>
    cases decimal
    rfl
  | integer fits =>
    cases (toDecimal_word fits).symm.trans decimal
    rw [toDouble_word fits, Binary64.ofDecimal_ofInt fits]
  | decimal fits value =>
    cases decimal
    exact doubleOfDecimal_quiet (BinaryOp.quiet_of_number value)

theorem Value.Exact.toDecimal_whole {v : Value} {x : ℚ} {a : Int} (exact : v.Exact x) (value : x = a)
    (other : v.tag ≠ .decimal) : v.toDecimal = .ok (.ofInt a) := by
  cases exact with
  | empty =>
    obtain rfl : 0 = a := by exact_mod_cast value
    rfl
  | integer fits =>
    obtain rfl := Int.cast_injective value
    exact toDecimal_word fits
  | decimal => exact absurd rfl other

theorem Value.promote_decimals {left right : Value} {a b : Decimal}
    (promoted : left.promote right = .ok (.decimals a b)) :
    left.toDecimal = .ok a ∧ right.toDecimal = .ok b := by
  unfold promote at promoted
  split at promoted
  all_goals
    obtain ⟨first, toLeft, rest⟩ := bind_eq_ok.mp promoted
    obtain ⟨second, toRight, same⟩ := bind_eq_ok.mp rest
    cases same
  exact ⟨toLeft, toRight⟩

namespace BinaryOp

theorem applyWords_of_beyond {op : BinaryOp} {a b : Int} (left : fitsWord a = true)
    (right : fitsWord b = true) (beyond : ∀ n : Int, op.result? a b = some (n : ℚ) → fitsWord n = false) :
    op.applyWords true a b = op.applyDecimals (.ofInt a) (.ofInt b) := by
  have wide := applyWide_decimals op left right
  by_cases isRoot : op = root
  · subst isRoot
    exact wide
  have words := onWords_exact isRoot a b
  rw [applyWords]
  split at words
  · rename_i division
    obtain ⟨rfl, zero⟩ := division
    obtain rfl : b = 0 := by exact_mod_cast zero
    rfl
  · obtain ⟨r, result, exact⟩ := words
    cases r with
    | none =>
      rw [result]
      exact wide
    | some n =>
      obtain ⟨value, fits⟩ := (exact n).mp rfl
      rw [beyond n value] at fits
      cases fits

theorem apply_of_reaches {preferDecimal : Bool} {op : BinaryOp} {left right : Value} {x y : ℚ}
    (first : left.Exact x) (second : right.Exact y)
    (reaches : op.ReachesDecimals preferDecimal left right x y) {d e : Decimal}
    (toLeft : left.toDecimal = .ok d) (toRight : right.toDecimal = .ok e) :
    op.apply preferDecimal left right = op.applyDecimals d e := by
  obtain ⟨operands, promoted, exactly⟩ := first.promote second
  rw [apply, promoted]
  cases exactly with
  | words notDecimal fits fits' =>
    obtain ⟨rfl, beyond⟩ := (reaches.resolve_left notDecimal.1).resolve_left notDecimal.2
    cases (first.toDecimal_whole rfl notDecimal.1).symm.trans toLeft
    cases (second.toDecimal_whole rfl notDecimal.2).symm.trans toRight
    exact applyWords_of_beyond fits fits' beyond
  | decimals =>
    obtain ⟨toLeft', toRight'⟩ := Value.promote_decimals promoted
    cases toLeft'.symm.trans toLeft
    cases toRight'.symm.trans toRight
    rfl

/-- Operations that are done on finite decimals leave them for doubles where their result is out of range:
    then it is that of the operator on the operands' doubles. But negative powers of zero stay infinite
    decimals, and so do roots and fractional powers that are infinite already as doubles. -/
theorem apply_escalates {preferDecimal : Bool} {op : BinaryOp} {left right : Value} {x y : ℚ}
    (first : left.Exact x) (second : right.Exact y)
    (reaches : op.ReachesDecimals preferDecimal left right x y) :
    ∃ f g, left.toDouble = .ok f ∧ right.toDouble = .ok g ∧
      if op = divide ∧ y = 0 then op.apply preferDecimal left right = .error .zeroDivision
      else
        (op.StaysInfinite x y (op.onDoubles f g) →
          ∃ s, op.apply preferDecimal left right = .ok (.decimal (.infinity s))) ∧
        (¬ op.StaysInfinite x y (op.onDoubles f g) → ∃ v, op.apply preferDecimal left right = .ok v ∧
          ((∃ d, v = .decimal d ∧ d.Fits .engine ∧ (d.isFinite = true ∨ d = .nan)) ∨
            ((∃ z, v = .double z) ∧ op.apply preferDecimal (.double f) (.double g) = .ok v))) := by
  obtain ⟨d, toLeft, leftValue⟩ := first.toDecimal
  obtain ⟨e, toRight, rightValue⟩ := second.toDecimal
  refine ⟨_, _, first.toDouble toLeft, second.toDouble toRight, ?_⟩
  rw [apply_of_reaches first second reaches toLeft toRight]
  split
  · rename_i division
    exact if_pos ⟨division.1, (isZero_iff rightValue).mpr division.2⟩
  · rename_i divisor
    obtain ⟨infinite, finite⟩ := applyDecimals_escalates leftValue rightValue divisor
    refine ⟨infinite, fun escalates => ?_⟩
    obtain ⟨v, result, decimal | rfl⟩ := finite escalates
    · exact ⟨v, result, .inl decimal⟩
    · exact ⟨_, result, .inr ⟨⟨_, rfl⟩, rfl⟩⟩

theorem product_escalates :
    (Value.decimal (.finite false 1 28)).Exact (10 ^ 28) ∧ (Value.integer 10).Exact (10 : Int) ∧
      multiply.ReachesDecimals false (.decimal (.finite false 1 28)) (.integer 10) (10 ^ 28) (10 : Int) ∧
      ∃ v, multiply.apply false (.decimal (.finite false 1 28)) (.integer 10) = .ok v ∧
        (∀ d, v ≠ .decimal d) ∧ ∃ f g, (Value.decimal (.finite false 1 28)).toDouble = .ok f ∧
          (Value.integer 10).toDouble = .ok g ∧ multiply.apply false (.double f) (.double g) = .ok v := by
  have fits : (Decimal.finite false 1 28).Fits .engine := by
    have one : digitCount 1 = 1 := digitCount_of_lt (by decide)
    refine ⟨?_, by decide, ?_⟩
    · rw [one]
      decide
    · rw [Decimal.adjusted, one]
      decide
  have first : (Value.decimal (.finite false 1 28)).Exact (10 ^ 28) :=
    .decimal fits (by norm_num [Decimal.number?, Decimal.signed])
  have second : (Value.integer 10).Exact (10 : Int) := .integer (by decide)
  have reaches : multiply.ReachesDecimals false (.decimal (.finite false 1 28)) (.integer 10) (10 ^ 28)
      (10 : Int) := .inl rfl
  have overflow : Decimal.multiply .engine (.finite false 1 28) (.ofInt 10) = .error .overflow := by
    refine Decimal.round_of_above (by decide : 0 < 1 * 10) ?_
    show 28 < (digitCount (tenTo 1) : Int) + 28 - 1
    rw [digitCount_tenTo]
    decide
  have applied := apply_of_reaches first second reaches rfl (Value.toDecimal_word (by decide))
  refine ⟨first, second, reaches, ?_⟩
  obtain ⟨f, g, toLeft, toRight, result⟩ := apply_escalates first second reaches
  rw [if_neg (by decide)] at result
  obtain ⟨v, ran, ⟨d, rfl, -⟩ | ⟨⟨z, rfl⟩, doubles⟩⟩ := result.2 (by simp [StaysInfinite])
  · rw [applied, applyDecimals, if_neg (by decide), onDecimals, overflow] at ran
    cases ran
  · refine ⟨_, ran, fun d same => ?_, f, g, toLeft, toRight, doubles⟩
    cases same

/-- The reciprocal of zero as a power is an infinite decimal, and an infinite double on doubles. -/
theorem zero_power_infinite :
    (Value.integer 0).Exact (0 : Int) ∧ (Value.integer (-1)).Exact (-1 : Int) ∧
      power.ReachesDecimals true (.integer 0) (.integer (-1)) (0 : Int) (-1 : Int) ∧
      power.apply true (.integer 0) (.integer (-1)) = .ok (.decimal (.infinity false)) := by
  have first : (Value.integer 0).Exact (0 : Int) := .integer (by decide)
  have second : (Value.integer (-1)).Exact (-1 : Int) := .integer (by decide)
  have reaches : power.ReachesDecimals true (.integer 0) (.integer (-1)) (0 : Int) (-1 : Int) :=
    .inr (.inr ⟨rfl, fun n exact => by simp [result?] at exact⟩)
  refine ⟨first, second, reaches, ?_⟩
  rw [apply_of_reaches first second reaches (Value.toDecimal_word (by decide))
    (Value.toDecimal_word (by decide))]
  rfl

end BinaryOp

end Reckoner
