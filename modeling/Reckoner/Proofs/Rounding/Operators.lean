import Reckoner.Proofs.Modes.Operators
import Reckoner.Proofs.Rounding.Decimals

namespace Reckoner

open Decimal (Context)

namespace BinaryOp

/-- The exact result, if there is one. Zero has no negative power, and a power with a fractional
    exponent and a root need not be rational numbers. -/
def result? (op : BinaryOp) (x y : ℚ) : Option ℚ :=
  match op with
  | add => some (x + y)
  | subtract => some (x - y)
  | multiply => some (x * y)
  | divide => if y = 0 then none else some (x / y)
  | power => if y.den ≠ 1 ∨ (x = 0 ∧ y < 0) then none else some (x ^ y.num)
  | root => none

theorem result?_power (a b : Int) :
    power.result? a b = if a = 0 ∧ b < 0 then none else some ((a : ℚ) ^ b) := by
  simp [result?]

theorem zpow_ne_intCast {a b : Int} (some : a ≠ 0) (other : a ≠ 1 ∧ a ≠ -1) (negative : b < 0) (n : Int) :
    (a : ℚ) ^ b ≠ n := by
  intro whole
  obtain ⟨k, rfl⟩ : ∃ k : Nat, b = -(k + 1 : Nat) := ⟨(-b - 1).toNat, by omega⟩
  have nonzero : (a : ℚ) ^ (k + 1) ≠ 0 := pow_ne_zero _ (by exact_mod_cast some)
  rw [zpow_neg, zpow_natCast, eq_comm, ← mul_eq_one_iff_eq_inv₀ nonzero] at whole
  have product : n * a ^ (k + 1) = 1 := by exact_mod_cast whole
  have unit : IsUnit a := isUnit_pow_succ_iff.mp (.of_mul_eq_one_right n product)
  exact absurd (Int.isUnit_iff.mp unit) (by omega)

theorem not_fitsWord_pow {a : Int} (large : 2 ≤ a.natAbs) {k : Nat} (high : 63 < k) :
    fitsWord (a ^ k) = false := by
  have power : 2 ^ 64 ≤ (a ^ k).natAbs := by
    rw [Int.natAbs_pow]
    calc 2 ^ 64 ≤ 2 ^ k := Nat.pow_le_pow_right (by decide) high
      _ ≤ a.natAbs ^ k := Nat.pow_le_pow_left large k
  rw [Bool.eq_false_iff]
  intro fits
  have small := natAbs_le_of_fitsWord fits
  omega

theorem filter_fitsWord_eq {m n : Int} :
    (some m).filter fitsWord = some n ↔ (m : ℚ) = n ∧ fitsWord n = true := by
  rw [Option.filter_eq_some_iff, Option.some_inj, Int.cast_inj]

theorem wordPower?_exact (a b n : Int) :
    wordPower? a b = some n ↔ power.result? a b = some (n : ℚ) ∧ fitsWord n = true := by
  have single {m : Int} (fits : fitsWord m = true) :
      some m = some n ↔ some (m : ℚ) = some (n : ℚ) ∧ fitsWord n = true := by
    rw [Option.some_inj, Option.some_inj, Int.cast_inj]
    exact ⟨fun same => ⟨same, same ▸ fits⟩, And.left⟩
  rw [result?_power]
  -- Powers of one, minus one and zero are words whatever the exponent; others leave 64 bits early.
  unfold wordPower?
  by_cases one : a = 1
  · have exact := single (m := 1) (by decide)
    simpa [one] using exact
  by_cases minus : a = -1
  · subst minus
    rcases Int.emod_two_eq b with even | odd
    · have exact := single (m := 1) (by decide)
      simpa [even, (Int.even_iff.mpr even).neg_one_zpow] using exact
    · have exact := single (m := -1) (by decide)
      simpa [odd, (Int.odd_iff.mpr odd).neg_one_zpow] using exact
  rw [if_neg one, if_neg minus]
  by_cases negative : b < 0
  · rw [if_pos negative]
    by_cases zero : a = 0
    · simp [zero, negative]
    · have fraction := zpow_ne_intCast zero ⟨one, minus⟩ negative n
      simp [zero, fraction]
  obtain ⟨k, rfl⟩ := Int.eq_ofNat_of_zero_le (Int.not_lt.mp negative)
  rw [if_neg negative, if_neg (by omega : ¬ (a = 0 ∧ (k : Int) < 0)), zpow_natCast]
  by_cases zero : a = 0
  · rw [if_pos zero, zero]
    rcases Nat.eq_zero_or_pos k with rfl | positive
    · exact_mod_cast single (m := 1) (by decide)
    · rw [if_neg (by omega), Int.cast_zero, zero_pow (by omega)]
      exact_mod_cast single (m := 0) (by decide)
  rw [if_neg zero, Option.some_inj, ← Int.cast_pow]
  by_cases high : 63 < (k : Int)
  · rw [if_pos high, Int.cast_inj]
    have beyond := not_fitsWord_pow (a := a) (by omega) (k := k) (by omega)
    constructor
    · nofun
    · rintro ⟨rfl, fits⟩
      rw [beyond] at fits
      cases fits
  · rw [if_neg high]
    exact filter_fitsWord_eq

theorem onWords_exact {op : BinaryOp} (notRoot : op ≠ root) (a b : Int) :
    if op = divide ∧ (b : ℚ) = 0 then op.onWords a b = .error .zeroDivision
    else ∃ r, op.onWords a b = .ok r ∧
      ∀ n, r = some n ↔ op.result? a b = some (n : ℚ) ∧ fitsWord n = true := by
  have whole {m : Int} {x : ℚ} (value : x = m) (n : Int) :
      (some m).filter fitsWord = some n ↔ some x = some (n : ℚ) ∧ fitsWord n = true := by
    rw [filter_fitsWord_eq, Option.some_inj, value]
  cases op with
  | root => exact absurd rfl notRoot
  | add => exact ⟨_, rfl, whole (Int.cast_add a b).symm⟩
  | subtract => exact ⟨_, rfl, whole (Int.cast_sub a b).symm⟩
  | multiply => exact ⟨_, rfl, whole (Int.cast_mul a b).symm⟩
  | power => exact ⟨_, rfl, wordPower?_exact a b⟩
  | divide =>
    by_cases zero : b = 0
    · rw [if_pos ⟨rfl, by exact_mod_cast zero⟩]
      exact if_pos zero
    have cast : (b : ℚ) ≠ 0 := by exact_mod_cast zero
    have division : divide.result? a b = some (a / b : ℚ) := if_neg cast
    rw [if_neg fun division => cast division.2, division]
    unfold onWords
    dsimp only
    rw [if_neg zero]
    split
    · rename_i rest
      refine ⟨_, rfl, fun n => ⟨nofun, fun ⟨quotient, _⟩ => ?_⟩⟩
      rw [Option.some_inj, div_eq_iff cast] at quotient
      have product : a = n * b := by exact_mod_cast quotient
      exact absurd (by rw [product, Int.mul_emod_left]) rest
    · rename_i exact
      have divides := Int.dvd_of_emod_eq_zero (not_not.mp exact)
      exact ⟨_, rfl, whole (Int.cast_div divides cast).symm⟩

/-- A result on decimals: the number of the engine's context nearest to the exact one, or a double if that
    is out of range. -/
def Nearest (q : ℚ) (v : Value) : Prop :=
  if |Context.engine.grid.round q| ≤ Context.engine.greatest then
    ∃ d, v = .decimal d ∧ d.Fits .engine ∧ d.number? = some (Context.engine.grid.round q)
  else ∃ z, v = .double z

theorem isZero_iff {d : Decimal} {x : ℚ} (value : d.number? = some x) : d.isZero = true ↔ x = 0 := by
  obtain ⟨s, c, e, rfl, rfl⟩ := Decimal.exists_finite value
  have power : (10 : ℚ) ^ e ≠ 0 := zpow_ne_zero e (by norm_num)
  cases s <;> simp [Decimal.isZero, negatedIf, power]

theorem onDecimals_rounds {op : BinaryOp} {a b : Decimal} {x y q : ℚ} (left : a.number? = some x)
    (right : b.number? = some y) (notPower : op ≠ power) (exact : op.result? x y = some q) :
    ∃ r, op.onDecimals a b = r.mapError .decimal ∧ Context.engine.Rounds q r ∧
      Decimal.Fitting .engine r := by
  have proper := Decimal.engine_proper
  cases op with
  | root => cases exact
  | power => exact absurd rfl notPower
  | add =>
    cases exact
    exact ⟨_, rfl, Decimal.add_rounds proper left right, Decimal.add_fits proper a b⟩
  | subtract =>
    cases exact
    exact ⟨_, rfl, Decimal.subtract_rounds proper left right, Decimal.add_fits proper a b.opposite⟩
  | multiply =>
    cases exact
    exact ⟨_, rfl, Decimal.multiply_rounds proper left right, Decimal.multiply_fits proper a b⟩
  | divide =>
    unfold result? at exact
    dsimp only at exact
    split at exact
    · cases exact
    · cases exact
      exact ⟨_, rfl, Decimal.divide_rounds proper left right ‹_›, Decimal.divide_fits proper a b⟩

theorem quiet_of_number {d : Decimal} {x : ℚ} (value : d.number? = some x) : d.isSignaling = false := by
  obtain ⟨s, c, e, rfl, -⟩ := Decimal.exists_finite value
  rfl

theorem applyDecimals_nearest (op : BinaryOp) {a b : Decimal} {x y : ℚ} (left : a.number? = some x)
    (right : b.number? = some y) :
    if op = divide ∧ y = 0 then op.applyDecimals a b = .error .zeroDivision
    else ∃ v, op.applyDecimals a b = .ok v ∧
      (op ≠ power → ∀ q, op.result? x y = some q → Nearest q v) := by
  have zero := isZero_iff right
  by_cases division : op = divide ∧ y = 0
  · rw [if_pos division, applyDecimals, if_pos ⟨division.1, zero.mpr division.2⟩]
  have divisor : ¬ (op = divide ∧ b.isZero = true) := fun refused => division ⟨refused.1, zero.mp refused.2⟩
  have quiet := quiet_of_number left
  have quiet' := quiet_of_number right
  obtain ⟨v, applied⟩ : ∃ v, op.applyDecimals a b = .ok v := by
    rcases applyDecimals_succeeds quiet quiet' divisor with
      ⟨d, applied, -⟩ | ⟨x, applied⟩ <;> exact ⟨_, applied⟩
  rw [if_neg division]
  refine ⟨v, applied, fun notPower q exact => ?_⟩
  obtain ⟨r, result, rounds, fits⟩ := onDecimals_rounds left right notPower exact
  have nearest := rounds.cases fits
  rw [applyDecimals, if_neg divisor, result, doubleOfDecimal_quiet quiet, doubleOfDecimal_quiet quiet']
    at applied
  cases r with
  | ok d =>
    cases applied
    simpa [Nearest] using nearest
  | error signal =>
    cases signal with
    | overflow =>
      cases applied
      simpa [Nearest] using nearest
    | invalid => simp at nearest

end BinaryOp

/-- An operand that denotes a number exactly: nothing, a whole number of 64 bits or a finite decimal of the
    engine's context. -/
inductive Value.Exact : Value → ℚ → Prop
  | empty : Exact .empty 0
  | integer {n : Int} (fits : fitsWord n = true) : Exact (.integer n) n
  | decimal {d : Decimal} {x : ℚ} (fits : d.Fits .engine) (value : d.number? = some x) :
      Exact (.decimal d) x

theorem Value.Exact.toDecimal {v : Value} {x : ℚ} (exact : v.Exact x) :
    ∃ d, v.toDecimal = .ok d ∧ d.number? = some x := by
  cases exact with
  | empty => exact ⟨_, rfl, by simp [Decimal.ofNat, Decimal.number?, Decimal.signed]⟩
  | decimal fits value => exact ⟨_, rfl, value⟩
  | @integer n fits =>
    exact ⟨_, toDecimal_word fits, by rw [Decimal.ofInt, Decimal.number?_whole, Decimal.signed_natAbs]⟩

/-- The operands as they are brought to one representation. -/
inductive Value.Promoted (left right : Value) : ℚ → ℚ → Operands → Prop
  | words {a b : Int} (notDecimal : left.tag ≠ .decimal ∧ right.tag ≠ .decimal)
      (first : fitsWord a = true) (second : fitsWord b = true) : Promoted left right a b (.words a b)
  | decimals {x y : ℚ} {a b : Decimal} (notWhole : ¬ (left.Whole ∧ right.Whole))
      (first : a.number? = some x) (second : b.number? = some y) : Promoted left right x y (.decimals a b)

theorem Value.Exact.promote {left right : Value} {x y : ℚ} (first : left.Exact x) (second : right.Exact y) :
    ∃ operands, left.promote right = .ok operands ∧ left.Promoted right x y operands := by
  obtain ⟨d, toLeft, leftValue⟩ := first.toDecimal
  obtain ⟨e, toRight, rightValue⟩ := second.toDecimal
  have decimals :
      (do return Operands.decimals (← left.toDecimal) (← right.toDecimal) : Except Error Operands) =
        .ok (.decimals d e) := by
    rw [toLeft, toRight]
    rfl
  have zero : ((0 : Int) : ℚ) = 0 := Int.cast_zero
  cases first with
  | empty =>
    cases second with
    | empty => exact ⟨_, rfl, zero ▸ .words ⟨nofun, nofun⟩ rfl rfl⟩
    | integer fits => exact ⟨_, rfl, zero ▸ .words ⟨nofun, nofun⟩ rfl fits⟩
    | decimal => exact ⟨_, decimals, .decimals nofun leftValue rightValue⟩
  | integer fits =>
    cases second with
    | empty => exact ⟨_, rfl, zero ▸ .words ⟨nofun, nofun⟩ fits rfl⟩
    | integer fits' => exact ⟨_, rfl, .words ⟨nofun, nofun⟩ fits fits'⟩
    | decimal => exact ⟨_, decimals, .decimals nofun leftValue rightValue⟩
  | decimal =>
    cases second <;> exact ⟨_, decimals, .decimals nofun leftValue rightValue⟩

namespace BinaryOp

theorem exists_exact {op : BinaryOp} (notRoot : op ≠ root) (notPower : op ≠ power) {x y : ℚ}
    (divisor : ¬ (op = divide ∧ y = 0)) : ∃ q, op.result? x y = some q := by
  cases op with
  | add | subtract | multiply => exact ⟨_, rfl⟩
  | divide => exact ⟨_, if_neg fun zero => divisor ⟨rfl, zero⟩⟩
  | root => exact absurd rfl notRoot
  | power => exact absurd rfl notPower

/-- The operation is done on decimals: an operand is one, or decimals are preferred and the exact result on
    whole numbers is none of 64 bits. -/
def ReachesDecimals (preferDecimal : Bool) (op : BinaryOp) (left right : Value) (x y : ℚ) : Prop :=
  left.tag = .decimal ∨ right.tag = .decimal ∨
    (preferDecimal = true ∧ ∀ n : Int, op.result? x y = some (n : ℚ) → fitsWord n = false)

theorem applyWide_nearest (preferDecimal : Bool) {op : BinaryOp} {a b : Int}
    (left : fitsWord a = true) (right : fitsWord b = true) (divisor : ¬ (op = divide ∧ (b : ℚ) = 0)) :
    ∃ v, op.applyWide preferDecimal (.integer a) (.integer b) = .ok v ∧ (∀ n, v ≠ .integer n) ∧
      (preferDecimal = true → op ≠ power → ∀ q, op.result? a b = some q → Nearest q v) := by
  obtain ⟨v, wide, other⟩ := applyWide_leavesWhole left right
    (fun division zero => divisor ⟨division, by exact_mod_cast zero⟩) preferDecimal
  have admissible : v.Admissible preferDecimal := (op.applyWide_admits _ _).of_ok wide
  refine ⟨v, wide, ?_, ?_⟩
  · rintro n rfl
    cases admissible with
    | integer fits => exact other fits
  · rintro rfl
    obtain ⟨d, toLeft, leftValue⟩ := (Value.Exact.integer left).toDecimal
    obtain ⟨e, toRight, rightValue⟩ := (Value.Exact.integer right).toDecimal
    have nearest := applyDecimals_nearest op leftValue rightValue
    have decimals : op.applyWide true (.integer a) (.integer b) = op.applyDecimals d e := by
      rw [applyWide, toLeft, toRight]
      rfl
    rw [if_neg divisor, ← decimals] at nearest
    obtain ⟨v', same, rounds⟩ := nearest
    cases wide.symm.trans same
    exact rounds

theorem applyWords_exact (preferDecimal : Bool) {op : BinaryOp} (notRoot : op ≠ root) {a b : Int}
    (left : fitsWord a = true) (right : fitsWord b = true) :
    if op = divide ∧ (b : ℚ) = 0 then op.applyWords preferDecimal a b = .error .zeroDivision
    else ∃ v, op.applyWords preferDecimal a b = .ok v ∧
      (∀ n, v = .integer n ↔ op.result? a b = some (n : ℚ) ∧ fitsWord n = true) ∧
      (preferDecimal = true → op ≠ power → (∀ n, v ≠ .integer n) →
        ∀ q, op.result? a b = some q → Nearest q v) := by
  have words := onWords_exact notRoot a b
  unfold applyWords
  split at words
  · rename_i division
    rw [if_pos division, words]
    rfl
  rename_i divisor
  obtain ⟨r, result, exact⟩ := words
  rw [if_neg divisor, result]
  cases r with
  | some m =>
    refine ⟨.integer m, rfl, fun n => ?_, fun _ _ other => absurd rfl (other m)⟩
    rw [← exact n, Value.integer.injEq, Option.some_inj]
  | none =>
    obtain ⟨v, wide, other, nearest⟩ :=
      applyWide_nearest preferDecimal left right divisor
    refine ⟨v, wide, fun n => ?_, fun preferred notPower _ => nearest preferred notPower⟩
    rw [← exact n]
    exact ⟨fun same => absurd same (other n), nofun⟩

/-- Operations are exact as far as representations go. On whole numbers the result is the exact one if this
    is a whole number of 64 bits, and else no whole number; on decimals it is the exact one rounded once,
    or a double out of range. Nothing fails but division by zero. -/
theorem apply_exact (preferDecimal : Bool) {op : BinaryOp} (notRoot : op ≠ root) {left right : Value}
    {x y : ℚ} (first : left.Exact x) (second : right.Exact y) :
    if op = divide ∧ y = 0 then op.apply preferDecimal left right = .error .zeroDivision
    else ∃ v, op.apply preferDecimal left right = .ok v ∧
      (left.Whole → right.Whole →
        ∀ n, v = .integer n ↔ op.result? x y = some (n : ℚ) ∧ fitsWord n = true) ∧
      (op ≠ power → op.ReachesDecimals preferDecimal left right x y →
        ∃ q, op.result? x y = some q ∧ Nearest q v) := by
  obtain ⟨operands, promoted, exactly⟩ := first.promote second
  unfold apply
  rw [promoted]
  cases exactly with
  | words notDecimal fits fits' =>
    have words := applyWords_exact preferDecimal notRoot fits fits'
    split
    · rename_i division
      rwa [if_pos division] at words
    rename_i divisor
    rw [if_neg divisor] at words
    obtain ⟨v, result, integer, nearest⟩ := words
    refine ⟨v, result, fun _ _ => integer, fun notPower reaches => ?_⟩
    obtain ⟨q, exact⟩ := exists_exact notRoot notPower divisor
    obtain ⟨preferred, beyond⟩ := (reaches.resolve_left notDecimal.1).resolve_left notDecimal.2
    refine ⟨q, exact, nearest preferred notPower (fun n same => ?_) q exact⟩
    obtain ⟨value, fits⟩ := (integer n).mp same
    rw [beyond n value] at fits
    cases fits
  | decimals notWhole left right =>
    have nearest := applyDecimals_nearest op left right
    split
    · rename_i division
      rwa [if_pos division] at nearest
    rename_i divisor
    rw [if_neg divisor] at nearest
    obtain ⟨v, result, rounds⟩ := nearest
    refine ⟨v, result, fun whole whole' => absurd ⟨whole, whole'⟩ notWhole, fun notPower _ => ?_⟩
    obtain ⟨q, exact⟩ := exists_exact notRoot notPower divisor
    exact ⟨q, exact, rounds notPower q exact⟩

theorem leastWord_divided :
    divide ≠ root ∧ (Value.integer leastWord).Exact (leastWord : Int) ∧
      (Value.integer (-1)).Exact (-1 : Int) ∧
      ∃ v, divide.apply true (.integer leastWord) (.integer (-1)) = .ok v ∧ (∀ n, v ≠ .integer n) ∧
        Nearest 9223372036854775808 v := by
  have first : (Value.integer leastWord).Exact (leastWord : Int) := .integer (by decide)
  have second : (Value.integer (-1)).Exact (-1 : Int) := .integer (by decide)
  have quotient : divide.result? (leastWord : Int) (-1 : Int) = some 9223372036854775808 := by
    norm_num [result?, leastWord]
  have beyond (n : Int) (exact : divide.result? (leastWord : Int) (-1 : Int) = some (n : ℚ)) :
      fitsWord n = false := by
    rw [quotient, Option.some_inj] at exact
    have value : 9223372036854775808 = n := by exact_mod_cast exact
    subst value
    decide
  have result := apply_exact true (by decide : divide ≠ root) first second
  rw [if_neg (by norm_num)] at result
  obtain ⟨v, applied, integer, nearest⟩ := result
  obtain ⟨q, exact, rounds⟩ := nearest nofun (.inr (.inr ⟨rfl, beyond⟩))
  cases quotient.symm.trans exact
  refine ⟨nofun, first, second, v, applied, fun n same => ?_, rounds⟩
  obtain ⟨value, fits⟩ := (integer rfl rfl n).mp same
  rw [beyond n value] at fits
  cases fits

end BinaryOp

end Reckoner
