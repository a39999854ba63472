import Reckoner.Arithmetic.Word
import Reckoner.Proofs.Rounding.Decimals
import Reckoner.Proofs.Values.Operators

namespace Reckoner

/-- The whole number next to a number on the side of zero. -/
def towardZero (x : ℚ) : Int := if 0 ≤ x then ⌊x⌋ else ⌈x⌉

theorem towardZero_intCast (n : Int) : towardZero n = n := by
  unfold towardZero
  split
  · exact Int.floor_intCast n
  · exact Int.ceil_intCast n

theorem towardZero_negatedIf (s : Bool) {x : ℚ} {n : Nat} (positive : 0 ≤ x) (floor : ⌊x⌋ = n) :
    towardZero (negatedIf s x) = Decimal.signed s n := by
  cases s with
  | false =>
    show towardZero x = n
    rw [towardZero, if_pos positive, floor]
  | true =>
    show towardZero (-x) = -(n : Int)
    unfold towardZero
    split
    · have zero : x = 0 := by linarith
      rw [zero, Int.floor_zero] at floor
      rw [zero, neg_zero, Int.floor_zero]
      omega
    · rw [Int.ceil_neg, floor]

theorem floor_scaled (base c : Nat) (e : Int) :
    ⌊(c : ℚ) * (base : ℚ) ^ e⌋ =
      ((if 0 ≤ e then c * base ^ e.toNat else c / base ^ (-e).toNat : Nat) : Int) := by
  split
  · rename_i whole
    obtain ⟨k, rfl⟩ := Int.eq_ofNat_of_zero_le whole
    rw [zpow_natCast, Int.toNat_natCast]
    exact_mod_cast Int.floor_natCast (c * base ^ k)
  · rename_i fraction
    obtain ⟨k, rfl⟩ : ∃ k : Nat, e = -k := ⟨(-e).toNat, by omega⟩
    rw [zpow_neg, zpow_natCast, ← div_eq_mul_inv, neg_neg, Int.toNat_natCast, ← Nat.cast_pow]
    exact Rat.floor_natCast_div_natCast c (base ^ k)

theorem Decimal.toInt?_down (d : Decimal) : d.toInt? .down = d.number?.map towardZero := by
  cases d with
  | notNumber | infinity => rfl
  | finite s c e =>
    have floor : ⌊(c : ℚ) * 10 ^ e⌋ = wholeMagnitude .down s c e := floor_scaled 10 c e
    rw [number?_finite, Option.map_some, towardZero_negatedIf s (by positivity) floor]
    rfl

namespace Binary64

theorem toInt?_down (x : Float) : toInt? .down x = (number? x).map towardZero := by
  cases kind : parts x with
  | nan | infinity => rw [toInt?, number?, kind]; rfl
  | finite s m q =>
    have floor : ⌊(m : ℚ) * 2 ^ q⌋ = _ := floor_scaled 2 m q
    rw [number?_of_parts kind, Option.map_some, towardZero_negatedIf s (by positivity) floor, toInt?, kind]
    rfl

end Binary64

namespace Value

/-- The value truncated toward zero, if it is finite and fits 64 bits. -/
def word? (v : Value) : Option Int := (v.number?.map towardZero).filter fitsWord

/-- What is reported of a value that is no word. -/
def wordFault (v : Value) : EvalFault := if v.number?.isNone then .noInteger v else .beyondWord v

/-- A whole number is one of 64 bits, as all values on a stack are. -/
def Bounded (v : Value) : Prop := ∀ n, v = .integer n → fitsWord n = true

theorem checkedWord_eq (v : Value) :
    checkedWord v (v.number?.map towardZero) =
      match v.word? with
      | some n => .ok n
      | none => .error (.eval v.wordFault) := by
  unfold word? wordFault
  cases v.number? with
  | none => rfl
  | some x =>
    rw [Option.map_some, checkedWord]
    by_cases fits : fitsWord (towardZero x) = true
    · rw [if_pos fits, Option.filter_some, if_pos fits]
    · rw [if_neg fits, Option.filter_some, if_neg fits]
      rfl

theorem word?_integer {n : Int} (fits : fitsWord n = true) : (integer n).word? = some n := by
  rw [word?, number?, Option.map_some, towardZero_intCast, Option.filter_some, if_pos fits]

theorem toWord_eq {v : Value} (bounded : v.Bounded) :
    v.toWord = match v.word? with
      | some n => .ok n
      | none => .error (.eval v.wordFault) := by
  cases v with
  | empty =>
    have zero : empty.word? = some 0 := by
      simp [word?, number?, towardZero, fitsWord, leastWord, greatestWord]
    rw [zero]
    rfl
  | integer n =>
    rw [word?_integer (bounded n rfl)]
    rfl
  | decimal d =>
    rw [toWord, d.toInt?_down]
    exact checkedWord_eq (.decimal d)
  | double x =>
    rw [toWord, Binary64.toInt?_down]
    exact checkedWord_eq (.double x)

theorem toWord_of_some {v : Value} (bounded : v.Bounded) {n : Int} (word : v.word? = some n) :
    v.toWord = .ok n := by
  rw [toWord_eq bounded, word]

theorem toWord_of_none {v : Value} (bounded : v.Bounded) (word : v.word? = none) :
    v.toWord = .error (.eval v.wordFault) := by
  rw [toWord_eq bounded, word]

end Value

theorem toInt_ofInt_of_fits {n : Int} (fits : fitsWord n = true) : (BitVec.ofInt 64 n).toInt = n := by
  rw [fitsWord_iff] at fits
  unfold leastWord greatestWord at fits
  rw [BitVec.toInt_ofInt]
  exact Int.bmod_eq_of_le (by omega) (by omega)

theorem wrapWord_toInt (x : BitVec 64) : wrapWord x.toInt = x.toInt := by
  conv_rhs => rw [← BitVec.ofInt_toInt (x := x), BitVec.toInt_ofInt]
  rfl

theorem fitsWord_toInt (x : BitVec 64) : fitsWord x.toInt = true :=
  wrapWord_toInt x ▸ fitsWord_wrapWord x.toInt

theorem toNat_setWidth_ofInt (b : Int) : ((BitVec.ofInt 64 b).setWidth 6).toNat = (b % 64).toNat := by
  rw [BitVec.toNat_setWidth, BitVec.toNat_ofInt]
  omega

theorem testBit_of_fits {n : Int} (fits : fitsWord n = true) (i : Nat) :
    n.testBit i = (BitVec.ofInt 64 n).getLsbD (min i 63) := by
  rw [fitsWord_iff] at fits
  unfold leastWord greatestWord at fits
  have high {k : Nat} (small : k < 2 ^ 63) (above : 63 ≤ i) : k.testBit i = false ∧ k.testBit 63 = false :=
    ⟨Nat.testBit_lt_two_pow (small.trans_le (Nat.pow_le_pow_right (by decide) above)),
      Nat.testBit_lt_two_pow small⟩
  cases n with
  | ofNat k =>
    have small : k < 2 ^ 63 := by
      rw [Int.ofNat_eq_natCast] at fits
      omega
    have digits : BitVec.ofInt 64 (.ofNat k) = BitVec.ofNat 64 k := BitVec.ofInt_natCast 64 k
    rw [digits, BitVec.getLsbD_ofNat, decide_eq_true (by omega), Bool.true_and]
    show k.testBit i = _
    by_cases above : 63 ≤ i
    · obtain ⟨first, second⟩ := high small above
      rw [Nat.min_eq_right above, first, second]
    · rw [Nat.min_eq_left (by omega)]
  | negSucc k =>
    have small : k < 2 ^ 63 := by
      rw [Int.negSucc_eq] at fits
      omega
    rw [BitVec.ofInt_negSucc_eq_not_ofNat, BitVec.getLsbD_not, BitVec.getLsbD_ofNat,
      decide_eq_true (by omega), Bool.true_and, Bool.true_and]
    show (!k.testBit i) = _
    by_cases above : 63 ≤ i
    · obtain ⟨first, second⟩ := high small above
      rw [Nat.min_eq_right above, first, second]
    · rw [Nat.min_eq_left (by omega)]

namespace WordOp

/-- The operator on registers. Division is signed, and so is the shift to the right. -/
def register (op : WordOp) (a b : BitVec 64) : BitVec 64 :=
  match op with
  | modulo => a.srem b
  | divide => a.sdiv b
  | shiftLeft => a <<< b.setWidth 6
  | shiftRight => a.sshiftRight' (b.setWidth 6)
  | bitAnd => a &&& b
  | bitOr => a ||| b
  | bitXor => a ^^^ b

def Divides (op : WordOp) : Prop := op = modulo ∨ op = divide

theorem onWords_register {op : WordOp} {a b : Int} (left : fitsWord a = true) (right : fitsWord b = true)
    (divisor : ¬ (op.Divides ∧ b = 0)) :
    op.onWords a b = .ok (op.register (.ofInt 64 a) (.ofInt 64 b)).toInt := by
  have first := toInt_ofInt_of_fits left
  have second := toInt_ofInt_of_fits right
  have count := toNat_setWidth_ofInt b
  cases op with
  | bitAnd | bitOr | bitXor => rfl
  | modulo =>
    have remainder : a.tmod b = ((BitVec.ofInt 64 a).srem (BitVec.ofInt 64 b)).toInt := by
      rw [BitVec.toInt_srem, first, second]
    rw [onWords, if_neg fun zero => divisor ⟨.inl rfl, zero⟩, remainder, wrapWord_toInt]
    rfl
  | divide =>
    rw [onWords, if_neg fun zero => divisor ⟨.inr rfl, zero⟩, register, BitVec.toInt_sdiv, first, second]
    rfl
  | shiftLeft =>
    have power (k : Nat) : BitVec.twoPow 64 k = BitVec.ofInt 64 (twoTo k) := by
      apply BitVec.eq_of_toNat_eq
      rw [BitVec.toNat_twoPow, BitVec.ofInt_natCast, BitVec.toNat_ofNat]
      rfl
    rw [onWords, register, BitVec.shiftLeft_eq', count, BitVec.shiftLeft_eq_mul_twoPow, power,
      ← BitVec.ofInt_mul, BitVec.toInt_ofInt]
    rfl
  | shiftRight =>
    have shifted : a / twoTo (b % 64).toNat = ((BitVec.ofInt 64 a).sshiftRight (b % 64).toNat).toInt := by
      rw [BitVec.toInt_sshiftRight, first, Int.shiftRight_eq_div_pow]
      rfl
    rw [onWords, shifted, wrapWord_toInt, register, BitVec.sshiftRight_eq', count]

/-- The operator on single digits, where it has one. -/
def onBits? : WordOp → Option (Bool → Bool → Bool)
  | bitAnd => some and
  | bitOr => some or
  | bitXor => some xor
  | _ => none

theorem register_testBit {op : WordOp} {f : Bool → Bool → Bool} (bits : op.onBits? = some f) {a b : Int}
    (left : fitsWord a = true) (right : fitsWord b = true) (i : Nat) :
    (op.register (.ofInt 64 a) (.ofInt 64 b)).toInt.testBit i = f (a.testBit i) (b.testBit i) := by
  rw [testBit_of_fits (fitsWord_toInt _), testBit_of_fits left, testBit_of_fits right, BitVec.ofInt_toInt]
  cases op <;> cases bits
  · exact BitVec.getLsbD_and
  · exact BitVec.getLsbD_or
  · exact BitVec.getLsbD_xor

/-- The remainder is less than the divisor and has the sign of the dividend, and the quotient is exact but
    for the one that leaves 64 bits. -/
structure Division (a b q r : Int) : Prop where
  less : |r| < |b|
  sign : r = 0 ∨ r.sign = a.sign
  exact : if a = leastWord ∧ b = -1 then q = leastWord else a = b * q + r

theorem register_division {a b : Int} (left : fitsWord a = true) (right : fitsWord b = true)
    (divisor : b ≠ 0) :
    Division a b (divide.register (.ofInt 64 a) (.ofInt 64 b)).toInt
      (modulo.register (.ofInt 64 a) (.ofInt 64 b)).toInt := by
  have first := toInt_ofInt_of_fits left
  have second := toInt_ofInt_of_fits right
  have remainder : (modulo.register (.ofInt 64 a) (.ofInt 64 b)).toInt = a.tmod b := by
    rw [register, BitVec.toInt_srem, first, second]
  rw [remainder]
  refine ⟨?_, ?_, ?_⟩
  · rw [Int.abs_eq_natAbs, Int.abs_eq_natAbs, Int.natAbs_tmod]
    exact_mod_cast Nat.mod_lt _ (Int.natAbs_pos.mpr divisor)
  · rw [Int.sign_tmod]
    split
    · exact .inl (Int.tmod_eq_zero_of_dvd ‹_›)
    · exact .inr rfl
  -- One quotient alone leaves 64 bits; there the remainder is zero and the quotient wraps.
  split
  · rename_i least
    rw [least.1, least.2]
    decide
  · rename_i other
    have inside : BitVec.ofInt 64 a ≠ BitVec.intMin 64 ∨ BitVec.ofInt 64 b ≠ -1#64 := by
      rw [← not_and_or]
      rintro ⟨least, minus⟩
      rw [least] at first
      rw [minus] at second
      exact other ⟨first.symm, second.symm⟩
    rw [register, BitVec.toInt_sdiv_of_ne_or_ne _ _ inside, first, second, Int.mul_tdiv_add_tmod]

theorem apply_of_words {left right : Value} {a b : Int} (first : left.toWord = .ok a)
    (second : right.toWord = .ok b) (op : WordOp) : op.apply left right = (op.onWords a b).map .integer := by
  rw [apply, first, second]
  show op.onWords a b >>= _ = _
  cases op.onWords a b <;> rfl

/-- Operators on words are those of registers. The operands are truncated before, the left one first, and
    nothing fails but this and division by zero. -/
theorem apply_registers {left right : Value} (bounded : left.Bounded) (bounded' : right.Bounded) :
    (left.word? = none → ∀ op : WordOp, op.apply left right = .error (.eval left.wordFault)) ∧
    (left.word? ≠ none → right.word? = none →
      ∀ op : WordOp, op.apply left right = .error (.eval right.wordFault)) ∧
    ∀ a b, left.word? = some a → right.word? = some b →
      (∀ op : WordOp, op.Divides → b = 0 → op.apply left right = .error .zeroDivision) ∧
      (∀ op : WordOp, ¬ (op.Divides ∧ b = 0) → ∃ r, op.apply left right = .ok (.integer r) ∧
        fitsWord r = true ∧ BitVec.ofInt 64 r = op.register (.ofInt 64 a) (.ofInt 64 b) ∧
        ∀ f, op.onBits? = some f → ∀ i, r.testBit i = f (a.testBit i) (b.testBit i)) ∧
      (b ≠ 0 → ∃ q r, divide.apply left right = .ok (.integer q) ∧
        modulo.apply left right = .ok (.integer r) ∧ Division a b q r) := by
  refine ⟨fun none op => bind_of_error (Value.toWord_of_none bounded none), fun some none op => ?_,
    fun a b word word' => ?_⟩
  · obtain ⟨a, word⟩ := Option.ne_none_iff_exists'.mp some
    rw [apply, Value.toWord_of_some bounded word]
    show right.toWord >>= _ = _
    exact bind_of_error (Value.toWord_of_none bounded' none)
  have applied := apply_of_words (Value.toWord_of_some bounded word) (Value.toWord_of_some bounded' word')
  have fits : fitsWord a = true := (Option.filter_eq_some_iff.mp word).2
  have fits' : fitsWord b = true := (Option.filter_eq_some_iff.mp word').2
  have stored (op : WordOp) (divisor : ¬ (op.Divides ∧ b = 0)) :
      op.apply left right = .ok (.integer (op.register (.ofInt 64 a) (.ofInt 64 b)).toInt) := by
    rw [applied, onWords_register fits fits' divisor]
    rfl
  refine ⟨?_, fun op divisor => ?_, fun divisor => ?_⟩
  · rintro op (rfl | rfl) rfl <;> exact applied _
  · exact ⟨_, stored op divisor, fitsWord_toInt _, BitVec.ofInt_toInt,
      fun f bits => register_testBit bits fits fits'⟩
  · exact ⟨_, _, stored divide fun zero => divisor zero.2, stored modulo fun zero => divisor zero.2,
      register_division fits fits' divisor⟩

theorem minusSeven_registers :
    (Value.integer (-7)).Bounded ∧ (Value.decimal (.finite false 29 (-1))).Bounded ∧
      ∃ q r, divide.apply (.integer (-7)) (.decimal (.finite false 29 (-1))) = .ok (.integer q) ∧
        modulo.apply (.integer (-7)) (.decimal (.finite false 29 (-1))) = .ok (.integer r) ∧
        Division (-7) 2 q r := by
  have first : (Value.integer (-7)).Bounded := by
    rintro n same
    cases same
    decide
  have second : (Value.decimal (.finite false 29 (-1))).Bounded := nofun
  have left : (Value.integer (-7)).word? = some (-7) := Value.word?_integer (by decide)
  have right : (Value.decimal (.finite false 29 (-1))).word? = some 2 := by
    rw [Value.word?, Value.number?, ← Decimal.toInt?_down]
    decide
  exact ⟨first, second, ((apply_registers first second).2.2 (-7) 2 left right).2.2 (by decide)⟩

end WordOp

end Reckoner
