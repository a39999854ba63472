import Reckoner.Proofs.Rounding.Decimals
import Reckoner.Proofs.Values.Registers
import Reckoner.Function.Registry

namespace Reckoner

/-- The whole number to which a number is rounded. -/
def Rounding.whole : Rounding → ℚ → Int
  | halfEven, x => nearestEven x
  | down, x => towardZero x
  | ceiling, x => ⌈x⌉
  | floor, x => ⌊x⌋

theorem Rounding.whole_intCast (mode : Rounding) (m : Int) : mode.whole m = m := by
  cases mode with
  | halfEven => exact nearestEven_intCast m
  | down => exact towardZero_intCast m
  | ceiling => exact Int.ceil_intCast m
  | floor => exact Int.floor_intCast m

theorem ceil_quotient (n : Nat) {d : Nat} (divisor : 0 < d) :
    ⌈(n : ℚ) / d⌉ = (if n % d ≠ 0 then n / d + 1 else n / d : Nat) := by
  have positive : (0 : ℚ) < d := Nat.cast_pos.mpr divisor
  have quotient := Nat.div_add_mod n d
  have rest := Nat.mod_lt n divisor
  generalize n / d = a at quotient ⊢
  generalize n % d = r at quotient rest ⊢
  have value : (n : ℚ) / d = a + r / d := by
    rw [← quotient]
    push_cast
    field_simp
  have high : (r : ℚ) / d < 1 := (div_lt_one positive).mpr (by exact_mod_cast rest)
  rw [Int.ceil_eq_iff, value]
  split
  · rename_i some
    have low : (0 : ℚ) < r / d := div_pos (by exact_mod_cast Nat.pos_of_ne_zero some) positive
    push_cast
    constructor <;> linarith
  · rename_i none
    rw [not_not.mp none]
    push_cast
    constructor <;> linarith [zero_div (d : ℚ)]

theorem nearestEven_negatedIf (s : Bool) {x : ℚ} {n : Nat} (nearest : (n : Int) = nearestEven x) :
    nearestEven (negatedIf s x) = Decimal.signed s n := by
  cases s with
  | false => exact nearest.symm
  | true =>
    show nearestEven (-x) = -(n : Int)
    rw [nearestEven_neg, nearest]

theorem signed_quotient (mode : Rounding) (s : Bool) (n : Nat) {d : Nat} (divisor : 0 < d) :
    Decimal.signed s (mode.quotient s n d) = mode.whole (negatedIf s (n / d)) := by
  have floor : ⌊(n : ℚ) / d⌋ = (n / d : Nat) := Rat.floor_natCast_div_natCast n d
  have ceil := ceil_quotient n divisor
  cases mode with
  | halfEven => exact (nearestEven_negatedIf s (roundHalfEven_cast n divisor)).symm
  | down => exact (towardZero_negatedIf s (by positivity) floor).symm
  | ceiling =>
    cases s with
    | false =>
      show ((Rounding.ceiling.quotient false n d : Nat) : Int) = ⌈(n : ℚ) / d⌉
      rw [ceil]
      simp [Rounding.quotient, Rounding.goesUp]
    | true =>
      show -((n / d : Nat) : Int) = ⌈-((n : ℚ) / d)⌉
      rw [Int.ceil_neg, floor]
  | floor =>
    cases s with
    | false => exact floor.symm
    | true =>
      show -((Rounding.floor.quotient true n d : Nat) : Int) = ⌊-((n : ℚ) / d)⌋
      rw [Int.floor_neg, ceil]
      simp [Rounding.quotient, Rounding.goesUp]

namespace Decimal

theorem signed_wholeMagnitude (mode : Rounding) (s : Bool) (c : Nat) (e : Int) :
    signed s (wholeMagnitude mode s c e) = mode.whole (negatedIf s (c * 10 ^ e)) := by
  have value := cast_decimal c e
  unfold wholeMagnitude
  split
  · rename_i whole
    have unit : tenTo (-e).toNat = 1 := by
      rw [show (-e).toNat = 0 by omega]
      rfl
    rw [unit, Nat.cast_one, div_one] at value
    rw [← value, ← cast_signed, Rounding.whole_intCast]
  · rename_i fraction
    have unit : tenTo e.toNat = 1 := by
      rw [show e.toNat = 0 by omega]
      rfl
    rw [unit, mul_one] at value
    rw [← value, signed_quotient mode s c (tenTo_pos _)]

theorem number?_toIntegral (mode : Rounding) {d : Decimal} {x : ℚ} (value : d.number? = some x) :
    (d.toIntegral mode).number? = some ((mode.whole x : Int) : ℚ) := by
  obtain ⟨s, c, e, rfl, rfl⟩ := exists_finite value
  rw [← signed_wholeMagnitude mode s c e, toIntegral]
  by_cases whole : 0 ≤ e
  · obtain ⟨k, rfl⟩ := Int.eq_ofNat_of_zero_le whole
    rw [if_pos whole, wholeMagnitude, if_pos whole, cast_signed, number?_finite, Nat.cast_mul, cast_tenTo,
      zpow_natCast, Int.toNat_natCast]
  · rw [if_neg whole]
    exact number?_whole s _

theorem toIntegral_toIntegral (mode : Rounding) (d : Decimal) :
    (d.toIntegral mode).toIntegral mode = d.toIntegral mode := by
  cases d with
  | notNumber | infinity => rfl
  | finite s c e =>
    unfold toIntegral
    by_cases whole : 0 ≤ e
    · simp only [if_pos whole]
    · simp only [if_neg whole]
      rfl

theorem kept_at (c : Nat) (e low : Int) :
    ((if adjusted c e + 1 < low then 0 else
      roundHalfEven (c * tenTo (e - low).toNat) (tenTo (low - e).toNat) : Nat) : Int) =
      nearestEven (c * 10 ^ e / 10 ^ low) := by
  have least : (0 : ℚ) ≤ (c : ℚ) / (1 : Nat) * 10 ^ e := by positivity
  have below : (c : ℚ) / (1 : Nat) * 10 ^ e < 10 ^ (adjusted c e + 1) := by
    rw [Nat.cast_one, div_one]
    rcases Nat.eq_zero_or_pos c with rfl | positive
    · rw [Nat.cast_zero, zero_mul]
      positivity
    · exact (adjusted_bounds positive e).2
  have kept := kept_eq Nat.one_pos low least below
  rwa [Nat.one_mul, Nat.cast_one, div_one] at kept

theorem lt_digitCount_iff {n k : Nat} (positive : 0 < k) : k < digitCount n ↔ tenTo k ≤ n := by
  constructor
  · intro more
    by_contra less
    exact absurd (digitCount_le_of_lt positive (not_le.mp less)) (not_le.mpr more)
  · intro least
    exact tenTo_lt_iff.mp (least.trans_lt (lt_tenTo_digitCount n))

theorem quantize_ample (n : Int) (s : Bool) (c : Nat) (e : Int) :
    quantize .ample n (finite s c e) =
      if 999999 < -n ∨ -n < -1000026 then .error .invalid
      else if c = 0 then .ok (finite s 0 (-n))
      else if 28 < (digitCount c : Int) + e - -n then .error .invalid
      else
        let q := if adjusted c e + 1 < -n then 0
          else roundHalfEven (c * tenTo (e - -n).toNat) (tenTo (-n - e).toNat)
        if 28 < digitCount q ∨ 999999 < adjusted q (-n) then .error .invalid
        else .ok (finite s q (-n)) := by
  have precision : Context.ample.precision = 28 := rfl
  have most : Context.ample.maxExponent = 999999 := rfl
  have least : Context.ample.tiny = -1000026 := rfl
  simp only [quantize, precision, most, least, Bool.or_eq_true, decide_eq_true_eq, Nat.cast_ofNat]

theorem tenTo_le_of_adjusted {c : Nat} (positive : 0 < c) {e n : Int} {k : Nat}
    (leading : k ≤ adjusted c e + n) {q : Nat} (kept : (q : Int) = nearestEven (c * 10 ^ e * 10 ^ n)) :
    tenTo k ≤ q := by
  have least : ((tenTo k : Int) : ℚ) ≤ c * 10 ^ e * 10 ^ n := by
    rw [Int.cast_natCast, cast_tenTo, ← zpow_natCast]
    calc (10 : ℚ) ^ (k : Int) ≤ 10 ^ (adjusted c e + n) := zpow_le_zpow_right₀ (by norm_num) leading
      _ = 10 ^ adjusted c e * 10 ^ n := zpow_add₀ (by norm_num) _ _
      _ ≤ c * 10 ^ e * 10 ^ n := by
          gcongr
          exact (adjusted_bounds positive e).1
  exact_mod_cast kept ▸ le_nearestEven least

theorem quantize_positive {c : Nat} (positive : 0 < c) {e n : Int} (top : adjusted c e ≤ 28)
    (few : |n| ≤ 999999) (s : Bool) {q : Nat} (kept : (q : Int) = nearestEven (c * 10 ^ e * 10 ^ n)) :
    quantize .ample n (finite s c e) =
      if tenTo 28 ≤ q then .error .invalid else .ok (finite s q (-n)) := by
  obtain ⟨low, high⟩ := abs_le.mp few
  have nearest := kept_at c e (-n)
  rw [zpow_neg, div_inv_eq_mul, ← kept, Int.ofNat_inj] at nearest
  have leading (many : 28 < (digitCount c : Int) + e - -n) : tenTo 28 ≤ q := by
    apply tenTo_le_of_adjusted positive _ kept
    unfold adjusted
    omega
  -- With no digit kept the place itself is in range, and with one kept it is not above the leading digit.
  have place (above : 999999 < adjusted q (-n)) : tenTo 28 ≤ q := by
    refine (lt_digitCount_iff (by decide)).mp ?_
    unfold adjusted at above
    split at nearest
    · rw [← nearest, digitCount_of_lt (by decide)] at above
      omega
    · omega
  rw [quantize_ample, if_neg (by omega), if_neg positive.ne', nearest]
  dsimp only
  by_cases more : tenTo 28 ≤ q
  · have refused : 28 < digitCount q ∨ 999999 < adjusted q (-n) :=
      .inl ((lt_digitCount_iff (by decide)).mpr more)
    rw [if_pos more, if_pos refused, ite_self]
  · have counted (many : 28 < digitCount q) : False := more ((lt_digitCount_iff (by decide)).mp many)
    rw [if_neg more, if_neg fun many => more (leading many),
      if_neg fun refused => refused.elim counted fun above => more (place above)]

theorem abs_signed (s : Bool) (n : Nat) : |signed s n| = n := by
  cases s <;> simp [signed]

/-- A number of the engine is rounded to a place exactly, unless more than 28 digits remain. -/
theorem quantize_exact {d : Decimal} {x : ℚ} (fits : d.Fits .engine) (value : d.number? = some x) {n : Int}
    (few : |n| ≤ 999999) :
    if 10 ^ 28 ≤ |nearestEven (x * 10 ^ n)| then quantize .ample n d = .error .invalid
    else ∃ r, quantize .ample n d = .ok r ∧
      r.number? = some ((nearestEven (x * 10 ^ n) : ℚ) * 10 ^ (-n)) := by
  obtain ⟨s, c, e, rfl, rfl⟩ := exists_finite value
  obtain ⟨low, high⟩ := abs_le.mp few
  -- The magnitude is rounded: what is kept is `q`, and the result has its sign.
  obtain ⟨q, kept, quantized⟩ : ∃ q : Nat, (q : Int) = nearestEven (c * 10 ^ e * 10 ^ n) ∧
      quantize .ample n (finite s c e) =
        if tenTo 28 ≤ q then .error .invalid else .ok (finite s q (-n)) := by
    rcases Nat.eq_zero_or_pos c with rfl | positive
    · refine ⟨0, ?_, ?_⟩
      · simp only [Nat.cast_zero, zero_mul]
        exact (nearestEven_intCast 0).symm
      · rw [quantize_ample, if_neg (by omega), if_pos rfl, if_neg (by decide)]
    · have kept := kept_at c e (-n)
      rw [zpow_neg, div_inv_eq_mul] at kept
      exact ⟨_, kept, quantize_positive positive fits.2.2 few s kept⟩
  have whole := nearestEven_negatedIf s kept
  rw [← negatedIf_mul] at whole
  rw [whole, quantized, abs_signed]
  have bound : (10 : Int) ^ 28 ≤ q ↔ tenTo 28 ≤ q := by
    exact_mod_cast Iff.rfl
  by_cases more : tenTo 28 ≤ q
  · rw [if_pos (bound.mpr more), if_pos more]
  · rw [if_neg fun least => more (bound.mp least), if_neg more]
    refine ⟨_, rfl, ?_⟩
    rw [number?_finite, cast_signed, negatedIf_mul]

end Decimal

namespace HostValue

theorem nearestMultiple_exact (n : Int) (places : Nat) :
    (nearestMultiple n places : ℚ) = nearestEven (n / 10 ^ places) * 10 ^ places := by
  have sign : negatedIf (n < 0) n.natAbs = n := by
    rw [← cast_signed, Decimal.signed_natAbs]
  -- The magnitude is rounded: what is kept is `q`, and the multiple has its sign.
  obtain ⟨q, kept, multiple⟩ : ∃ q : Nat, (q : Int) = nearestEven (n.natAbs / 10 ^ places) ∧
      nearestMultiple n places = Decimal.signed (n < 0) (q * tenTo places) := by
    have kept := Decimal.kept_at n.natAbs 0 places
    rw [zpow_zero, mul_one, zpow_natCast] at kept
    refine ⟨_, kept, ?_⟩
    have far : Decimal.adjusted n.natAbs 0 + 1 < places ↔ digitCount n.natAbs < places := by
      unfold Decimal.adjusted
      omega
    have digits : n.natAbs * tenTo (0 - (places : Int)).toNat = n.natAbs := by
      rw [show (0 - (places : Int)).toNat = 0 by omega]
      exact Nat.mul_one _
    rw [nearestMultiple, digits, sub_zero, Int.toNat_natCast]
    by_cases beyond : digitCount n.natAbs < places
    · rw [if_pos beyond, if_pos (far.mpr beyond), Nat.zero_mul]
      cases decide (n < 0) <;> rfl
    · rw [if_neg beyond, if_neg fun near => beyond (far.mp near)]
  have whole := nearestEven_negatedIf (n < 0) kept
  rw [div_eq_mul_inv, ← negatedIf_mul, sign, ← div_eq_mul_inv] at whole
  rw [multiple, whole, cast_signed, cast_signed, Nat.cast_mul, cast_tenTo, negatedIf_mul]

theorem roundWhole_exact (m n : Int) :
    ((if 0 ≤ n then m else nearestMultiple m (-n).toNat : Int) : ℚ) =
      nearestEven (m * 10 ^ n) * 10 ^ (-n) := by
  by_cases behind : 0 ≤ n
  · obtain ⟨k, rfl⟩ := Int.eq_ofNat_of_zero_le behind
    have whole : (m : ℚ) * 10 ^ ((k : Nat) : Int) = (m * 10 ^ k : Int) := by
      rw [zpow_natCast]
      push_cast
      rfl
    rw [if_pos behind, whole, nearestEven_intCast, ← whole, mul_assoc, ← zpow_add₀ (by norm_num),
      add_neg_cancel, zpow_zero, mul_one]
  · obtain ⟨k, rfl⟩ : ∃ k : Nat, n = -k := ⟨(-n).toNat, by omega⟩
    rw [if_neg behind, neg_neg, Int.toNat_natCast, nearestMultiple_exact, zpow_neg, zpow_natCast,
      ← div_eq_mul_inv]

/-- The number in a value, if it is a whole number or a finite decimal. -/
def rational? (v : HostValue) : Option ℚ :=
  match v.number? with
  | some (.whole n) => some n
  | some (.decimal d) => d.number?
  | _ => .none

def isDecimal : HostValue → Bool
  | decimal _ => true
  | _ => false

/-- A number in the representation of another value: a decimal or else a whole number. -/
structure IsLike (x : HostValue) (q : ℚ) (y : HostValue) : Prop where
  value : y.rational? = some q
  present : y.isNone = false
  kind : y.isDecimal = x.isDecimal

theorem rational?_cases {x : HostValue} {q : ℚ} (value : x.rational? = some q) :
    (∃ m : Int, x.number? = some (.whole m) ∧ q = m ∧ x.isDecimal = false) ∨
      ∃ d, x = decimal d ∧ d.number? = some q := by
  cases x with
  | none | bool _ | integer _ =>
    cases value
    exact .inl ⟨_, rfl, rfl, rfl⟩
  | decimal d => exact .inr ⟨d, rfl, value⟩
  | double _ | text _ | tagged _ | list _ | mapping _ | function => cases value

theorem toWhole_exact (mode : Rounding) {x : HostValue} {q : ℚ} (value : x.rational? = some q) :
    ∃ y, x.toWhole mode = .ok y ∧ x.IsLike (mode.whole q) y ∧ y.toWhole mode = .ok y := by
  have stays (m : Int) : some (m : ℚ) = some ((mode.whole m : Int) : ℚ) := by
    rw [mode.whole_intCast]
  cases x with
  | none =>
    cases value
    exact ⟨integer 0, rfl, ⟨stays 0, rfl, rfl⟩, rfl⟩
  | bool b =>
    cases value
    exact ⟨bool b, rfl, ⟨stays (ofBool b), rfl, rfl⟩, rfl⟩
  | integer n =>
    cases value
    exact ⟨integer n, rfl, ⟨stays n, rfl, rfl⟩, rfl⟩
  | decimal d =>
    have again : (decimal (d.toIntegral mode)).toWhole mode = .ok (decimal (d.toIntegral mode)) := by
      show Except.ok (decimal ((d.toIntegral mode).toIntegral mode)) = _
      rw [d.toIntegral_toIntegral]
    exact ⟨decimal (d.toIntegral mode), rfl, ⟨Decimal.number?_toIntegral mode value, rfl, rfl⟩, again⟩
  | double _ | text _ | tagged _ | list _ | mapping _ | function => cases value

variable {x digits : HostValue} {n : Int}

theorem digitsOf_whole (whole : digits.number? = some (.whole n)) :
    finiteDigits digits = .ok () ∧ digitsOf digits = .ok n := by
  cases digits with
  | none | bool _ | integer _ =>
    cases whole
    exact ⟨rfl, rfl⟩
  | decimal _ | double _ | text _ | tagged _ | list _ | mapping _ | function => cases whole

theorem roundTo_whole {m : Int} (number : x.number? = some (.whole m))
    (whole : digits.number? = some (.whole n)) :
    x.roundTo digits = .ok (integer (if 0 ≤ n then m else nearestMultiple m (-n).toNat)) := by
  obtain ⟨finite, digits⟩ := digitsOf_whole whole
  rw [roundTo, finite, digits, toNumber, number]
  rfl

theorem roundTo_decimal {d : Decimal} (finite : d.isFinite = true)
    (whole : digits.number? = some (.whole n)) : (decimal d).roundTo digits = roundDecimalTo n d := by
  obtain ⟨proper, digits⟩ := digitsOf_whole whole
  rw [roundTo, proper, digits]
  show (if d.isFinite = true then _ else _) = _
  rw [if_pos finite]

theorem roundTo_exact {q : ℚ} (value : x.rational? = some q)
    (fits : ∀ d, x = decimal d → d.Fits .engine)
    (whole : digits.number? = some (.whole n)) (few : |n| ≤ 999999) :
    if x.isDecimal = true ∧ 10 ^ 28 ≤ |nearestEven (q * 10 ^ n)| then
      x.roundTo digits = .error (.decimal .invalid)
    else ∃ y, x.roundTo digits = .ok y ∧ x.IsLike ((nearestEven (q * 10 ^ n) : ℚ) * 10 ^ (-n)) y ∧
      (∀ m, x = integer m → 0 ≤ n → y = x) := by
  obtain ⟨m, number, rfl, kind⟩ | ⟨d, rfl, number⟩ := rational?_cases value
  · rw [if_neg fun refused => Bool.false_ne_true (kind.symm.trans refused.1), roundTo_whole number whole]
    refine ⟨_, rfl, ⟨congrArg some (roundWhole_exact m n), rfl, kind.symm⟩, ?_⟩
    rintro k rfl behind
    cases number
    rw [if_pos behind]
  · have quantized := Decimal.quantize_exact (fits d rfl) number few
    have finite : d.isFinite = true := by
      obtain ⟨s, c, e, rfl, -⟩ := Decimal.exists_finite number
      rfl
    have word : fitsWord n = true := by
      obtain ⟨low, high⟩ := abs_le.mp few
      rw [fitsWord_iff, leastWord, greatestWord]
      omega
    rw [roundTo_decimal finite whole, roundDecimalTo, word]
    by_cases more : 10 ^ 28 ≤ |nearestEven (q * 10 ^ n)|
    · rw [if_pos more] at quantized
      rw [if_pos ⟨rfl, more⟩, quantized]
      rfl
    · rw [if_neg more] at quantized
      obtain ⟨r, rounded, result⟩ := quantized
      rw [if_neg fun refused => more refused.2, rounded]
      refine ⟨decimal r, rfl, ⟨result, rfl, rfl⟩, ?_⟩
      intro m same
      cases same

/-- The library's rounding functions are exact on whole numbers, a missing value being zero, and on finite
    decimals of the engine: they give the next whole number in a direction or the nearest one, which stays
    when it is rounded again, or the nearest multiple of a power of ten. Only such a multiple is refused,
    and only to a decimal of which more than 28 digits would remain. -/
theorem rounding_functions_exact {x : HostValue} {q : ℚ} (value : x.rational? = some q)
    (fits : ∀ d, x = decimal d → d.Fits .engine) :
    (∀ name target, (name, target) ∈
        [("floor", ⌊q⌋), ("ceil", ⌈q⌉), ("trunc", towardZero q), ("rnd", nearestEven q)] →
      ∃ f, Registry.standard.function? name = some f ∧
        ∃ y, f.apply [x] = .ok y ∧ x.IsLike target y ∧ f.apply [y] = .ok y) ∧
    ∃ f, Registry.standard.function? "round" = some f ∧
      ∀ digits n, digits.number? = some (.whole n) → |n| ≤ 999999 →
        if x.isDecimal = true ∧ 10 ^ 28 ≤ |nearestEven (q * 10 ^ n)| then
          f.apply [x, digits] = .error (.decimal .invalid)
        else ∃ y, f.apply [x, digits] = .ok y ∧
          x.IsLike ((nearestEven (q * 10 ^ n) : ℚ) * 10 ^ (-n)) y ∧
          (∀ m, x = integer m → 0 ≤ n → y = x) := by
  constructor
  · intro name target member
    simp only [List.mem_cons, Prod.mk.injEq, List.not_mem_nil, or_false] at member
    obtain ⟨rfl, rfl⟩ | ⟨rfl, rfl⟩ | ⟨rfl, rfl⟩ | ⟨rfl, rfl⟩ := member
    · exact ⟨_, rfl, toWhole_exact .floor value⟩
    · exact ⟨_, rfl, toWhole_exact .ceiling value⟩
    · exact ⟨_, rfl, toWhole_exact .down value⟩
    · exact ⟨_, rfl, toWhole_exact .halfEven value⟩
  · exact ⟨_, rfl, fun digits n whole few => roundTo_exact value fits whole few⟩

theorem rounding_functions_exact_of_half :
    (decimal (.finite true 25 (-1))).rational? = some (-5 / 2) ∧
    (decimal (.finite false 125 (-3))).rational? = some (1 / 8) ∧
      (∃ f y, Registry.standard.function? "rnd" = some f ∧
        f.apply [decimal (.finite true 25 (-1))] = .ok y ∧ y.rational? = some (-2)) ∧
      ∃ f y, Registry.standard.function? "round" = some f ∧
        f.apply [decimal (.finite false 125 (-3)), integer 2] = .ok y ∧ y.rational? = some (3 / 25) := by
  have value : (decimal (.finite true 25 (-1))).rational? = some (-5 / 2) := by
    show (Decimal.finite true 25 (-1)).number? = some (-5 / 2)
    rw [Decimal.number?_finite]
    norm_num [negatedIf]
  have value' : (decimal (.finite false 125 (-3))).rational? = some (1 / 8) := by
    show (Decimal.finite false 125 (-3)).number? = some (1 / 8)
    rw [Decimal.number?_finite]
    norm_num [negatedIf]
  have fits : ∀ d, decimal (.finite true 25 (-1)) = decimal d → d.Fits .engine := by
    rintro d ⟨⟩
    simp [Decimal.Fits, Decimal.adjusted, digitCount, Decimal.Context.engine, Decimal.Context.tiny]
  have fits' : ∀ d, decimal (.finite false 125 (-3)) = decimal d → d.Fits .engine := by
    rintro d ⟨⟩
    simp [Decimal.Fits, Decimal.adjusted, digitCount, Decimal.Context.engine, Decimal.Context.tiny]
  have half : nearestEven (-5 / 2) = -2 := nearestEven_eq (by norm_num) (by norm_num) (by decide)
  have tie : nearestEven (1 / 8 * 10 ^ (2 : ℤ)) = 12 :=
    nearestEven_eq (by norm_num) (by norm_num) (by decide)
  obtain ⟨f, found, y, applied, like, -⟩ :=
    (rounding_functions_exact value fits).1 "rnd" (nearestEven (-5 / 2)) (by simp)
  obtain ⟨g, found', rounds⟩ := (rounding_functions_exact value' fits').2
  have rounded := rounds (integer 2) 2 rfl (by decide)
  rw [tie, if_neg fun refused => absurd refused.2 (by decide)] at rounded
  obtain ⟨z, applied', like', -⟩ := rounded
  refine ⟨value, value', ⟨f, y, found, applied, ?_⟩, g, z, found', applied', ?_⟩
  · rw [like.value, half]
    rfl
  · rw [like'.value]
    norm_num

end HostValue

end Reckoner
