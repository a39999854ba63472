import Reckoner.Proofs.Rounding.Wholes

namespace Reckoner.UnaryOp

variable {α ε : Type}

/-- The product of `product` and the numbers from `i` to `n` as far as `multiply` gives one, and how often
    it is asked for one. -/
def countedProduct (multiply : α → Nat → Except ε α) (n i : Nat) (product : α) : Except ε α × Nat :=
  if i ≤ n then
    match multiply product i with
    | .ok next =>
      let rest := countedProduct multiply n (i + 1) next
      (rest.1, rest.2 + 1)
    | .error fault => (.error fault, 1)
  else (.ok product, 0)
termination_by n + 1 - i

def multiplyWord (product : Int) (i : Nat) : Except Unit Int :=
  if fitsWord (product * i) then .ok (product * i) else .error ()

def multiplyDecimal (product : Decimal) (i : Nat) : Except Decimal.Signal Decimal :=
  Decimal.multiply .engine product (.ofNat i)

theorem wordProduct?_eq (n i : Nat) (product : Int) :
    wordProduct? n i product = (countedProduct multiplyWord n i product).1.toOption := by
  fun_induction wordProduct? n i product with
  | case1 i product more fits ih => rw [countedProduct, if_pos more, multiplyWord, if_pos fits, ih]
  | case2 i product more refused =>
    rw [countedProduct, if_pos more, multiplyWord, if_neg refused]
    rfl
  | case3 i product done =>
    rw [countedProduct, if_neg done]
    rfl

theorem decimalProduct_eq (n i : Nat) (product : Decimal) :
    decimalProduct n i product = (countedProduct multiplyDecimal n i product).1 := by
  fun_induction decimalProduct n i product with
  | case1 i product more next multiplied ih =>
    rw [countedProduct, if_pos more, multiplyDecimal, multiplied, ih]
  | case2 i product more signal refused => rw [countedProduct, if_pos more, multiplyDecimal, refused]
  | case3 i product done => rw [countedProduct, if_neg done]

/-- A multiplication that goes from each factorial to the next up to that of `last`, and no further. -/
structure ExactUpTo (last : Nat) (fault : ε) (represents : α → Nat → Prop)
    (multiply : α → Nat → Except ε α) : Prop where
  next {k : Nat} {product : α} (inside : k < last) (value : represents product k.factorial) :
    ∃ product', multiply product (k + 1) = .ok product' ∧ represents product' (k + 1).factorial
  refused {product : α} (value : represents product last.factorial) :
    multiply product (last + 1) = .error fault

namespace ExactUpTo

variable {last : Nat} {fault : ε} {represents : α → Nat → Prop} {multiply : α → Nat → Except ε α}
  (exact : ExactUpTo last fault represents multiply) (n : Nat)

include exact

theorem counted {k : Nat} {product : α} (inside : k ≤ last) (value : represents product k.factorial) :
    if n ≤ last then
      ∃ r, countedProduct multiply n (k + 1) product = (.ok r, n - k) ∧ represents r (max k n).factorial
    else countedProduct multiply n (k + 1) product = (.error fault, last + 1 - k) := by
  -- Induction on the factorials that are left, with the one reached so far as the invariant.
  induction left : last - k generalizing k product with
  | zero =>
    obtain rfl : k = last := by omega
    rw [countedProduct]
    split
    · rw [if_neg (by omega), Nat.max_eq_left ‹_›]
      exact ⟨product, by rw [Nat.sub_eq_zero_of_le ‹_›], value⟩
    · rw [if_pos (by omega), exact.refused value, Nat.add_sub_cancel_left]
  | succ left ih =>
    obtain ⟨product', multiplied, value'⟩ := exact.next (by omega) value
    by_cases more : k + 1 ≤ n
    · have rest := ih (by omega) value' (by omega)
      rw [countedProduct, if_pos more, multiplied]
      dsimp only
      split
      · rw [if_pos ‹_›, Nat.max_eq_right more] at rest
        obtain ⟨r, product, result⟩ := rest
        rw [product, Nat.max_eq_right (by omega)]
        exact ⟨r, by congr 1; omega, result⟩
      · rw [if_neg ‹_›] at rest
        rw [rest]
        congr 1
        omega
    · rw [if_pos (by omega), countedProduct, if_neg more, Nat.max_eq_left (by omega)]
      exact ⟨product, by rw [Nat.sub_eq_zero_of_le (by omega)], value⟩

variable (started : 1 ≤ last) {product : α} (value : represents product (Nat.factorial 1))

include started value

theorem result :
    if n ≤ last then ∃ r, (countedProduct multiply n 2 product).1 = .ok r ∧ represents r n.factorial
    else (countedProduct multiply n 2 product).1 = .error fault := by
  have counted := exact.counted n started value
  have least : (max 1 n).factorial = n.factorial := by
    rcases Nat.eq_zero_or_pos n with rfl | positive
    · rfl
    · rw [Nat.max_eq_right positive]
  rw [least] at counted
  split at counted
  · rename_i inside
    obtain ⟨r, result, value⟩ := counted
    rw [if_pos inside, result]
    exact ⟨r, rfl, value⟩
  · rename_i beyond
    rw [if_neg beyond, counted]

/-- No loop multiplies more often than up to the refusal. -/
theorem count_le : (countedProduct multiply n 2 product).2 ≤ last := by
  have counted := exact.counted n started value
  split at counted
  · obtain ⟨r, result, -⟩ := counted
    rw [result]
    exact (Nat.sub_le n 1).trans ‹_›
  · rw [counted]
    exact le_rfl

end ExactUpTo

theorem factorial_le_iff {last bound : Nat} (inside : last.factorial ≤ bound)
    (beyond : bound < (last + 1).factorial) (n : Nat) : n.factorial ≤ bound ↔ n ≤ last := by
  constructor
  · intro below
    by_contra above
    have least : (last + 1).factorial ≤ n.factorial := Nat.factorial_le (Nat.not_le.mp above)
    omega
  · exact fun below => (Nat.factorial_le below).trans inside

theorem fitsWord_factorial (n : Nat) : fitsWord n.factorial = true ↔ n ≤ 20 := by
  have last : n.factorial ≤ 9223372036854775807 ↔ n ≤ 20 := factorial_le_iff (by decide) (by decide) n
  rw [fitsWord_iff, ← last]
  unfold leastWord greatestWord
  omega

theorem exact_words :
    ExactUpTo 20 () (fun (product : Int) value => product = value) multiplyWord where
  next {k product} inside value := by
    have successor : product * (k + 1 : Nat) = (k + 1).factorial := by
      rw [value, Nat.factorial_succ, mul_comm]
      exact (Nat.cast_mul _ _).symm
    rw [multiplyWord, successor, if_pos ((fitsWord_factorial (k + 1)).mpr inside)]
    exact ⟨_, rfl, rfl⟩
  refused {product} value := by
    rw [multiplyWord, value, if_neg (by decide)]

theorem wordProduct?_factorial (n : Nat) :
    wordProduct? n 2 1 = (some (n.factorial : Int)).filter fitsWord := by
  have one : (1 : Int) = (Nat.factorial 1 : Nat) := rfl
  have result := exact_words.result n (by decide) one
  rw [wordProduct?_eq, Option.filter_some]
  split at result
  · rename_i inside
    obtain ⟨r, product, rfl⟩ := result
    rw [if_pos ((fitsWord_factorial n).mpr inside), product]
    rfl
  · rename_i beyond
    rw [if_neg (mt (fitsWord_factorial n).mp beyond), result]
    rfl

open Decimal (Context)

theorem factorial_le_greatest (n : Nat) : (n.factorial : ℚ) ≤ Context.engine.greatest ↔ n ≤ 27 := by
  have greatest : Context.engine.greatest = ((10 ^ 29 - 10 : Nat) : ℚ) := by
    norm_num [Context.greatest, Context.engine]
  rw [greatest, Nat.cast_le]
  exact factorial_le_iff (by decide) (by decide) n

theorem round_factorial {n : Nat} (inside : n ≤ 27) :
    Context.engine.grid.round n.factorial = n.factorial := by
  rcases Nat.lt_or_ge n 27 with less | same
  · refine Context.engine.grid.round_of_dvd (k := 0) (by decide) (one_dvd _) ?_
    exact (Nat.factorial_le (Nat.le_of_lt_succ less)).trans_lt (by decide)
  · obtain rfl := Nat.le_antisymm inside same
    exact Context.engine.grid.round_of_dvd (k := 1) (by decide) (by decide) (by decide)

theorem greatest_lt_round_factorial {n : Nat} (beyond : 27 < n) :
    Context.engine.greatest < Context.engine.grid.round n.factorial := by
  have least : 10 ^ 29 ≤ n.factorial := le_trans (by decide) (Nat.factorial_le beyond)
  have above : Context.engine.maxExponent < 29 := by decide
  refine Decimal.greatest_lt_round Decimal.engine_proper above ?_
  exact_mod_cast least

theorem exact_decimals :
    ExactUpTo 27 .overflow (fun product value => product.number? = some (value : ℚ)) multiplyDecimal := by
  have multiplied {k : Nat} {product : Decimal} (value : product.number? = some (k.factorial : ℚ)) :=
    (Decimal.multiply_rounds Decimal.engine_proper value (Decimal.number?_whole false (k + 1))).cases
      (Decimal.multiply_fits Decimal.engine_proper product (.ofNat (k + 1)))
  have successor (k : Nat) : (k.factorial : ℚ) * ((Decimal.signed false (k + 1) : Int) : ℚ) =
      (k + 1).factorial := by
    rw [Nat.factorial_succ, mul_comm, Nat.cast_mul]
    rfl
  constructor
  · intro k product inside value
    have result := multiplied value
    rw [successor, round_factorial inside, abs_of_nonneg (Nat.cast_nonneg _),
      if_pos ((factorial_le_greatest (k + 1)).mpr inside)] at result
    obtain ⟨d, product, -, value⟩ := result
    exact ⟨d, product, value⟩
  · intro product value
    have result := multiplied value
    have beyond := (greatest_lt_round_factorial (n := 28) (by decide)).trans_le (le_abs_self _)
    rwa [successor, if_neg (not_le.mpr beyond)] at result

theorem decimalProduct_factorial (n : Nat) :
    if n ≤ 27 then ∃ r, decimalProduct n 2 (.ofNat 1) = .ok r ∧ r.number? = some (n.factorial : ℚ)
    else decimalProduct n 2 (.ofNat 1) = .error .overflow := by
  have one : (Decimal.ofNat 1).number? = some ((Nat.factorial 1 : Nat) : ℚ) := Decimal.number?_whole false 1
  have result := exact_decimals.result n (by decide) one
  rwa [← decimalProduct_eq] at result

end Reckoner.UnaryOp
