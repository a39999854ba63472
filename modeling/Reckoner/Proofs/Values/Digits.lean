import Reckoner.Rounding

namespace Reckoner

theorem tenTo_pos (n : Nat) : 0 < tenTo n := Nat.pow_pos (by decide)

theorem tenTo_add (m n : Nat) : tenTo (m + n) = tenTo m * tenTo n := Nat.pow_add ..

theorem tenTo_succ (n : Nat) : tenTo (n + 1) = tenTo n * 10 := Nat.pow_succ ..

theorem tenTo_lt_iff {m n : Nat} : tenTo m < tenTo n ↔ m < n :=
  Nat.pow_lt_pow_iff_right (by decide)

theorem tenTo_le_iff {m n : Nat} : tenTo m ≤ tenTo n ↔ m ≤ n :=
  Nat.pow_le_pow_iff_right (by decide)

theorem digitCount_of_lt {n : Nat} (small : n < 10) : digitCount n = 1 := by
  rw [digitCount, if_pos small]

theorem digitCount_pos (n : Nat) : 0 < digitCount n := by
  unfold digitCount
  split <;> omega

theorem lt_tenTo_digitCount (n : Nat) : n < tenTo (digitCount n) := by
  induction n using digitCount.induct with
  | case1 n small =>
    rw [digitCount, if_pos small]
    exact small
  | case2 n large ih =>
    rw [digitCount, if_neg large, tenTo_succ]
    omega

theorem tenTo_le_of_digitCount {n : Nat} (positive : 0 < n) : tenTo (digitCount n - 1) ≤ n := by
  induction n using digitCount.induct with
  | case1 n small =>
    rw [digitCount, if_pos small]
    exact positive
  | case2 n large ih =>
    have above := ih (by omega)
    have digits := digitCount_pos (n / 10)
    rw [digitCount, if_neg large, Nat.add_sub_cancel]
    obtain ⟨k, same⟩ : ∃ k, digitCount (n / 10) = k + 1 := ⟨digitCount (n / 10) - 1, by omega⟩
    rw [same, Nat.add_sub_cancel] at above
    rw [same, tenTo_succ]
    omega

theorem digitCount_le_of_lt {n k : Nat} (positive : 0 < k) (bound : n < tenTo k) :
    digitCount n ≤ k := by
  by_cases zero : n = 0
  · subst zero
    rw [digitCount]
    exact positive
  · have below := tenTo_le_of_digitCount (Nat.pos_of_ne_zero zero)
    have fewer := tenTo_lt_iff.mp (Nat.lt_of_le_of_lt below bound)
    omega

theorem digitCount_tenTo (n : Nat) : digitCount (tenTo n) = n + 1 := by
  have above := tenTo_lt_iff.mp (lt_tenTo_digitCount (tenTo n))
  have digits := digitCount_le_of_lt (Nat.succ_pos n) (tenTo_lt_iff.mpr (Nat.lt_succ_self n))
  omega

theorem lt_of_scaled {n d a b x y : Nat} (bound : n * tenTo a < d * tenTo b)
    (same : b + x = y + a) : n * tenTo x < d * tenTo y := by
  refine Nat.lt_of_mul_lt_mul_right (a := tenTo a) ?_
  calc n * tenTo x * tenTo a = n * tenTo a * tenTo x := Nat.mul_right_comm ..
    _ < d * tenTo b * tenTo x := Nat.mul_lt_mul_of_pos_right bound (tenTo_pos x)
    _ = d * tenTo (b + x) := by rw [tenTo_add, Nat.mul_assoc]
    _ = d * tenTo y * tenTo a := by rw [same, tenTo_add, Nat.mul_assoc]

theorem logTen_one {n : Nat} (positive : 0 < n) : logTen n 1 = digitCount n - 1 := by
  have digits := digitCount_pos n
  have one : digitCount 1 = 1 := digitCount_of_lt (by decide)
  have least : 1 * tenTo ((digitCount n : Int) - digitCount 1).toNat ≤
      n * tenTo (-((digitCount n : Int) - digitCount 1)).toNat := by
    have up : ((digitCount n : Int) - digitCount 1).toNat = digitCount n - 1 := by omega
    have down : (-((digitCount n : Int) - digitCount 1)).toNat = 0 := by omega
    rw [up, down, Nat.one_mul]
    exact Nat.le_trans (tenTo_le_of_digitCount positive) (Nat.le_mul_of_pos_right n (tenTo_pos 0))
  rw [logTen, if_pos least, one]
  rfl

theorem lt_tenTo_logTen {n d : Nat} (divisor : 0 < d) {x y : Nat}
    (next : (y : Int) - x = logTen n d + 1) : n * tenTo x < d * tenTo y := by
  unfold logTen at next
  dsimp only at next
  split at next
  · have digits := digitCount_pos d
    have shifted : digitCount n + x = digitCount d - 1 + y := by omega
    calc n * tenTo x < tenTo (digitCount n) * tenTo x :=
          Nat.mul_lt_mul_of_pos_right (lt_tenTo_digitCount n) (tenTo_pos x)
      _ = tenTo (digitCount d - 1) * tenTo y := by rw [← tenTo_add, shifted, tenTo_add]
      _ ≤ d * tenTo y := Nat.mul_le_mul_right _ (tenTo_le_of_digitCount divisor)
  · rename_i less
    exact lt_of_scaled (Nat.lt_of_not_le less) (by omega)

theorem roundHalfEven_le {n d m : Nat} (bound : n < d * m) : roundHalfEven n d ≤ m := by
  have below : n / d < m := Nat.div_lt_of_lt_mul bound
  unfold roundHalfEven Rounding.quotient
  split <;> omega

end Reckoner
