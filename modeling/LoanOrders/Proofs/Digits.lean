import Mathlib
import LoanOrders.Decimal.Rounding

/-! The number of digits of a natural number is its logarithm, so that it bounds the number from
both sides by powers of ten. -/

namespace LoanOrders

theorem countDigits_eq_log {fuel n : Nat} (h : n < 2 ^ (fuel + 1)) :
    countDigits fuel n = Nat.log 10 n + 1 := by
  induction fuel generalizing n with
  | zero =>
    have hn : n < 10 := by omega
    simp [countDigits, Nat.log_of_lt hn]
  | succ fuel ih =>
    by_cases hn : n < 10
    · simp [countDigits, hn, Nat.log_of_lt hn]
    · have hdiv : n / 10 < 2 ^ (fuel + 1) := by
        rw [pow_succ] at h
        omega
      have hlog : Nat.log 10 n = Nat.log 10 (n / 10) + 1 :=
        Nat.log_of_one_lt_of_le (by omega) (by omega)
      rw [countDigits, if_neg hn, ih hdiv, hlog]

theorem digitCount_eq_log (n : Nat) : digitCount n = Nat.log 10 n + 1 :=
  countDigits_eq_log Nat.lt_log2_self

theorem digitCount_pos (n : Nat) : 0 < digitCount n := by
  rw [digitCount_eq_log]
  omega

theorem lt_pow_digitCount (n : Nat) : n < 10 ^ digitCount n := by
  rw [digitCount_eq_log]
  exact Nat.lt_pow_succ_log_self (by omega) n

theorem pow_le_of_digitCount {n : Nat} (hn : n ≠ 0) : 10 ^ (digitCount n - 1) ≤ n := by
  rw [digitCount_eq_log, Nat.add_sub_cancel]
  exact Nat.pow_log_le_self 10 hn

theorem digitCount_le_iff {n k : Nat} (hk : 0 < k) : digitCount n ≤ k ↔ n < 10 ^ k := by
  rw [digitCount_eq_log]
  constructor
  · intro h
    exact (Nat.lt_pow_succ_log_self (by omega) n).trans_le (Nat.pow_le_pow_right (by omega) h)
  · intro h
    have := Nat.log_lt_of_lt_pow' (by omega) h
    omega

theorem pow_trailingZeros_dvd (limit n : Nat) : 10 ^ trailingZeros limit n ∣ n := by
  induction limit generalizing n with
  | zero => simp [trailingZeros]
  | succ limit ih =>
    by_cases h : n % 10 = 0
    · have hn : n = 10 * (n / 10) := by omega
      rw [trailingZeros, if_pos h, pow_succ']
      conv_rhs => rw [hn]
      exact Nat.mul_dvd_mul_left 10 (ih _)
    · simp [trailingZeros, h]

/-- No zero is left at the end if the limit lets all digits be looked at. -/
theorem not_ten_dvd_div_trailingZeros {limit n : Nat} (hn : n ≠ 0) (h : n < 10 ^ limit) :
    ¬10 ∣ n / 10 ^ trailingZeros limit n := by
  induction limit generalizing n with
  | zero =>
    rw [pow_zero] at h
    omega
  | succ limit ih =>
    by_cases hzero : n % 10 = 0
    · have hshort : n / 10 < 10 ^ limit := by
        rw [pow_succ] at h
        omega
      rw [trailingZeros, if_pos hzero, pow_succ', ← Nat.div_div_eq_div_mul]
      exact ih (by omega) hshort
    · rw [trailingZeros, if_neg hzero, pow_zero, Nat.div_one]
      omega

end LoanOrders
