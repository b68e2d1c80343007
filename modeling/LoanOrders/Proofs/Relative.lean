import LoanOrders.Proofs.Rounded

/-! A chain of roundings changes a number by a small part of it. For six of them, whole numbers below
`10 ^ 26` are near enough to be found again by rounding to an integer. -/

namespace LoanOrders

/-- The largest part of a number that one rounding changes. -/
def unitRoundoff : ℚ := 10 ^ (-27 : ℤ) / 2

/-- A number that is another one up to a count of roundings. -/
structure IsNear (n : Nat) (p q : ℚ) : Prop where
  low : q * (1 - unitRoundoff) ^ n ≤ p
  high : p ≤ q * (1 + unitRoundoff) ^ n

namespace IsNear

variable {n : Nat} {p q k : ℚ}

theorem unitRoundoff_pos : 0 < unitRoundoff := half_pos (ten_zpow_pos _)

theorem refl (q : ℚ) : IsNear 0 q q := ⟨by simp, by simp⟩

theorem mul (h : IsNear n p q) (hk : 0 ≤ k) : IsNear n (p * k) (q * k) := by
  constructor
  · rw [mul_right_comm]
    exact mul_le_mul_of_nonneg_right h.low hk
  · rw [mul_right_comm]
    exact mul_le_mul_of_nonneg_right h.high hk

theorem div (h : IsNear n p q) (hk : 0 ≤ k) : IsNear n (p / k) (q / k) := by
  rw [div_eq_mul_inv, div_eq_mul_inv]
  exact h.mul (inv_nonneg.mpr hk)

theorem half_le (hn : n ≤ 6) : 1 / 2 ≤ (1 - unitRoundoff) ^ n := by
  have hsmall : unitRoundoff ≤ 1 / 12 := by norm_num [unitRoundoff]
  have hbernoulli := one_add_mul_le_pow (show -2 ≤ -unitRoundoff by linarith) n
  have hn' : (n : ℚ) ≤ 6 := by exact_mod_cast hn
  have hprod := mul_le_mul hn' hsmall unitRoundoff_pos.le (by norm_num)
  rw [← sub_eq_add_neg] at hbernoulli
  linarith

theorem rounded {e : ℤ} (h : IsNear n p q) (hn : n ≤ 6) (he : -1000 ≤ e) (hq : 10 ^ e ≤ q) :
    IsNear (n + 1) (Context.standard.rounded p) q := by
  have hq₀ : 0 < q := (ten_zpow_pos _).trans_le hq
  have hhalf : q / 2 ≤ p := by
    have := mul_le_mul_of_nonneg_left (half_le hn) hq₀.le
    linarith [h.low]
  have hp : 0 < p := (half_pos hq₀).trans_le hhalf
  have hnormal : (10 : ℚ) ^ Context.minExponent ≤ |p| := by
    have hplace : (10 : ℚ) ^ Context.minExponent ≤ 10 ^ (-1001 : ℤ) := ten_zpow_le (by decide)
    have hten : (10 : ℚ) ^ (-1000 : ℤ) = 10 ^ (-1001 : ℤ) * 10 := by
      rw [← zpow_add_one₀ (by norm_num)]
      rfl
    rw [abs_of_pos hp]
    linarith [ten_zpow_pos (-1001), ten_zpow_le he]
  have herr := Context.abs_rounded_sub_le_mul (c := .standard) hnormal
  have hplaces : (1 - (Context.standard.precision : ℤ)) = -27 := rfl
  rw [abs_of_pos hp, hplaces, mul_div_assoc, ← unitRoundoff] at herr
  obtain ⟨hlow, hhigh⟩ := abs_le.mp herr
  have hdown : 0 ≤ 1 - unitRoundoff := by norm_num [unitRoundoff]
  have hup : 0 ≤ 1 + unitRoundoff := by linarith [unitRoundoff_pos]
  constructor
  · calc q * (1 - unitRoundoff) ^ (n + 1) = q * (1 - unitRoundoff) ^ n * (1 - unitRoundoff) := by ring
      _ ≤ p * (1 - unitRoundoff) := mul_le_mul_of_nonneg_right h.low hdown
      _ ≤ Context.standard.rounded p := by linarith
  · calc Context.standard.rounded p ≤ p * (1 + unitRoundoff) := by linarith
      _ ≤ q * (1 + unitRoundoff) ^ n * (1 + unitRoundoff) := mul_le_mul_of_nonneg_right h.high hup
      _ = q * (1 + unitRoundoff) ^ (n + 1) := by ring

theorem round_eq {m : Nat} (h : IsNear n p m) (hn : n ≤ 6) (hm : m < 10 ^ 26) : round p = m := by
  have hm₀ : (0 : ℚ) ≤ m := m.cast_nonneg
  have hm' : (m : ℚ) < 10 ^ 26 := by exact_mod_cast hm
  have hn' : (n : ℚ) ≤ 6 := by exact_mod_cast hn
  have hlow : 1 - 4 / 10 ^ 27 ≤ (1 - unitRoundoff) ^ n := by
    have hbernoulli := one_add_mul_le_pow (show -2 ≤ -unitRoundoff by norm_num [unitRoundoff]) n
    have hprod := mul_le_mul_of_nonneg_right hn' unitRoundoff_pos.le
    rw [← sub_eq_add_neg] at hbernoulli
    norm_num [unitRoundoff] at hprod hbernoulli ⊢
    linarith
  have hhigh : (1 + unitRoundoff) ^ n ≤ 1 + 4 / 10 ^ 27 := by
    calc (1 + unitRoundoff) ^ n ≤ (1 + unitRoundoff) ^ 6 :=
          pow_le_pow_right₀ (by linarith [unitRoundoff_pos]) hn
      _ ≤ 1 + 4 / 10 ^ 27 := by norm_num [unitRoundoff]
  have hlow' := (mul_le_mul_of_nonneg_left hlow hm₀).trans h.low
  have hhigh' := h.high.trans (mul_le_mul_of_nonneg_left hhigh hm₀)
  rw [round_eq_iff, Set.mem_Ico, Int.cast_natCast]
  constructor <;> linarith

end IsNear

end LoanOrders
