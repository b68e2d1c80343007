import LoanOrders.Proofs.Digits
import LoanOrders.Proofs.Rounded

/-! What `Context.finish` computes: a value rounded to the context, with the sign it was given. It
fails only for a value that rounding may lift above the largest exponent. -/

namespace LoanOrders

theorem natCast_mul_zpow_lt (m : Nat) (e : ℤ) : (m : ℚ) * 10 ^ e < 10 ^ (e + digitCount m) := by
  rw [zpow_add₀ (by norm_num), zpow_natCast, mul_comm]
  exact mul_lt_mul_of_pos_left (by exact_mod_cast lt_pow_digitCount m) (ten_zpow_pos e)

theorem zpow_adjusted_le {m : Nat} (hm : m ≠ 0) (e : ℤ) :
    (10 : ℚ) ^ Decimal.adjusted m e ≤ m * 10 ^ e := by
  have hcount := digitCount_pos m
  have hexp : Decimal.adjusted m e = e + ((digitCount m - 1 : Nat) : ℤ) := by
    rw [Decimal.adjusted]
    omega
  rw [hexp, zpow_add₀ (by norm_num), zpow_natCast, mul_comm]
  exact mul_le_mul_of_nonneg_right (by exact_mod_cast pow_le_of_digitCount hm) (ten_zpow_pos e).le

theorem log_natCast_mul_zpow {m : Nat} (hm : m ≠ 0) (e : ℤ) :
    Int.log 10 |(m : ℚ) * 10 ^ e| = Decimal.adjusted m e := by
  have hpos : (0 : ℚ) < m * 10 ^ e :=
    mul_pos (by exact_mod_cast Nat.pos_of_ne_zero hm) (ten_zpow_pos e)
  rw [abs_of_pos hpos]
  apply le_antisymm
  · rw [← Int.lt_add_one_iff, ← Int.lt_zpow_iff_log_lt (by norm_num) hpos]
    have hlt := natCast_mul_zpow_lt m e
    rw [show Decimal.adjusted m e + 1 = e + digitCount m by rw [Decimal.adjusted]; ring]
    exact_mod_cast hlt
  · rw [← Int.zpow_le_iff_le_log (by norm_num) hpos]
    exact_mod_cast zpow_adjusted_le hm e

theorem natCast_mul_zpow_div {m : Nat} {e place : ℤ} (h : place ≤ e) :
    (m : ℚ) * 10 ^ e / 10 ^ place = (m * 10 ^ (e - place).toNat : Nat) := by
  rw [mul_div_assoc, ten_zpow_div h]
  push_cast
  rfl

theorem natCast_mul_zpow_div_cut {m : Nat} {e place : ℤ} (h : e < place) :
    (m : ℚ) * 10 ^ e / 10 ^ place = (m : ℚ) / (10 ^ (place - e).toNat : Nat) := by
  rw [div_eq_div_iff (ten_zpow_pos place).ne' (by positivity), mul_assoc]
  congr 1
  rw [Nat.cast_pow, Nat.cast_ofNat, ← zpow_natCast, ← zpow_add₀ (by norm_num)]
  congr 1
  omega

theorem natCast_div_pow_lt_tenth {m cut : Nat} (h : digitCount m < cut) :
    (m : ℚ) / (10 ^ cut : Nat) < 1 / 10 := by
  have hpos : (0 : ℚ) < (10 ^ cut : Nat) := by positivity
  rw [div_lt_div_iff₀ hpos (by norm_num), one_mul]
  have hlt : m * 10 < 10 ^ cut := by
    calc m * 10 < 10 ^ digitCount m * 10 := by
          have := lt_pow_digitCount m
          omega
      _ = 10 ^ (digitCount m + 1) := (pow_succ 10 _).symm
      _ ≤ 10 ^ cut := Nat.pow_le_pow_right (by norm_num) h
  exact_mod_cast hlt

theorem roundToPlace_even (m : Nat) (e place : ℤ) :
    (roundToPlace .even m e place : ℤ) = nearestEven ((m : ℚ) * 10 ^ e / 10 ^ place) := by
  simp only [roundToPlace]
  split_ifs with hle hcut
  · rw [natCast_mul_zpow_div hle]
    exact (nearestEven_intCast _).symm
  · rw [natCast_mul_zpow_div_cut (not_le.mp hle)]
    have hlt := natCast_div_pow_lt_tenth hcut
    have hnonneg : (0 : ℚ) ≤ (m : ℚ) / (10 ^ (place - e).toNat : Nat) := by positivity
    symm
    apply nearestEven_eq_of_abs_lt
    rw [Nat.cast_zero, Int.cast_zero, sub_zero, abs_of_nonneg hnonneg]
    linarith
  · rw [natCast_mul_zpow_div_cut (not_le.mp hle)]
    exact roundQuotient_even (by positivity)

theorem roundToPlace_away (m : Nat) (e place : ℤ) :
    (roundToPlace .away m e place : ℤ) = round ((m : ℚ) * 10 ^ e / 10 ^ place) := by
  simp only [roundToPlace]
  split_ifs with hle hcut
  · rw [natCast_mul_zpow_div hle, round_natCast]
  · rw [natCast_mul_zpow_div_cut (not_le.mp hle)]
    have hlt := natCast_div_pow_lt_tenth hcut
    have hnonneg : (0 : ℚ) ≤ (m : ℚ) / (10 ^ (place - e).toNat : Nat) := by positivity
    symm
    rw [Nat.cast_zero, round_eq_zero_iff, Set.mem_Ico]
    constructor <;> linarith
  · rw [natCast_mul_zpow_div_cut (not_le.mp hle)]
    exact roundQuotient_away (by positivity)

namespace Context

variable {c : Context} {s : Bool} {m : Nat} {e : ℤ} {x : Decimal}

theorem lastPlace_natCast (c : Context) (hm : m ≠ 0) :
    c.lastPlace (m * 10 ^ e) = max (e + digitCount m - c.precision) c.lowestPlace := by
  rw [lastPlace, log_natCast_mul_zpow hm, Decimal.adjusted]
  congr 1
  ring

theorem rounded_natCast (c : Context) (m : Nat) (e : ℤ) :
    c.rounded (m * 10 ^ e) =
      (roundToPlace .even m e (c.lastPlace (m * 10 ^ e)) : ℚ) * 10 ^ c.lastPlace (m * 10 ^ e) := by
  rw [rounded, ← roundToPlace_even, Int.cast_natCast]

/-- Rounding at the last place gives at most one digit too many, and then a power of ten. -/
theorem roundToPlace_lastPlace_le (c : Context) (m : Nat) (e : ℤ) :
    roundToPlace .even m e (c.lastPlace (m * 10 ^ e)) ≤ 10 ^ c.precision := by
  have hlt := (le_abs_self _).trans_lt (c.abs_lt_lastPlace (m * 10 ^ e))
  rw [zpow_add₀ (by norm_num), zpow_natCast, mul_comm (10 ^ c.lastPlace _)] at hlt
  have hdiv : (m : ℚ) * 10 ^ e / 10 ^ c.lastPlace (m * 10 ^ e) ≤ 10 ^ c.precision :=
    (div_le_iff₀ (ten_zpow_pos _)).mpr hlt.le
  have hle : nearestEven ((m : ℚ) * 10 ^ e / 10 ^ c.lastPlace (m * 10 ^ e)) ≤
      ((10 ^ c.precision : Nat) : ℤ) :=
    nearestEven_le_of_le (by push_cast; exact hdiv)
  rw [← roundToPlace_even] at hle
  exact Int.ofNat_le.mp hle

theorem roundToPlace_lastPlace_eq [NeZero c.precision]
    (h : ¬digitCount (roundToPlace .even m e (c.lastPlace (m * 10 ^ e))) ≤ c.precision) :
    roundToPlace .even m e (c.lastPlace (m * 10 ^ e)) = 10 ^ c.precision := by
  rw [digitCount_le_iff (NeZero.pos c.precision), not_lt] at h
  exact le_antisymm (roundToPlace_lastPlace_le c m e) h

theorem finish_ok [NeZero c.precision] (h : c.finish s m e = .ok x) :
    ∃ n f, x = .finite s n f ∧ (n : ℚ) * 10 ^ f = c.rounded (m * 10 ^ e) := by
  simp only [finish] at h
  split_ifs at h with hm hover hplace hfit htop
  · cases h
    exact ⟨0, _, rfl, by simp [hm]⟩
  · cases h
    rw [← lastPlace_natCast c hm] at hplace
    exact ⟨m, e, rfl, (rounded_eq_self (n := m) hplace).symm⟩
  · cases h
    rw [← lastPlace_natCast c hm]
    exact ⟨_, _, rfl, (rounded_natCast c m e).symm⟩
  · cases h
    rw [← lastPlace_natCast c hm] at hfit ⊢
    refine ⟨_, _, rfl, ?_⟩
    -- One digit too many: the coefficient is a power of ten, which loses its last zero.
    obtain ⟨k, hk⟩ := Nat.exists_eq_succ_of_ne_zero (NeZero.ne c.precision)
    rw [rounded_natCast, roundToPlace_lastPlace_eq hfit, hk, pow_succ,
      Nat.mul_div_cancel _ (by norm_num), zpow_add₀ (by norm_num)]
    push_cast
    ring

theorem exists_finish [NeZero c.precision] (s : Bool) (h : (m : ℚ) * 10 ^ e < 10 ^ maxExponent) :
    ∃ x, c.finish s m e = .ok x := by
  simp only [finish]
  by_cases hm : m = 0
  · exact ⟨_, if_pos hm⟩
  · have hadj : Decimal.adjusted m e < maxExponent :=
      (zpow_lt_zpow_iff_right₀ (by norm_num)).mp ((zpow_adjusted_le hm e).trans_lt h)
    rw [if_neg hm, if_neg (by omega)]
    split_ifs with hplace hfit htop
    · exact ⟨_, rfl⟩
    · exact ⟨_, rfl⟩
    · exfalso
      rw [← lastPlace_natCast c hm] at hfit
      obtain ⟨k, hk⟩ := Nat.exists_eq_succ_of_ne_zero (NeZero.ne c.precision)
      rw [← lastPlace_natCast c hm, roundToPlace_lastPlace_eq hfit, hk, pow_succ,
        Nat.mul_div_cancel _ (by norm_num)] at htop
      have hdigits : digitCount (10 ^ k) ≤ c.precision := by
        rw [digitCount_le_iff (NeZero.pos c.precision), hk]
        exact Nat.pow_lt_pow_right (by norm_num) (by omega)
      simp only [Decimal.adjusted, maxExponent, lastPlace_natCast c hm, lowestPlace,
        minExponent] at htop hadj
      omega
    · exact ⟨_, rfl⟩

end Context

end LoanOrders
