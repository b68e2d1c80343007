import LoanOrders.Proofs.Sum

/-! When an operation has no result. Its exact value is too large if it is rounded above the largest
exponent, and this is decided by the size of the value alone. Between finite numbers nothing else can
go wrong, apart from a division by zero. -/

namespace LoanOrders.Context

variable {c : Context} {x y : Decimal} {q : ℚ}

theorem abs_rounded (c : Context) (q : ℚ) : |c.rounded q| = c.rounded |q| := by
  rcases le_total 0 q with h | h
  · rw [abs_of_nonneg h, abs_of_nonneg (rounded_nonneg h)]
  · have hneg := rounded_nonneg (c := c) (neg_nonneg.mpr h)
    rw [rounded_neg] at hneg
    rw [abs_of_nonpos h, abs_of_nonpos (neg_nonneg.mp hneg), rounded_neg]

/-- The numbers from this one on are too large: it lies halfway between the largest value of the
context and the power of ten that would come next. -/
def overflowBound (c : Context) : ℚ :=
  (10 ^ c.precision - 1 / 2) * 10 ^ (maxExponent + 1 - c.precision)

theorem overflowBound_pos : 0 < c.overflowBound := by
  have hone : (1 : ℚ) ≤ 10 ^ c.precision := one_le_pow₀ (by norm_num)
  exact mul_pos (by linarith) (ten_zpow_pos _)

section Bound

variable [NeZero c.precision]

/-- Rounding reaches a power of ten from half a unit below it. -/
theorem rounded_lt_ten_zpow_iff {k : ℤ} (hk : c.lowestPlace ≤ k) :
    c.rounded q < 10 ^ (k + c.precision) ↔ q < (10 ^ c.precision - 1 / 2) * 10 ^ k := by
  have hpow : (10 : ℚ) ^ (k + c.precision) = ((10 ^ c.precision : ℤ) : ℚ) * 10 ^ k := by
    rw [zpow_add₀ (by norm_num), zpow_natCast, mul_comm]
    push_cast
    rfl
  have heven : Even ((10 : ℤ) ^ c.precision) :=
    (by decide : Even (10 : ℤ)).pow_of_ne_zero (NeZero.ne _)
  have hlow : (10 : ℚ) ^ (k + c.precision - 1) ≤ (((10 ^ c.precision : ℤ) : ℚ) - 1) * 10 ^ k := by
    obtain ⟨i, hi⟩ := Nat.exists_eq_succ_of_ne_zero (NeZero.ne c.precision)
    have hone : (1 : ℚ) ≤ 10 ^ i := one_le_pow₀ (by norm_num)
    have hplace : k + ((i + 1 : ℕ) : ℤ) - 1 = k + i := by push_cast; ring
    rw [hi, Nat.succ_eq_add_one, hplace, zpow_add₀ (by norm_num), zpow_natCast, mul_comm]
    push_cast
    rw [pow_succ]
    exact mul_le_mul_of_nonneg_right (by linarith) (ten_zpow_pos k).le
  rw [hpow, rounded_lt_iff heven hk hlow hpow.ge]
  push_cast
  rfl

theorem rounded_lt_iff_lt_overflowBound :
    c.rounded q < 10 ^ (maxExponent + 1) ↔ q < c.overflowBound := by
  have hplace : c.lowestPlace ≤ maxExponent + 1 - c.precision := by
    simp only [lowestPlace, minExponent, maxExponent]
    omega
  have h := rounded_lt_ten_zpow_iff (q := q) hplace
  rwa [sub_add_cancel] at h

/-- Rounding leaves no number at the half unit itself. -/
theorem rounded_lt_half_iff {k : ℤ} (hk : c.lowestPlace ≤ k) :
    c.rounded q < (10 ^ c.precision - 1 / 2) * 10 ^ k ↔ q < (10 ^ c.precision - 1 / 2) * 10 ^ k := by
  have hunit := ten_zpow_pos k
  rw [← rounded_lt_ten_zpow_iff (q := q) hk]
  constructor
  · intro h
    refine h.trans ?_
    rw [zpow_add₀ (by norm_num), zpow_natCast, mul_comm (10 ^ k)]
    exact mul_lt_mul_of_pos_right (by linarith) hunit
  · intro h
    exact (rounded_le_of_lt hk h).trans_lt (mul_lt_mul_of_pos_right (by linarith) hunit)

theorem rounded_lt_overflowBound_iff : c.rounded q < c.overflowBound ↔ q < c.overflowBound := by
  apply rounded_lt_half_iff
  simp only [lowestPlace, minExponent, maxExponent]
  omega

theorem abs_rounded_lt_iff : |c.rounded q| < c.overflowBound ↔ |q| < c.overflowBound := by
  rw [abs_rounded, rounded_lt_overflowBound_iff]

/-- A number that was divided by a power of ten and rounded is multiplied by that power again: this
overflows if the number itself is too large. -/
theorem rounded_div_mul_lt_iff {j : ℕ} (hj : (j : ℤ) ≤ maxExponent) :
    |c.rounded (q / 10 ^ j) * 10 ^ j| < c.overflowBound ↔ |q| < c.overflowBound := by
  have hpos : (0 : ℚ) < 10 ^ j := by positivity
  have hplace : c.lowestPlace ≤ maxExponent + 1 - c.precision - j := by
    simp only [lowestPlace, minExponent]
    omega
  have hbound : c.overflowBound =
      (10 ^ c.precision - 1 / 2) * 10 ^ (maxExponent + 1 - c.precision - j) * 10 ^ j := by
    rw [overflowBound, mul_assoc, ← zpow_natCast 10 j, ← zpow_add₀ (by norm_num), sub_add_cancel]
  rw [hbound, abs_mul, abs_of_pos hpos, mul_lt_mul_iff_left₀ hpos, abs_rounded,
    rounded_lt_half_iff hplace, abs_div, abs_of_pos hpos, div_lt_iff₀ hpos]

end Bound

section Operations

variable [NeZero c.precision]

/-- One digit too many: the value is a power of ten, the first digit of which is one place higher. -/
theorem rounded_of_overlong {m : Nat} {e : ℤ}
    (h : ¬digitCount (roundToPlace .even m e (c.lastPlace (m * 10 ^ e))) ≤ c.precision) :
    c.rounded (m * 10 ^ e) = 10 ^ (c.lastPlace (m * 10 ^ e) + c.precision) ∧
      Decimal.adjusted (roundToPlace .even m e (c.lastPlace (m * 10 ^ e)) / 10)
        (c.lastPlace (m * 10 ^ e) + 1) = c.lastPlace (m * 10 ^ e) + c.precision := by
  rw [rounded_natCast, roundToPlace_lastPlace_eq h]
  obtain ⟨k, hk⟩ := Nat.exists_eq_succ_of_ne_zero (NeZero.ne c.precision)
  constructor
  · rw [zpow_add₀ (by norm_num), zpow_natCast, mul_comm]
    push_cast
    rfl
  · rw [hk, Nat.succ_eq_add_one, pow_succ, Nat.mul_div_cancel _ (by norm_num), Decimal.adjusted,
      digitCount_eq_log, Nat.log_pow (by norm_num)]
    push_cast
    ring

theorem exists_finish_iff {s : Bool} {m : Nat} {e : ℤ} :
    (∃ z, c.finish s m e = .ok z) ↔ (m : ℚ) * 10 ^ e < c.overflowBound := by
  rw [← rounded_lt_iff_lt_overflowBound]
  simp only [finish]
  by_cases hm : m = 0
  · simp [hm, ten_zpow_pos]
  rw [if_neg hm, ← lastPlace_natCast c hm]
  by_cases hover : maxExponent < Decimal.adjusted m e
  · have hmono := rounded_mono (c := c) ((ten_zpow_le hover).trans (zpow_adjusted_le hm e))
    rw [rounded_ten_zpow (by simp only [lowestPlace, minExponent, maxExponent]; omega)] at hmono
    simpa [hover] using hmono
  have hsize : c.lastPlace (m * 10 ^ e) + c.precision ≤ maxExponent + 1 := by
    rw [lastPlace_natCast c hm]
    simp only [Decimal.adjusted] at hover
    simp only [lowestPlace, minExponent, maxExponent] at hover ⊢
    omega
  rw [if_neg hover]
  split_ifs with hplace hfit htop
  · have hself := rounded_eq_self (c := c) (n := m) hplace
    rw [Int.cast_natCast] at hself
    simp only [Except.ok.injEq, exists_eq', true_iff, hself]
    refine (natCast_mul_zpow_lt m e).trans_le (ten_zpow_le ?_)
    simp only [Decimal.adjusted] at hover
    omega
  · rw [digitCount_le_iff (NeZero.pos c.precision)] at hfit
    simp only [Except.ok.injEq, exists_eq', true_iff, rounded_natCast]
    refine lt_of_lt_of_le ?_ (ten_zpow_le hsize)
    rw [zpow_add₀ (by norm_num), zpow_natCast, mul_comm (10 ^ _)]
    exact mul_lt_mul_of_pos_right (by exact_mod_cast hfit) (ten_zpow_pos _)
  · obtain ⟨hround, hadjusted⟩ := rounded_of_overlong hfit
    rw [hadjusted] at htop
    simp only [exists_false, false_iff, not_lt, hround]
    exact ten_zpow_le htop
  · obtain ⟨hround, hadjusted⟩ := rounded_of_overlong hfit
    rw [hadjusted] at htop
    simp only [Except.ok.injEq, exists_eq', true_iff, hround]
    exact zpow_lt_zpow_right₀ (by norm_num) (by omega)

theorem exists_mul_iff (hx : x.isFinite) (hy : y.isFinite) :
    (∃ z, c.mul x y = .ok z) ↔ |x.toRat * y.toRat| < c.overflowBound := by
  obtain ⟨s, m, e, rfl⟩ := Decimal.exists_of_isFinite hx
  obtain ⟨t, n, f, rfl⟩ := Decimal.exists_of_isFinite hy
  rw [abs_mul, abs_toRat_finite, abs_toRat_finite, mul_mul_mul_comm, ← zpow_add₀ (by norm_num)]
  exact_mod_cast exists_finish_iff

theorem exists_div_iff (hx : x.isFinite) (hy : y.isFinite) :
    (∃ z, c.div x y = .ok z) ↔ y.toRat ≠ 0 ∧ |x.toRat / y.toRat| < c.overflowBound := by
  obtain ⟨s, m, e, rfl⟩ := Decimal.exists_of_isFinite hx
  obtain ⟨t, n, f, rfl⟩ := Decimal.exists_of_isFinite hy
  rw [abs_div, abs_toRat_finite, abs_toRat_finite]
  simp only [div]
  by_cases hn : n = 0
  · simp [hn, signed]
  have hn' : (Decimal.finite t n f).toRat ≠ 0 := by
    rw [← abs_pos, abs_toRat_finite]
    exact mul_pos (by exact_mod_cast Nat.pos_of_ne_zero hn) (ten_zpow_pos f)
  rw [if_neg hn, and_iff_right hn']
  by_cases hm : m = 0
  · rw [if_pos hm, exists_finish_iff]
    simp [hm]
  · obtain ⟨k, g, hfinish, hround, -⟩ := exists_divFinite_eq c (s != t) hm e hn f
    rw [if_neg hm, hfinish, exists_finish_iff, ← rounded_lt_iff_lt_overflowBound, hround,
      rounded_lt_iff_lt_overflowBound]

theorem exists_mul_ofNat_iff (hx : x.isFinite) (n : Nat) :
    (∃ z, c.mul x (.ofNat n) = .ok z) ↔ |x.toRat * n| < c.overflowBound := by
  rw [exists_mul_iff hx (Decimal.isFinite_ofNat n), Decimal.toRat_ofNat]

theorem exists_div_ofNat_iff (hx : x.isFinite) {n : Nat} (hn : n ≠ 0) :
    (∃ z, c.div x (.ofNat n) = .ok z) ↔ |x.toRat / n| < c.overflowBound := by
  have hne : (Decimal.ofNat n).toRat ≠ 0 := by rwa [Decimal.toRat_ofNat, Nat.cast_ne_zero]
  rw [exists_div_iff hx (Decimal.isFinite_ofNat n), and_iff_right hne, Decimal.toRat_ofNat]

theorem exists_addAligned_iff {s t : Bool} {m n : Nat} {e f : ℤ} (hm : m ≠ 0) (hn : n ≠ 0)
    (hfe : f ≤ e) : (∃ z, c.addAligned s m e t n f = .ok z) ↔
      |(signed s m : ℚ) * 10 ^ e + signed t n * 10 ^ f| < c.overflowBound := by
  obtain ⟨a, g, heq, hround, -⟩ := exists_addAligned_eq c s hm t hn hfe
  have habs : (a.natAbs : ℚ) * 10 ^ g = |(a : ℚ) * 10 ^ g| := by
    rw [abs_mul, abs_of_pos (ten_zpow_pos g), Nat.cast_natAbs, Int.cast_abs]
  rw [heq, exists_finish_iff, habs, ← abs_rounded_lt_iff, hround, abs_rounded_lt_iff]

theorem exists_addZero_iff {s : Bool} {m : Nat} {e place : ℤ} (hplace : place ≤ e) :
    (∃ z, c.addZero s m e place = .ok z) ↔ |(signed s m : ℚ) * 10 ^ e| < c.overflowBound := by
  obtain ⟨k, g, heq, hval⟩ := addZero_eq c s m hplace
  rw [heq, exists_finish_iff, ← hval, ← Decimal.toRat_finite, abs_toRat_finite]

theorem exists_add_iff (hx : x.isFinite) (hy : y.isFinite) :
    (∃ z, c.add x y = .ok z) ↔ |x.toRat + y.toRat| < c.overflowBound := by
  obtain ⟨s, m, e, rfl⟩ := Decimal.exists_of_isFinite hx
  obtain ⟨t, n, f, rfl⟩ := Decimal.exists_of_isFinite hy
  have hzero (s : Bool) : ((signed s 0 : ℤ) : ℚ) = 0 := by cases s <;> rfl
  simp only [add, addFinite, Decimal.toRat_finite]
  split_ifs with hm hn hn hlt
  · rw [exists_finish_iff, hm, hn, hzero, hzero]
    simp
  · rw [exists_addZero_iff (min_le_right e f), hm, hzero, zero_mul, zero_add]
  · rw [exists_addZero_iff (min_le_left e f), hn, hzero, zero_mul, add_zero]
  · rw [exists_addAligned_iff hn hm hlt.le, add_comm]
  · exact exists_addAligned_iff hm hn (not_lt.mp hlt)

theorem exists_sub_iff (hx : x.isFinite) (hy : y.isFinite) :
    (∃ z, c.sub x y = .ok z) ↔ |x.toRat - y.toRat| < c.overflowBound := by
  rw [sub, Decimal.isNaN_eq_false hy, if_neg Bool.false_ne_true,
    exists_add_iff hx ((Decimal.isFinite_negate y).trans hy), Decimal.toRat_negate, ← sub_eq_add_neg]

end Operations

section Signals

variable {e : Signal}

theorem eq_overflow_of_finish {s : Bool} {m : Nat} {f : ℤ} (h : c.finish s m f = .error e) :
    e = .overflow := by
  unfold finish at h
  dsimp only at h
  split_ifs at h <;> exact (Except.error.inj h).symm

theorem eq_overflow_of_add (hx : x.isFinite) (hy : y.isFinite) (h : c.add x y = .error e) :
    e = .overflow := by
  obtain ⟨s, m, f, rfl⟩ := Decimal.exists_of_isFinite hx
  obtain ⟨t, n, g, rfl⟩ := Decimal.exists_of_isFinite hy
  simp only [add, addFinite, addZero, addAligned] at h
  split_ifs at h <;> exact eq_overflow_of_finish h

theorem eq_overflow_of_sub (hx : x.isFinite) (hy : y.isFinite) (h : c.sub x y = .error e) :
    e = .overflow := by
  rw [sub, Decimal.isNaN_eq_false hy, if_neg Bool.false_ne_true] at h
  exact eq_overflow_of_add hx ((Decimal.isFinite_negate y).trans hy) h

theorem eq_overflow_of_div (hx : x.isFinite) (hy : y.isFinite) (hne : y.toRat ≠ 0)
    (h : c.div x y = .error e) : e = .overflow := by
  obtain ⟨s, m, f, rfl⟩ := Decimal.exists_of_isFinite hx
  obtain ⟨t, n, g, rfl⟩ := Decimal.exists_of_isFinite hy
  have hn : n ≠ 0 := by
    rintro rfl
    exact hne (by simp [signed])
  simp only [div, if_neg hn, divFinite] at h
  split_ifs at h <;> exact eq_overflow_of_finish h

end Signals

end LoanOrders.Context
