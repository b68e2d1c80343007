import LoanOrders.Proofs.Arithmetic

/-! Sums and differences round their exact value once. An operand far below the last digit that can
matter is replaced by another one: neither of the two reaches the next number at which rounding
changes. -/

namespace LoanOrders

/-- Rounding only changes at multiples of one half. -/
theorem nearestEven_congr {k : ℤ} {p q : ℚ} (hp : k < 2 * p ∧ 2 * p < k + 1)
    (hq : k < 2 * q ∧ 2 * q < k + 1) : nearestEven p = nearestEven q := by
  obtain ⟨N, hN⟩ : ∃ N, nearestEven p = N := ⟨_, rfl⟩
  have hnear := abs_le.mp (abs_sub_nearestEven_le p)
  rw [hN] at hnear
  have hlow : ((2 * N - 1 : ℤ) : ℚ) < ((k + 1 : ℤ) : ℚ) := by push_cast; linarith
  have hhigh : ((k : ℤ) : ℚ) < ((2 * N + 1 : ℤ) : ℚ) := by push_cast; linarith
  have hlow' : 2 * N - 1 ≤ k := Int.lt_add_one_iff.mp (by exact_mod_cast hlow)
  have hhigh' : k + 1 ≤ 2 * N + 1 := Int.add_one_le_iff.mpr (by exact_mod_cast hhigh)
  have hN₁ : (2 : ℚ) * N - 1 ≤ k := by exact_mod_cast hlow'
  have hN₂ : (k : ℚ) + 1 ≤ 2 * N + 1 := by exact_mod_cast hhigh'
  rw [hN, eq_comm]
  apply nearestEven_eq_of_abs_lt
  rw [abs_lt]
  constructor <;> linarith [hq.1, hq.2]

namespace Decimal

variable {x y z : Decimal}

theorem toRat_negate (x : Decimal) : x.negate.toRat = -x.toRat := by
  cases x with
  | finite s m e => cases s <;> simp [negate, Context.signed]
  | infinite | nan => simp [negate, toRat]

theorem isFinite_negate (x : Decimal) : x.negate.isFinite = x.isFinite := by
  cases x <;> rfl

theorem isNaN_eq_false (h : x.isFinite) : x.isNaN = false := by
  obtain ⟨s, m, e, rfl⟩ := exists_of_isFinite h
  rfl

theorem isFinite_of_add {c : Context} (h : c.add x y = .ok z) (hz : z.isFinite) :
    x.isFinite ∧ y.isFinite := by
  cases x with
  | finite =>
    cases y with
    | finite => exact ⟨rfl, rfl⟩
    | infinite =>
      obtain rfl := Except.ok.inj h
      simp [isFinite] at hz
    | nan => exact absurd hz (not_isFinite_of_nanResult (.inr rfl) h)
  | infinite =>
    cases y with
    | finite =>
      obtain rfl := Except.ok.inj h
      simp [isFinite] at hz
    | infinite =>
      simp only [Context.add] at h
      split_ifs at h
      obtain rfl := Except.ok.inj h
      simp [isFinite] at hz
    | nan => exact absurd hz (not_isFinite_of_nanResult (.inr rfl) h)
  | nan => exact absurd hz (not_isFinite_of_nanResult (.inl rfl) h)

end Decimal

namespace Context

variable {c : Context} {x y z : Decimal} {p q u v : ℚ}

section Far

theorem rounded_congr_half {K k : ℤ} (hlast : c.lastPlace p = c.lastPlace q)
    (hk : k < c.lastPlace q) (hp : K * (5 * 10 ^ k) < p ∧ p < (K + 1) * (5 * 10 ^ k))
    (hq : K * (5 * 10 ^ k) < q ∧ q < (K + 1) * (5 * 10 ^ k)) : c.rounded p = c.rounded q := by
  obtain ⟨j, hj⟩ : ∃ j : Nat, c.lastPlace q = k + 1 + j := ⟨(c.lastPlace q - k - 1).toNat, by omega⟩
  have hunit : (0 : ℚ) < 5 * 10 ^ k := mul_pos (by norm_num) (ten_zpow_pos k)
  have hpow : (0 : ℚ) < 10 ^ j := by positivity
  have hplace : (10 : ℚ) ^ c.lastPlace q = 2 * (5 * 10 ^ k) * 10 ^ j := by
    rw [hj, zpow_add₀ (by norm_num), zpow_add₀ (by norm_num), zpow_natCast, zpow_one]
    ring
  -- A half of the last place is a whole number of units, and no multiple of it lies inside.
  have hhalf {r : ℚ} (hr : K * (5 * 10 ^ k) < r ∧ r < (K + 1) * (5 * 10 ^ k)) :
      ((K / 10 ^ j : ℤ) : ℚ) < 2 * (r / 10 ^ c.lastPlace q) ∧
        2 * (r / 10 ^ c.lastPlace q) < ((K / 10 ^ j : ℤ) : ℚ) + 1 := by
    have hdiv : 2 * (r / 10 ^ c.lastPlace q) = r / (5 * 10 ^ k) / 10 ^ j := by
      rw [hplace]
      field_simp
    have hlow : ((K / 10 ^ j * 10 ^ j : ℤ) : ℚ) ≤ K := by
      exact_mod_cast Int.ediv_mul_le K (by positivity)
    have hhigh : ((K + 1 : ℤ) : ℚ) ≤ (((K / 10 ^ j + 1) * 10 ^ j : ℤ) : ℚ) := by
      exact_mod_cast Int.add_one_le_iff.mpr (Int.lt_ediv_add_one_mul_self K (by positivity))
    rw [← lt_div_iff₀ hunit, ← div_lt_iff₀ hunit] at hr
    rw [hdiv, lt_div_iff₀ hpow, div_lt_iff₀ hpow]
    push_cast at hlow hhigh
    constructor <;> linarith
  rw [rounded, rounded, hlast, nearestEven_congr (hhalf hp) (hhalf hq)]

variable {N : Nat} {k : ℤ}

theorem lt_lastPlace_of_between {n : Nat} (hn : 10 ^ c.precision ≤ n) (h₁ : n * 10 ^ k ≤ q)
    (h₂ : q < (n + 1) * 10 ^ k) : k < c.lastPlace q := by
  have hn₀ : n ≠ 0 := (lt_of_lt_of_le (by positivity) hn).ne'
  have hcount : c.precision < digitCount n := by
    by_contra! hle
    have := (lt_pow_digitCount n).trans_le (Nat.pow_le_pow_right (by norm_num) hle)
    omega
  have hlog := log_of_between hn₀ h₁ h₂
  simp only [lastPlace, hlog, Decimal.adjusted]
  omega

theorem lastPlace_eq_of_between {n : Nat} (hn : n ≠ 0) (hp : n * 10 ^ k ≤ p ∧ p < (n + 1) * 10 ^ k)
    (hq : n * 10 ^ k ≤ q ∧ q < (n + 1) * 10 ^ k) : c.lastPlace p = c.lastPlace q := by
  rw [lastPlace, lastPlace, log_of_between hn hp.1 hp.2, log_of_between hn hq.1 hq.2]

section Tiny

variable (hN : 10 ^ c.precision ≤ N) (hu : 0 < u ∧ u ≤ 10 ^ k) (hv : 0 < v ∧ v ≤ 10 ^ k)
include hN hu hv

/-- What is added to a number with enough digits to spare does not matter, if it is small. -/
theorem rounded_add_congr :
    c.rounded (N * 10 ^ (k + 1) + u) = c.rounded (N * 10 ^ (k + 1) + v) := by
  have hpos := ten_zpow_pos k
  have hten : (10 : ℚ) ^ (k + 1) = 10 * 10 ^ k := by
    rw [zpow_add_one₀ (by norm_num), mul_comm]
  have hbetween {w : ℚ} (hw : 0 < w ∧ w ≤ 10 ^ k) : N * 10 ^ (k + 1) ≤ N * 10 ^ (k + 1) + w ∧
      N * 10 ^ (k + 1) + w < (N + 1) * (10 : ℚ) ^ (k + 1) := by
    rw [hten]
    constructor <;> linarith [hw.1, hw.2]
  have hhalf {w : ℚ} (hw : 0 < w ∧ w ≤ 10 ^ k) :
      ((2 * N : ℤ) : ℚ) * (5 * 10 ^ k) < N * 10 ^ (k + 1) + w ∧
        N * 10 ^ (k + 1) + w < (((2 * N : ℤ) : ℚ) + 1) * (5 * 10 ^ k) := by
    rw [hten]
    push_cast
    constructor <;> linarith [hw.1, hw.2]
  have hN₀ : N ≠ 0 := (lt_of_lt_of_le (by positivity) hN).ne'
  have hlast := lt_lastPlace_of_between hN (hbetween hv).1 (hbetween hv).2
  exact rounded_congr_half (lastPlace_eq_of_between hN₀ (hbetween hu) (hbetween hv)) (by omega)
    (hhalf hu) (hhalf hv)

theorem rounded_sub_congr :
    c.rounded (N * 10 ^ (k + 1) - u) = c.rounded (N * 10 ^ (k + 1) - v) := by
  have hpos := ten_zpow_pos k
  have hten : (10 : ℚ) ^ (k + 1) = 10 * 10 ^ k := by
    rw [zpow_add_one₀ (by norm_num), mul_comm]
  have hN₀ : 0 < N := lt_of_lt_of_le (by positivity) hN
  -- One digit more is needed here, since a power of ten may lie just above.
  have hcast : ((10 * N - 1 : Nat) : ℚ) = 10 * N - 1 := by
    rw [Nat.cast_sub (by omega)]
    push_cast
    rfl
  have hbetween {w : ℚ} (hw : 0 < w ∧ w ≤ 10 ^ k) :
      ((10 * N - 1 : Nat) : ℚ) * 10 ^ k ≤ N * 10 ^ (k + 1) - w ∧
        N * 10 ^ (k + 1) - w < (((10 * N - 1 : Nat) : ℚ) + 1) * 10 ^ k := by
    rw [hten, hcast]
    constructor <;> linarith [hw.1, hw.2]
  have hhalf {w : ℚ} (hw : 0 < w ∧ w ≤ 10 ^ k) :
      ((2 * N - 1 : ℤ) : ℚ) * (5 * 10 ^ k) < N * 10 ^ (k + 1) - w ∧
        N * 10 ^ (k + 1) - w < (((2 * N - 1 : ℤ) : ℚ) + 1) * (5 * 10 ^ k) := by
    rw [hten]
    push_cast
    constructor <;> linarith [hw.1, hw.2]
  have hlast := lt_lastPlace_of_between (c := c) (by omega) (hbetween hv).1 (hbetween hv).2
  exact rounded_congr_half (lastPlace_eq_of_between (by omega) (hbetween hu) (hbetween hv)) hlast
    (hhalf hu) (hhalf hv)

end Tiny

/-- The sign of the large number decides which of the two cases it is. -/
theorem rounded_signed_add_congr (hN : 10 ^ c.precision ≤ N) (hu : 0 < u ∧ u ≤ 10 ^ k)
    (hv : 0 < v ∧ v ≤ 10 ^ k) (s t : Bool) :
    c.rounded (signed s N * 10 ^ (k + 1) + signed t 1 * u) =
      c.rounded (signed s N * 10 ^ (k + 1) + signed t 1 * v) := by
  have hadd := rounded_add_congr hN hu hv
  have hsub := rounded_sub_congr hN hu hv
  have hneg (a b : ℚ) : c.rounded (-(a + b)) = -c.rounded (a + b) := rounded_neg c _
  cases s <;> cases t <;> simp only [signed, Bool.false_eq_true, if_false, if_true, Int.cast_natCast,
    Int.cast_neg, Nat.cast_one, Int.cast_one, neg_mul, one_mul, ← sub_eq_add_neg]
  · exact hadd
  · exact hsub
  · rw [neg_add_eq_sub, neg_add_eq_sub, ← neg_sub, rounded_neg, hsub, ← rounded_neg, neg_sub]
  · rw [← neg_add', rounded_neg, hadd, ← rounded_neg, neg_add']

end Far

section Sum

variable {m n : Nat} {e f : ℤ}

theorem signed_eq_mul (s : Bool) (m : Nat) : (signed s m : ℚ) = signed s 1 * m := by
  cases s <;> simp [signed]

theorem signed_natAbs (a : ℤ) : signed (decide (a < 0)) a.natAbs = a := by
  unfold signed
  split_ifs with h <;> simp only [decide_eq_true_eq] at h <;> omega

theorem signed_mul_pow (s : Bool) (m : Nat) {e f : ℤ} (h : f ≤ e) :
    ((signed s (m * 10 ^ (e - f).toNat) : ℤ) : ℚ) * 10 ^ f = signed s m * 10 ^ e := by
  have hpow : (10 : ℚ) ^ e = 10 ^ (e - f).toNat * 10 ^ f := by
    rw [← zpow_natCast, ← zpow_add₀ (by norm_num)]
    congr 1
    omega
  rw [signed_eq_mul, signed_eq_mul s m, hpow]
  push_cast
  ring

/-- An operand that is left out lies below every digit that can matter. -/
theorem far_bounds {limit : ℤ} (hm : m ≠ 0) (hn : n ≠ 0)
    (hlimit : limit = e + min (-1) ((digitCount m : ℤ) - c.precision - 2))
    (hfar : Decimal.adjusted n f < limit) : limit + 1 ≤ e ∧
      10 ^ c.precision ≤ m * 10 ^ (e - (limit + 1)).toNat ∧
      (0 : ℚ) < n * 10 ^ f ∧ (n : ℚ) * 10 ^ f ≤ 10 ^ limit := by
  have hcount := digitCount_pos m
  refine ⟨by omega, ?_, ?_, ?_⟩
  · calc 10 ^ c.precision ≤ 10 ^ (digitCount m - 1) * 10 ^ (e - (limit + 1)).toNat := by
          rw [← pow_add]
          exact Nat.pow_le_pow_right (by norm_num) (by omega)
      _ ≤ m * 10 ^ (e - (limit + 1)).toNat := Nat.mul_le_mul_right _ (pow_le_of_digitCount hm)
  · exact mul_pos (by exact_mod_cast Nat.pos_of_ne_zero hn) (ten_zpow_pos f)
  · refine (natCast_mul_zpow_lt n f).le.trans (ten_zpow_le ?_)
    rw [Decimal.adjusted] at hfar
    omega

/-- The sum that is finished rounds like the exact one and is hardly larger. -/
theorem exists_addAligned_eq (c : Context) (s : Bool) (hm : m ≠ 0) (t : Bool) (hn : n ≠ 0)
    (hfe : f ≤ e) :
    ∃ a g : ℤ, c.addAligned s m e t n f = c.finish (decide (a < 0)) a.natAbs g ∧
      c.rounded (a * 10 ^ g) = c.rounded (signed s m * 10 ^ e + signed t n * 10 ^ f) ∧
      |(a : ℚ) * 10 ^ g| ≤ 2 * (m * 10 ^ e) + n * 10 ^ f := by
  have hX : |(signed s m : ℚ) * 10 ^ e| = m * 10 ^ e := abs_toRat_finite s m e
  have hY : |(signed t n : ℚ) * 10 ^ f| = n * 10 ^ f := abs_toRat_finite t n f
  have hpos (k : Nat) (g : ℤ) : (0 : ℚ) ≤ k * 10 ^ g := mul_nonneg k.cast_nonneg (ten_zpow_pos g).le
  set limit := e + min (-1) ((digitCount m : ℤ) - c.precision - 2) with hlimit
  by_cases hfar : Decimal.adjusted n f < limit
  · obtain ⟨hle, hN, hu, hv⟩ := far_bounds hm hn hlimit hfar
    refine ⟨signed s (m * 10 ^ (e - limit).toNat) + signed t 1, limit, ?_, ?_, ?_⟩
    · simp only [addAligned, ← hlimit, if_pos hfar]
    · have hround := rounded_signed_add_congr hN ⟨ten_zpow_pos limit, le_rfl⟩ ⟨hu, hv⟩ s t
      rw [signed_mul_pow s m hle, ← mul_assoc, ← signed_eq_mul] at hround
      rw [← hround, Int.cast_add, add_mul, signed_mul_pow s m (by omega)]
    · have hlow : (10 : ℚ) ^ limit ≤ m * 10 ^ e := by
        have hone : (1 : ℚ) ≤ m := by exact_mod_cast Nat.pos_of_ne_zero hm
        calc (10 : ℚ) ^ limit ≤ 10 ^ e := ten_zpow_le (by omega)
          _ ≤ m * 10 ^ e := le_mul_of_one_le_left (ten_zpow_pos e).le hone
      have hsmall : |(signed t 1 : ℚ) * 10 ^ limit| = 10 ^ limit := by
        rw [abs_mul, abs_signed, Nat.cast_one, one_mul, abs_of_pos (ten_zpow_pos limit)]
      rw [Int.cast_add, add_mul, signed_mul_pow s m (by omega)]
      refine (abs_add_le _ _).trans ?_
      rw [hX, hsmall]
      linarith [hpos n f]
  · refine ⟨signed s (m * 10 ^ (e - f).toNat) + signed t n, f, ?_, ?_, ?_⟩
    · simp only [addAligned, ← hlimit, if_neg hfar]
    · rw [Int.cast_add, add_mul, signed_mul_pow s m hfe]
    · rw [Int.cast_add, add_mul, signed_mul_pow s m hfe]
      refine (abs_add_le _ _).trans ?_
      rw [hX, hY]
      linarith [hpos m e]

theorem addZero_eq (c : Context) (s : Bool) (m : Nat) {place : ℤ} (hplace : place ≤ e) :
    ∃ (k : Nat) (g : ℤ), c.addZero s m e place = c.finish s k g ∧
      (signed s k : ℚ) * 10 ^ g = signed s m * 10 ^ e :=
  ⟨_, _, rfl, signed_mul_pow s m (by omega)⟩

theorem addFinite_ok {s t : Bool} [NeZero c.precision] (h : c.addFinite s m e t n f = .ok z) :
    z.isFinite ∧ z.toRat = c.rounded (signed s m * 10 ^ e + signed t n * 10 ^ f) := by
  have hzero (s : Bool) : ((signed s 0 : ℤ) : ℚ) = 0 := by cases s <;> rfl
  have haligned {s t : Bool} {m n : Nat} {e f : ℤ} (hm : m ≠ 0) (hn : n ≠ 0) (hfe : f ≤ e)
      (h : c.addAligned s m e t n f = .ok z) :
      z.isFinite ∧ z.toRat = c.rounded (signed s m * 10 ^ e + signed t n * 10 ^ f) := by
    obtain ⟨a, g, heq, hround, -⟩ := exists_addAligned_eq c s hm t hn hfe
    rw [heq] at h
    have hz := finish_toRat h
    rwa [signed_natAbs, hround] at hz
  simp only [addFinite] at h
  split_ifs at h with hm hn hn hlt
  · rw [hm, hn, hzero, hzero, zero_mul, zero_mul, add_zero]
    have hz := finish_toRat h
    rwa [hzero, zero_mul] at hz
  · obtain ⟨k, g, heq, hval⟩ := addZero_eq c t n (min_le_right e f)
    rw [heq] at h
    rw [hm, hzero, zero_mul, zero_add, ← hval]
    exact finish_toRat h
  · obtain ⟨k, g, heq, hval⟩ := addZero_eq c s m (min_le_left e f)
    rw [heq] at h
    rw [hn, hzero, zero_mul, add_zero, ← hval]
    exact finish_toRat h
  · rw [add_comm]
    exact haligned hn hm hlt.le h
  · exact haligned hm hn (not_lt.mp hlt) h

theorem add_ok [NeZero c.precision] (hx : x.isFinite) (hy : y.isFinite) (h : c.add x y = .ok z) :
    z.isFinite ∧ z.toRat = c.rounded (x.toRat + y.toRat) := by
  obtain ⟨s, m, e, rfl⟩ := Decimal.exists_of_isFinite hx
  obtain ⟨t, n, f, rfl⟩ := Decimal.exists_of_isFinite hy
  exact addFinite_ok h

theorem sub_ok [NeZero c.precision] (hx : x.isFinite) (hy : y.isFinite) (h : c.sub x y = .ok z) :
    z.isFinite ∧ z.toRat = c.rounded (x.toRat - y.toRat) := by
  rw [sub, Decimal.isNaN_eq_false hy, if_neg Bool.false_ne_true] at h
  have hadd := add_ok hx ((Decimal.isFinite_negate y).trans hy) h
  rwa [Decimal.toRat_negate, ← sub_eq_add_neg] at hadd

theorem exists_add [NeZero c.precision] (hx : x.isFinite) (hy : y.isFinite)
    (h : 2 * (|x.toRat| + |y.toRat|) < 10 ^ maxExponent) : ∃ z, c.add x y = .ok z := by
  obtain ⟨s, m, e, rfl⟩ := Decimal.exists_of_isFinite hx
  obtain ⟨t, n, f, rfl⟩ := Decimal.exists_of_isFinite hy
  rw [abs_toRat_finite, abs_toRat_finite] at h
  have hpos (k : Nat) (g : ℤ) : (0 : ℚ) ≤ k * 10 ^ g := mul_nonneg k.cast_nonneg (ten_zpow_pos g).le
  have habs (s : Bool) (m : Nat) (e : ℤ) : |(signed s m : ℚ) * 10 ^ e| = m * 10 ^ e :=
    abs_toRat_finite s m e
  have hzero {s : Bool} {m : Nat} {e place : ℤ} (hplace : place ≤ e)
      (hlt : (m : ℚ) * 10 ^ e < 10 ^ maxExponent) : ∃ z, c.addZero s m e place = .ok z := by
    obtain ⟨k, g, heq, hval⟩ := addZero_eq c s m hplace
    rw [heq]
    apply exists_finish
    rwa [← habs s k g, hval, habs]
  have haligned {s t : Bool} {m n : Nat} {e f : ℤ} (hm : m ≠ 0) (hn : n ≠ 0) (hfe : f ≤ e)
      (hlt : 2 * ((m : ℚ) * 10 ^ e + n * 10 ^ f) < 10 ^ maxExponent) :
      ∃ z, c.addAligned s m e t n f = .ok z := by
    obtain ⟨a, g, heq, -, hbound⟩ := exists_addAligned_eq c s hm t hn hfe
    rw [heq]
    apply exists_finish
    rw [abs_mul, abs_of_pos (ten_zpow_pos g), ← Int.cast_abs, Int.abs_eq_natAbs,
      Int.cast_natCast] at hbound
    linarith [hpos n f]
  simp only [add, addFinite]
  split_ifs with hm hn hn hlt
  · exact exists_finish _ (by simpa using ten_zpow_pos maxExponent)
  · exact hzero (min_le_right e f) (by linarith [hpos m e, hpos n f])
  · exact hzero (min_le_left e f) (by linarith [hpos m e, hpos n f])
  · exact haligned hn hm hlt.le (by linarith)
  · exact haligned hm hn (not_lt.mp hlt) h

theorem exists_sub [NeZero c.precision] (hx : x.isFinite) (hy : y.isFinite)
    (h : 2 * (|x.toRat| + |y.toRat|) < 10 ^ maxExponent) : ∃ z, c.sub x y = .ok z := by
  rw [sub, Decimal.isNaN_eq_false hy, if_neg Bool.false_ne_true]
  apply exists_add hx ((Decimal.isFinite_negate y).trans hy)
  rwa [Decimal.toRat_negate, abs_neg]

end Sum

end Context

end LoanOrders
