import LoanOrders.Proofs.Arithmetic

/-! Rounding to a fixed place: to an integer, to a number of decimal places, and to no more digits
than a value needs. -/

namespace LoanOrders

namespace Context

variable {c : Context} {x y : Decimal}

theorem nearestEven_signed (s : Bool) (q : ℚ) :
    nearestEven (if s then -q else q) = if s then -nearestEven q else nearestEven q := by
  cases s with
  | false => rfl
  | true => exact nearestEven_neg q

theorem signed_cast (s : Bool) (m : Nat) : (signed s m : ℤ) = if s then -(m : ℤ) else m := rfl

theorem toRat_finite_eq_ite (s : Bool) (m : Nat) (e : ℤ) :
    (Decimal.finite s m e).toRat = if s then -((m : ℚ) * 10 ^ e) else m * 10 ^ e := by
  cases s <;> simp [signed]

/-- The nearest integer as a decimal. A value without a fraction keeps its exponent. -/
theorem toIntegral_even (c : Context) (hx : x.isFinite) :
    ∃ y, c.toIntegral .even x = .ok y ∧ y.isFinite ∧ y.toRat = nearestEven x.toRat := by
  obtain ⟨s, m, e, rfl⟩ := Decimal.exists_of_isFinite hx
  refine ⟨_, rfl, ?_⟩
  split_ifs with he
  · refine ⟨rfl, ?_⟩
    have hint : (Decimal.finite s m e).toRat = ((signed s m * 10 ^ e.toNat : ℤ) : ℚ) := by
      rw [Decimal.toRat_finite]
      push_cast
      rw [← zpow_natCast, Int.toNat_of_nonneg he]
    rw [hint, nearestEven_intCast]
  · refine ⟨rfl, ?_⟩
    rw [toRat_finite_eq_ite s m e, nearestEven_signed, Decimal.toRat_finite, zpow_zero, mul_one,
      signed_cast, roundToPlace_even, zpow_zero, div_one]

/-- A value that is not negative is rounded up where it lies halfway between two integers. -/
theorem toIntegral_away (c : Context) (hx : x.isFinite) (h : 0 ≤ x.toRat) :
    ∃ y, c.toIntegral .away x = .ok y ∧ y.isFinite ∧ y.toRat = round x.toRat := by
  obtain ⟨s, m, e, rfl⟩ := Decimal.exists_of_isFinite hx
  have habs : (Decimal.finite s m e).toRat = m * 10 ^ e := by
    rw [← abs_of_nonneg h, abs_toRat_finite]
  refine ⟨_, rfl, ?_⟩
  split_ifs with he
  · refine ⟨rfl, ?_⟩
    have hint : (m : ℚ) * 10 ^ e = ((m * 10 ^ e.toNat : Nat) : ℚ) := by
      push_cast
      rw [← zpow_natCast, Int.toNat_of_nonneg he]
    rw [habs, hint, round_natCast, Int.cast_natCast]
  · refine ⟨rfl, ?_⟩
    have hround := roundToPlace_away m e 0
    rw [zpow_zero, div_one] at hround
    rw [habs, ← hround, Decimal.toRat_finite, zpow_zero, mul_one]
    cases s with
    | false => rfl
    | true =>
      have hm : (m : ℚ) * 10 ^ e = 0 := by
        have hneg : (Decimal.finite true m e).toRat = -((m : ℚ) * 10 ^ e) := toRat_finite_eq_ite _ _ _
        linarith
      have hzero : (roundToPlace .away m e 0 : ℤ) = 0 := by rw [hround, hm, round_zero]
      simp [signed, Int.ofNat_eq_zero.mp hzero]

theorem finish_eq_self {s : Bool} {m : Nat} {e : ℤ} [NeZero c.precision] (hm : m < 10 ^ c.precision)
    (he : c.lowestPlace ≤ e) (hmax : e + c.precision ≤ maxExponent) :
    c.finish s m e = .ok (.finite s m e) := by
  have hcount := (digitCount_le_iff (NeZero.pos c.precision)).mpr hm
  by_cases hzero : m = 0
  · subst hzero
    have hplace : max c.lowestPlace (min e maxExponent) = e := by omega
    simp only [finish, if_pos, hplace]
  · have hpos := digitCount_pos m
    simp only [finish]
    rw [if_neg hzero, if_neg (by simp only [Decimal.adjusted]; omega), if_pos (by omega)]

theorem toRat_roundToPlace (s : Bool) (m : Nat) (e place : ℤ) :
    (Decimal.finite s (roundToPlace .even m e place) place).toRat =
      nearestEven ((Decimal.finite s m e).toRat / 10 ^ place) * 10 ^ place := by
  rw [Decimal.toRat_finite, toRat_finite_eq_ite s m e, apply_ite (· / (10 : ℚ) ^ place), neg_div,
    nearestEven_signed, signed_cast, roundToPlace_even]

/-- A value is rounded to a place where the context has room for the digits above it. -/
theorem exists_quantize (place : ℤ) [NeZero c.precision] (hx : x.isFinite)
    (hlow : c.lowestPlace ≤ place) (hhigh : place + c.precision ≤ maxExponent)
    (h : |x.toRat| ≤ (10 ^ c.precision - 1) * 10 ^ place) :
    ∃ y, c.quantize .even x place = .ok y := by
  obtain ⟨s, m, e, rfl⟩ := Decimal.exists_of_isFinite hx
  have hplace := ten_zpow_pos place
  have hmax : ¬(place < c.lowestPlace ∨ maxExponent < place) := by omega
  rw [abs_toRat_finite] at h
  have hdiv : (m : ℚ) * 10 ^ e / 10 ^ place ≤ ((10 ^ c.precision - 1 : ℤ) : ℚ) := by
    rw [div_le_iff₀ hplace]
    push_cast
    exact h
  have hq : roundToPlace .even m e place < 10 ^ c.precision := by
    have hle := nearestEven_le_of_le hdiv
    rw [← roundToPlace_even] at hle
    have : (roundToPlace .even m e place : ℤ) < ((10 ^ c.precision : Nat) : ℤ) := by
      push_cast
      omega
    exact_mod_cast this
  simp only [quantize, if_neg hmax]
  by_cases hm : m = 0
  · exact ⟨_, if_pos hm⟩
  · have hadj : Decimal.adjusted m e < place + c.precision := by
      have hlt : (10 : ℚ) ^ Decimal.adjusted m e < 10 ^ (place + c.precision) := by
        refine (zpow_adjusted_le hm e).trans_lt (h.trans_lt ?_)
        rw [add_comm, zpow_add₀ (by norm_num), zpow_natCast]
        exact mul_lt_mul_of_pos_right (by linarith) hplace
      exact (zpow_lt_zpow_iff_right₀ (by norm_num)).mp hlt
    have hcount := (digitCount_le_iff (NeZero.pos c.precision)).mpr hq
    rw [if_neg hm, if_neg (by omega), if_neg (by simp only [Decimal.adjusted]; omega)]
    exact ⟨_, finish_eq_self hq hlow hhigh⟩

/-- A quantized value keeps its sign. -/
theorem quantize_ok {s : Bool} {m : Nat} {e place : ℤ} [NeZero c.precision]
    (hlow : c.lowestPlace ≤ place) (hhigh : place + c.precision ≤ maxExponent)
    (h : c.quantize .even (.finite s m e) place = .ok y) :
    ∃ n, y = .finite s n place ∧ n < 10 ^ c.precision ∧
      y.toRat = nearestEven ((Decimal.finite s m e).toRat / 10 ^ place) * 10 ^ place := by
  simp only [quantize] at h
  split_ifs at h with hplace hm hsize hcount
  · subst hm
    obtain rfl := Except.ok.inj h
    exact ⟨0, rfl, by positivity, by simp [signed]⟩
  · have hq : roundToPlace .even m e place < 10 ^ c.precision :=
      (digitCount_le_iff (NeZero.pos c.precision)).mp (by omega)
    rw [finish_eq_self hq hlow hhigh, Except.ok.injEq] at h
    exact ⟨_, h.symm, hq, h ▸ toRat_roundToPlace s m e place⟩

/-- A normalized value has no zero at its end, and zero is written by one digit. -/
theorem normalize_eq {s : Bool} {m : Nat} {e : ℤ} [NeZero c.precision] (hm : m < 10 ^ c.precision)
    (he : c.lowestPlace ≤ e) (hmax : e + c.precision ≤ maxExponent) :
    ∃ n f, c.normalize (.finite s m e) = .ok (.finite s n f) ∧
      (Decimal.finite s n f).toRat = (Decimal.finite s m e).toRat ∧
      (n = 0 ∧ f = 0 ∨ e ≤ f ∧ ¬10 ∣ n) := by
  simp only [normalize, finish_eq_self hm he hmax]
  by_cases hzero : m = 0
  · subst hzero
    exact ⟨0, 0, rfl, by simp [signed], .inl ⟨rfl, rfl⟩⟩
  · have hcount := (digitCount_le_iff (NeZero.pos c.precision)).mpr hm
    have hlimit : (min (digitCount m : ℤ) (maxExponent - e)).toNat = digitCount m := by omega
    refine ⟨_, _, by simp only [bind, Except.bind, if_neg hzero]; rfl, ?_, .inr ⟨by omega, ?_⟩⟩
    · rw [toRat_finite_eq_ite, toRat_finite_eq_ite,
        natCast_div_pow_mul _ _ _ (pow_trailingZeros_dvd _ m)]
    · rw [hlimit]
      exact not_ten_dvd_div_trailingZeros hzero (lt_pow_digitCount m)

end Context

end LoanOrders
