import LoanOrders.Proofs.Finish

/-! Each operation of a context rounds its exact result once. A quotient that does not come out even
is carried with a digit that stands for the rest; since that digit lies below the last place, the
rest cannot be told from it. -/

namespace LoanOrders

namespace Decimal

variable {x y z : Decimal}

@[simp] theorem toRat_finite (s : Bool) (m : Nat) (e : ℤ) :
    (finite s m e).toRat = Context.signed s m * 10 ^ e := rfl

theorem exists_of_isFinite (h : x.isFinite) : ∃ s m e, x = .finite s m e := by
  cases x with
  | finite s m e => exact ⟨s, m, e, rfl⟩
  | infinite | nan => simp [isFinite] at h

theorem isFinite_of_toRat_ne (h : x.toRat ≠ 0) : x.isFinite := by
  cases x with
  | finite => rfl
  | infinite | nan => exact absurd rfl h

@[simp] theorem isFinite_finite (s : Bool) (m : Nat) (e : ℤ) : (finite s m e).isFinite := rfl

@[simp] theorem isFinite_ofNat (n : Nat) : (ofNat n).isFinite := rfl

@[simp] theorem toRat_ofNat (n : Nat) : (ofNat n).toRat = n := by
  simp [ofNat, Context.signed]

theorem ofInt_natCast (n : Nat) : ofInt n = ofNat n := by
  simp [ofInt, ofNat]

theorem toRat_ofInt (a : ℤ) : (ofInt a).toRat = a := by
  rw [ofInt, toRat_finite, zpow_zero, mul_one, Context.signed]
  by_cases ha : a < 0
  · simp [ha, abs_of_neg ha]
  · simp [ha, abs_of_nonneg (not_lt.mp ha)]

@[simp] theorem toRat_zero : zero.toRat = 0 := by
  simp [zero]

@[simp] theorem toRat_one : one.toRat = 1 := by
  simp [one]

theorem not_isFinite_of_nanResult {c : Context} (hnan : x.isNaN ∨ y.isNaN)
    (h : c.nanResult x y = .ok z) : ¬z.isFinite := by
  simp only [Context.nanResult] at h
  split_ifs at h
  cases x with
  | nan =>
    obtain rfl := Except.ok.inj h
    simp [isFinite, Context.quietNaN]
  | finite | infinite =>
    cases y with
    | nan =>
      obtain rfl := Except.ok.inj h
      simp [isFinite, Context.quietNaN]
    | finite | infinite => simp [isNaN] at hnan

theorem isFinite_of_mul {c : Context} (h : c.mul x y = .ok z) (hz : z.isFinite) :
    x.isFinite ∧ y.isFinite := by
  cases x with
  | finite =>
    cases y with
    | finite => exact ⟨rfl, rfl⟩
    | infinite =>
      simp only [Context.mul] at h
      split_ifs at h
      obtain rfl := Except.ok.inj h
      simp [isFinite] at hz
    | nan => exact absurd hz (not_isFinite_of_nanResult (.inr rfl) h)
  | infinite =>
    cases y with
    | finite =>
      simp only [Context.mul] at h
      split_ifs at h
      obtain rfl := Except.ok.inj h
      simp [isFinite] at hz
    | infinite =>
      obtain rfl := Except.ok.inj h
      simp [isFinite] at hz
    | nan => exact absurd hz (not_isFinite_of_nanResult (.inr rfl) h)
  | nan => exact absurd hz (not_isFinite_of_nanResult (.inl rfl) h)

end Decimal

namespace Context

variable {c : Context} {x y z : Decimal}

theorem abs_signed (s : Bool) (m : Nat) : |(signed s m : ℚ)| = m := by
  cases s <;> simp [signed]

theorem signed_mul (s t : Bool) (m n : Nat) :
    signed (s != t) (m * n) = signed s m * signed t n := by
  cases s <;> cases t <;> simp [signed]

theorem abs_toRat_finite (s : Bool) (m : Nat) (e : ℤ) :
    |(Decimal.finite s m e).toRat| = m * 10 ^ e := by
  rw [Decimal.toRat_finite, abs_mul, abs_signed, abs_of_pos (ten_zpow_pos e)]

theorem finish_toRat {s : Bool} {m : Nat} {e : ℤ} [NeZero c.precision]
    (h : c.finish s m e = .ok z) : z.isFinite ∧ z.toRat = c.rounded (signed s m * 10 ^ e) := by
  obtain ⟨n, f, rfl, hn⟩ := finish_ok h
  refine ⟨rfl, ?_⟩
  rw [rounded_signed, ← hn, Decimal.toRat_finite]
  cases s <;> simp [signed]

section Product

theorem mul_ok [NeZero c.precision] (hx : x.isFinite) (hy : y.isFinite)
    (h : c.mul x y = .ok z) : z.isFinite ∧ z.toRat = c.rounded (x.toRat * y.toRat) := by
  obtain ⟨s, m, e, rfl⟩ := Decimal.exists_of_isFinite hx
  obtain ⟨t, n, f, rfl⟩ := Decimal.exists_of_isFinite hy
  have hz := finish_toRat h
  rw [signed_mul, zpow_add₀ (by norm_num), Int.cast_mul, mul_mul_mul_comm] at hz
  exact hz

theorem exists_mul [NeZero c.precision] (hx : x.isFinite) (hy : y.isFinite)
    (h : |x.toRat * y.toRat| < 10 ^ maxExponent) : ∃ z, c.mul x y = .ok z := by
  obtain ⟨s, m, e, rfl⟩ := Decimal.exists_of_isFinite hx
  obtain ⟨t, n, f, rfl⟩ := Decimal.exists_of_isFinite hy
  apply exists_finish
  rw [abs_mul, abs_toRat_finite, abs_toRat_finite] at h
  rw [zpow_add₀ (by norm_num), Nat.cast_mul, mul_mul_mul_comm]
  exact h

end Product

section Sticky

/-- No multiple of ten, let alone a tie between two of them, lies between neighbouring integers. -/
theorem nearestEven_div_congr {n : ℤ} {j : Nat} {p q : ℚ} (hj : 0 < j)
    (hp : n < p ∧ p < n + 1) (hq : n < q ∧ q < n + 1) :
    nearestEven (p / 10 ^ j) = nearestEven (q / 10 ^ j) := by
  obtain ⟨i, rfl⟩ := Nat.exists_eq_succ_of_ne_zero hj.ne'
  have hpos : (0 : ℚ) < 10 ^ (i + 1) := by positivity
  have hhalf : (10 : ℚ) ^ (i + 1) / 2 = ((5 * 10 ^ i : ℤ) : ℚ) := by
    push_cast
    ring
  set N := nearestEven (p / 10 ^ (i + 1)) with hN
  have hnear := abs_le.mp (abs_sub_nearestEven_le (p / 10 ^ (i + 1)))
  rw [← hN] at hnear
  have hupper : p ≤ ((N * 10 ^ (i + 1) + 5 * 10 ^ i : ℤ) : ℚ) := by
    have h : p / 10 ^ (i + 1) ≤ N + 1 / 2 := by linarith
    rw [div_le_iff₀ hpos, add_mul, div_mul_eq_mul_div, one_mul, hhalf] at h
    exact_mod_cast h
  have hlower : ((N * 10 ^ (i + 1) - 5 * 10 ^ i : ℤ) : ℚ) ≤ p := by
    have h : N - 1 / 2 ≤ p / 10 ^ (i + 1) := by linarith
    rw [le_div_iff₀ hpos, sub_mul, div_mul_eq_mul_div, one_mul, hhalf] at h
    exact_mod_cast h
  have hn : n < N * 10 ^ (i + 1) + 5 * 10 ^ i := by exact_mod_cast hp.1.trans_le hupper
  have hn' : N * 10 ^ (i + 1) - 5 * 10 ^ i < n + 1 := by exact_mod_cast hlower.trans_lt hp.2
  symm
  apply nearestEven_eq_of_abs_lt
  rw [abs_lt]
  have hq₁ : q < ((N * 10 ^ (i + 1) + 5 * 10 ^ i : ℤ) : ℚ) :=
    hq.2.trans_le (by exact_mod_cast hn)
  have hq₂ : ((N * 10 ^ (i + 1) - 5 * 10 ^ i : ℤ) : ℚ) < q :=
    lt_of_le_of_lt (by exact_mod_cast Int.lt_add_one_iff.mp hn') hq.1
  have hdiv : q / 10 ^ (i + 1) - N = (q - N * 10 ^ (i + 1)) / 10 ^ (i + 1) := by
    field_simp
  rw [hdiv, lt_div_iff₀ hpos, div_lt_iff₀ hpos, neg_mul, one_div_mul_eq_div, hhalf]
  push_cast at hq₁ hq₂ ⊢
  constructor <;> linarith

theorem log_of_between {n : Nat} {k : ℤ} {q : ℚ} (hn : n ≠ 0) (h₁ : n * 10 ^ k ≤ q)
    (h₂ : q < (n + 1) * 10 ^ k) : Int.log 10 |q| = Decimal.adjusted n k := by
  have hpos : 0 < q :=
    (mul_pos (by exact_mod_cast Nat.pos_of_ne_zero hn) (ten_zpow_pos k)).trans_le h₁
  rw [abs_of_pos hpos]
  apply le_antisymm
  · rw [← Int.lt_add_one_iff, ← Int.lt_zpow_iff_log_lt (by norm_num) hpos, Nat.cast_ofNat]
    refine h₂.trans_le ?_
    have hle : ((n + 1 : Nat) : ℚ) ≤ ((10 ^ digitCount n : Nat) : ℚ) := by
      exact_mod_cast lt_pow_digitCount n
    calc ((n : ℚ) + 1) * 10 ^ k ≤ 10 ^ digitCount n * 10 ^ k := by
          apply mul_le_mul_of_nonneg_right _ (ten_zpow_pos k).le
          exact_mod_cast hle
      _ = 10 ^ (Decimal.adjusted n k + 1) := by
          rw [← zpow_natCast, ← zpow_add₀ (by norm_num), Decimal.adjusted]
          congr 1
          ring
  · rw [← Int.zpow_le_iff_le_log (by norm_num) hpos, Nat.cast_ofNat]
    exact (zpow_adjusted_le hn k).trans h₁

/-- Numbers that first differ below the last place are rounded alike. -/
theorem rounded_congr {n : Nat} {k : ℤ} {p q : ℚ} (hn : 10 ^ c.precision ≤ n)
    (hp : n * 10 ^ k < p ∧ p < (n + 1) * 10 ^ k) (hq : n * 10 ^ k < q ∧ q < (n + 1) * 10 ^ k) :
    c.rounded p = c.rounded q := by
  have hn0 : n ≠ 0 := (lt_of_lt_of_le (by positivity) hn).ne'
  have hlast : c.lastPlace p = c.lastPlace q := by
    rw [lastPlace, lastPlace, log_of_between hn0 hp.1.le hp.2, log_of_between hn0 hq.1.le hq.2]
  have hcount : c.precision < digitCount n := by
    by_contra! h
    have := (lt_pow_digitCount n).trans_le (Nat.pow_le_pow_right (by norm_num) h)
    omega
  have hlt : k < c.lastPlace q := by
    have hlog := log_of_between hn0 hq.1.le hq.2
    simp only [lastPlace, hlog, Decimal.adjusted]
    omega
  obtain ⟨j, hj, hjk⟩ : ∃ j : Nat, 0 < j ∧ c.lastPlace q = k + j :=
    ⟨(c.lastPlace q - k).toNat, by omega, by omega⟩
  have hscale (r : ℚ) : r / 10 ^ (k + (j : ℤ)) = r / 10 ^ k / 10 ^ j := by
    rw [zpow_add₀ (by norm_num), zpow_natCast, div_div]
  have hbetween {r : ℚ} (hr : n * 10 ^ k < r ∧ r < (n + 1) * 10 ^ k) :
      ((n : ℤ) : ℚ) < r / 10 ^ k ∧ r / 10 ^ k < ((n : ℤ) : ℚ) + 1 := by
    rw [lt_div_iff₀ (ten_zpow_pos k), div_lt_iff₀ (ten_zpow_pos k), Int.cast_natCast]
    exact hr
  rw [rounded, rounded, hlast, hjk, hscale, hscale,
    nearestEven_div_congr hj (hbetween hp) (hbetween hq)]

end Sticky

section Quotient

variable {m n : Nat} {e f : ℤ}

theorem quotient_scaled (m : Nat) (e : ℤ) (hn : n ≠ 0) (f shift : ℤ) :
    (m : ℚ) * 10 ^ e / (n * 10 ^ f) =
      (m * 10 ^ shift.toNat : Nat) / (n * 10 ^ (-shift).toNat : Nat) * 10 ^ (e - f - shift) := by
  have hn' : (n : ℚ) ≠ 0 := by exact_mod_cast hn
  have hpow (k : ℤ) : (10 : ℚ) ^ k ≠ 0 := (ten_zpow_pos k).ne'
  have hsplit : (10 : ℚ) ^ shift.toNat = 10 ^ shift * 10 ^ (-shift).toNat := by
    rw [← zpow_natCast, ← zpow_natCast, ← zpow_add₀ (by norm_num)]
    congr 1
    omega
  rw [zpow_sub₀ (by norm_num), zpow_sub₀ (by norm_num)]
  push_cast
  rw [hsplit]
  field_simp

/-- The quotient is carried one digit further than the precision. -/
theorem pow_precision_le_quotient (c : Context) (hm : m ≠ 0) (hn : n ≠ 0) :
    10 ^ c.precision ≤
      m * 10 ^ ((digitCount n : ℤ) - digitCount m + c.precision + 1).toNat /
        (n * 10 ^ (-((digitCount n : ℤ) - digitCount m + c.precision + 1)).toNat) := by
  set shift := (digitCount n : ℤ) - digitCount m + c.precision + 1 with hshift
  rw [Nat.le_div_iff_mul_le (by positivity)]
  have hcount := digitCount_pos m
  calc 10 ^ c.precision * (n * 10 ^ (-shift).toNat)
      ≤ 10 ^ c.precision * (10 ^ digitCount n * 10 ^ (-shift).toNat) := by
        have := (lt_pow_digitCount n).le
        gcongr
    _ = 10 ^ (digitCount m - 1) * 10 ^ shift.toNat := by
        rw [← pow_add, ← pow_add, ← pow_add]
        congr 1
        omega
    _ ≤ m * 10 ^ shift.toNat := Nat.mul_le_mul_right _ (pow_le_of_digitCount hm)

theorem appended_between {q : Nat} (place : ℤ) (A : ℚ) (h : (q : ℚ) < A ∧ A < q + 1) :
    (q * 10 ^ place < A * 10 ^ place ∧ A * 10 ^ place < (q + 1) * 10 ^ place) ∧
      (q * 10 ^ place < (10 * q + 1 : Nat) * (10 : ℚ) ^ (place - 1) ∧
        (10 * q + 1 : Nat) * (10 : ℚ) ^ (place - 1) < (q + 1) * 10 ^ place) := by
  have hpos := ten_zpow_pos place
  have htenth : (10 : ℚ) ^ (place - 1) = 10 ^ place / 10 := by
    rw [zpow_sub_one₀ (by norm_num)]
    rfl
  have happended : ((10 * q + 1 : Nat) : ℚ) * 10 ^ (place - 1) = (q + 1 / 10) * 10 ^ place := by
    rw [htenth]
    push_cast
    ring
  rw [happended]
  refine ⟨⟨?_, ?_⟩, ?_, ?_⟩ <;> apply mul_lt_mul_of_pos_right _ hpos <;> linarith

theorem natCast_div_between {N D : Nat} (hD : D ≠ 0) (h : N % D ≠ 0) :
    ((N / D : Nat) : ℚ) < (N : ℚ) / D ∧ (N : ℚ) / D < (N / D : Nat) + 1 := by
  have hfloor := natCast_div_sub_floor (n := N) hD
  have hD' : (0 : ℚ) < D := by exact_mod_cast Nat.pos_of_ne_zero hD
  have hpos : (0 : ℚ) < ((N % D : Nat) : ℚ) / D :=
    div_pos (by exact_mod_cast Nat.pos_of_ne_zero h) hD'
  have hlt : ((N % D : Nat) : ℚ) / D < 1 := by
    rw [div_lt_one hD']
    exact_mod_cast Nat.mod_lt N (Nat.pos_of_ne_zero hD)
  constructor <;> linarith

theorem natCast_div_pow_mul (q zeros : Nat) (place : ℤ) (h : 10 ^ zeros ∣ q) :
    ((q / 10 ^ zeros : Nat) : ℚ) * 10 ^ (place + zeros) = q * 10 ^ place := by
  have hq : ((q / 10 ^ zeros : Nat) : ℚ) * 10 ^ zeros = q := by
    exact_mod_cast Nat.div_mul_cancel h
  rw [add_comm, zpow_add₀ (by norm_num), zpow_natCast, ← mul_assoc, hq]

theorem succ_mul_zpow_le {q : Nat} {place k : ℤ} (hq : 0 < q) (h : (q : ℚ) * 10 ^ place < 10 ^ k) :
    ((q : ℚ) + 1) * 10 ^ place ≤ 10 ^ k := by
  have hone : (1 : ℚ) ≤ q := by exact_mod_cast hq
  have hle : (10 : ℚ) ^ place < 10 ^ k := by
    calc (10 : ℚ) ^ place = 1 * 10 ^ place := (one_mul _).symm
      _ ≤ q * 10 ^ place := mul_le_mul_of_nonneg_right hone (ten_zpow_pos place).le
      _ < 10 ^ k := h
  have hplace : place ≤ k := ((zpow_lt_zpow_iff_right₀ (by norm_num)).mp hle).le
  rw [← lt_div_iff₀ (ten_zpow_pos place), ten_zpow_div hplace] at h
  rw [← le_div_iff₀ (ten_zpow_pos place), ten_zpow_div hplace]
  have hlt : (q : ℤ) < 10 ^ (k - place).toNat := by exact_mod_cast h
  exact_mod_cast hlt

/-- A quotient is finished from a value that the context cannot tell from it. -/
theorem exists_divFinite_eq (c : Context) (s : Bool) (hm : m ≠ 0) (e : ℤ) (hn : n ≠ 0) (f : ℤ) :
    ∃ (k : Nat) (g : ℤ), c.divFinite s m e n f = c.finish s k g ∧
      c.rounded (k * 10 ^ g) = c.rounded (m * 10 ^ e / (n * 10 ^ f)) ∧
      ((m : ℚ) * 10 ^ e / (n * 10 ^ f) < 10 ^ maxExponent → (k : ℚ) * 10 ^ g < 10 ^ maxExponent) := by
  have hlarge := pow_precision_le_quotient c hm hn
  set shift := (digitCount n : ℤ) - digitCount m + c.precision + 1 with hshift
  set N := m * 10 ^ shift.toNat with hN
  set D := n * 10 ^ (-shift).toNat with hD
  have hscaled : (m : ℚ) * 10 ^ e / (n * 10 ^ f) = (N : ℚ) / D * 10 ^ (e - f - shift) :=
    quotient_scaled m e hn f shift
  have hD0 : D ≠ 0 := by positivity
  simp only [divFinite, ← hshift, ← hN, ← hD]
  by_cases hmod : N % D = 0
  · rw [if_pos hmod]
    refine ⟨_, _, rfl, ?_⟩
    have hexact : ((N / D : Nat) : ℚ) = (N : ℚ) / D :=
      Nat.cast_div (Nat.dvd_of_mod_eq_zero hmod) (by exact_mod_cast hD0)
    rw [natCast_div_pow_mul _ _ _ (pow_trailingZeros_dvd _ _), hexact, ← hscaled]
    exact ⟨rfl, id⟩
  · rw [if_neg hmod]
    refine ⟨_, _, rfl, ?_⟩
    obtain ⟨hA, hB⟩ := appended_between (e - f - shift) _ (natCast_div_between hD0 hmod)
    rw [hscaled]
    refine ⟨rounded_congr hlarge hB hA, fun hlt => hB.2.trans_le ?_⟩
    exact succ_mul_zpow_le ((by positivity : 0 < 10 ^ c.precision).trans_le hlarge)
      (hA.1.trans hlt)

theorem signed_div_signed (s t : Bool) (m : Nat) (e : ℤ) (n : Nat) (f : ℤ) :
    (signed s m : ℚ) * 10 ^ e / (signed t n * 10 ^ f) =
      if s != t then -((m : ℚ) * 10 ^ e / (n * 10 ^ f)) else (m : ℚ) * 10 ^ e / (n * 10 ^ f) := by
  cases s <;> cases t <;> simp [signed, neg_div, div_neg]

theorem div_ok [NeZero c.precision] (hx : x.isFinite) (hy : y.isFinite) (h : c.div x y = .ok z) :
    y.toRat ≠ 0 ∧ z.isFinite ∧ z.toRat = c.rounded (x.toRat / y.toRat) := by
  obtain ⟨s, m, e, rfl⟩ := Decimal.exists_of_isFinite hx
  obtain ⟨t, n, f, rfl⟩ := Decimal.exists_of_isFinite hy
  simp only [div] at h
  split_ifs at h with hn hm
  · have hy0 : (Decimal.finite t n f).toRat ≠ 0 := by
      rw [← abs_pos, abs_toRat_finite]
      exact mul_pos (by exact_mod_cast Nat.pos_of_ne_zero hn) (ten_zpow_pos f)
    refine ⟨hy0, ?_⟩
    simpa [hm, signed] using finish_toRat h
  · have hy0 : (Decimal.finite t n f).toRat ≠ 0 := by
      rw [← abs_pos, abs_toRat_finite]
      exact mul_pos (by exact_mod_cast Nat.pos_of_ne_zero hn) (ten_zpow_pos f)
    obtain ⟨k, g, hfinish, hround, -⟩ := exists_divFinite_eq c (s != t) hm e hn f
    rw [hfinish] at h
    obtain ⟨hz, hval⟩ := finish_toRat h
    refine ⟨hy0, hz, ?_⟩
    rw [hval, rounded_signed, hround, Decimal.toRat_finite, Decimal.toRat_finite,
      signed_div_signed]
    split_ifs <;> simp [rounded_neg]

theorem div_finite_ok [NeZero c.precision] {s t : Bool} (h : c.div (.finite s m e) (.finite t n f) = .ok z) :
    ∃ k g, z = .finite (s != t) k g := by
  simp only [div] at h
  split_ifs at h with hn hm
  · obtain ⟨k, g, hz, -⟩ := finish_ok h
    exact ⟨k, g, hz⟩
  · obtain ⟨_, _, hfinish, -⟩ := exists_divFinite_eq c (s != t) hm e hn f
    rw [hfinish] at h
    obtain ⟨k, g, hz, -⟩ := finish_ok h
    exact ⟨k, g, hz⟩

theorem exists_div [NeZero c.precision] (hx : x.isFinite) (hy : y.isFinite) (hy0 : y.toRat ≠ 0)
    (h : |x.toRat / y.toRat| < 10 ^ maxExponent) : ∃ z, c.div x y = .ok z := by
  obtain ⟨s, m, e, rfl⟩ := Decimal.exists_of_isFinite hx
  obtain ⟨t, n, f, rfl⟩ := Decimal.exists_of_isFinite hy
  have hn : n ≠ 0 := by
    rintro rfl
    exact hy0 (by simp [signed])
  rw [abs_div, abs_toRat_finite, abs_toRat_finite] at h
  simp only [div, if_neg hn]
  split_ifs with hm
  · exact exists_finish _ (by simpa using ten_zpow_pos maxExponent)
  · obtain ⟨k, g, hfinish, -, hlt⟩ := exists_divFinite_eq c (s != t) hm e hn f
    rw [hfinish]
    exact exists_finish _ (hlt h)

end Quotient

end Context

end LoanOrders
