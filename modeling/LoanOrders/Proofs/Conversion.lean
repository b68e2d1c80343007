import LoanOrders.Proofs.FixedPoint

/-! The two conversions of a slot, each of which rounds twice and still gives the nearest result. Scaling
a number of at most 61 digits is exact, so that only the rounding to an integer counts; and reading back
is off by too little to cross a value halfway between two results. -/

namespace LoanOrders.FixedPoint

variable {x : Decimal} {m : Nat} {e : ℤ}

/-- A number of at most 61 digits in moderate places. The scale takes the other 19 of the 80 digits that
there are. -/
structure IsScalable (x : Decimal) : Prop where
  finite : x.isFinite
  digits : ∃ m e : ℤ, |m| < 10 ^ 61 ∧ |e| ≤ 1000 ∧ x.toRat = m * 10 ^ e

theorem isScalable_finite (s : Bool) (hm : digitCount m ≤ 61) (he : |e| ≤ 1000) :
    IsScalable (.finite s m e) := by
  have hlt : (m : ℤ) < 10 ^ 61 := by exact_mod_cast (digitCount_le_iff (by norm_num)).mp hm
  refine ⟨rfl, Context.signed s m, e, ?_, he, Decimal.toRat_finite s m e⟩
  cases s <;> simpa [Context.signed] using hlt

namespace IsScalable

theorem exists_scaled (h : IsScalable x) :
    ∃ k e : ℤ, |k| < 10 ^ 80 ∧ |e| ≤ 1000 ∧ x.toRat * scale = k * 10 ^ e := by
  obtain ⟨m, e, hm, he, hval⟩ := h.digits
  refine ⟨m * 2 ^ 60, e, ?_, he, ?_⟩
  · rw [abs_mul, abs_of_pos (by norm_num : (0 : ℤ) < 2 ^ 60)]
    omega
  · rw [hval, scale_eq]
    push_cast
    ring

theorem scaled_eq (h : IsScalable x) : scaled x.toRat = nearestEven (x.toRat * 2 ^ 60) := by
  obtain ⟨k, e, hk, he, hval⟩ := h.exists_scaled
  have hlow : Context.wide.lowestPlace ≤ e := by
    have hplace : Context.wide.lowestPlace = -1000078 := rfl
    have := (abs_le.mp he).1
    omega
  have hself := Context.rounded_eq_self_of_lt (c := Context.wide) hk hlow
  rw [scaled, hval, hself, ← hval, scale_eq]

theorem abs_mul_scale_lt (h : IsScalable x) : |x.toRat * scale| < 10 ^ Context.maxExponent := by
  obtain ⟨k, e, hk, he, hval⟩ := h.exists_scaled
  have hk' : |(k : ℚ)| < 10 ^ (80 : ℤ) := by exact_mod_cast hk
  have hhigh : 80 + e ≤ Context.maxExponent := by
    have hexp : Context.maxExponent = 999999 := rfl
    have := (abs_le.mp he).2
    omega
  rw [hval, abs_mul, abs_of_pos (ten_zpow_pos e)]
  calc |(k : ℚ)| * 10 ^ e < 10 ^ (80 : ℤ) * 10 ^ e := mul_lt_mul_of_pos_right hk' (ten_zpow_pos e)
    _ = 10 ^ (80 + e) := (zpow_add₀ (by norm_num) _ _).symm
    _ ≤ 10 ^ Context.maxExponent := ten_zpow_le hhigh

end IsScalable

section Ends

variable {q : ℚ}

/-- Half a unit below zero is a tie, and zero is even. -/
theorem nearestEven_nonneg_iff : 0 ≤ nearestEven (q * 2 ^ 60) ↔ -(1 / 2 ^ 61) ≤ q := by
  have h := nearestEven_lt_iff (q := q * 2 ^ 60) (n := 0) (by decide)
  rw [← not_lt, h, not_lt]
  push_cast
  constructor <;> intro <;> linarith

theorem nearestEven_eq_zero (hlow : -(1 / 2 ^ 61) ≤ q) (hhigh : q ≤ 0) :
    nearestEven (q * 2 ^ 60) = 0 := by
  have hle : nearestEven (q * 2 ^ 60) ≤ 0 := nearestEven_le_of_le (by push_cast; linarith)
  exact le_antisymm hle (nearestEven_nonneg_iff.mpr hlow)

end Ends

/-- A number is stored as the nearest integer, a tie as the even one, if 128 bits hold it. So half a unit
below zero is still stored, as zero. -/
theorem encode_nearest (h : IsScalable x) :
    (encode x = if 0 ≤ nearestEven (x.toRat * 2 ^ 60) ∧ nearestEven (x.toRat * 2 ^ 60) ≤ 2 ^ 128 - 1
      then .ok (nearestEven (x.toRat * 2 ^ 60)).toNat else .error (.notFraction x.text)) ∧
    (-(1 / 2 ^ 61) ≤ x.toRat → x.toRat ≤ 0 → encode x = .ok 0) ∧
    (x.toRat < -(1 / 2 ^ 61) → encode x = .error (.notFraction x.text)) := by
  obtain ⟨p, hp⟩ := Context.exists_mul (c := Context.wide) h.finite (Decimal.isFinite_ofNat scale)
    (by rw [Decimal.toRat_ofNat]; exact h.abs_mul_scale_lt)
  have hmax : (maxEncoded : ℤ) = 2 ^ 128 - 1 := rfl
  have hencode : encode x = if 0 ≤ nearestEven (x.toRat * 2 ^ 60) ∧
      nearestEven (x.toRat * 2 ^ 60) ≤ 2 ^ 128 - 1
      then .ok (nearestEven (x.toRat * 2 ^ 60)).toNat else .error (.notFraction x.text) := by
    rw [encode_eq hp h.finite, h.scaled_eq, hmax, ← ite_not]
    simp only [not_or, not_lt]
  refine ⟨hencode, fun hlow hhigh => ?_, fun hlow => ?_⟩
  · rw [hencode, nearestEven_eq_zero hlow hhigh, if_pos (by norm_num), Int.toNat_zero]
  · have hneg := not_le.mpr hlow
    rw [← nearestEven_nonneg_iff] at hneg
    rw [hencode, if_neg fun hrange => hneg hrange.1]

/-- The smallest number that is stored, `-2 ^ -61`, has 43 digits. -/
theorem encode_nearest_smallest : IsScalable (.finite true (5 ^ 61) (-61)) ∧
    encode (.finite true (5 ^ 61) (-61)) = .ok 0 := by
  have hshort : IsScalable (.finite true (5 ^ 61) (-61)) :=
    isScalable_finite true (by decide +kernel) (by decide)
  have hval : (Decimal.finite true (5 ^ 61) (-61)).toRat = -(1 / 2 ^ 61) := by
    rw [Decimal.toRat_finite, Context.signed_true]
    norm_num
  refine ⟨hshort, (encode_nearest hshort).2.1 hval.ge ?_⟩
  rw [hval]
  norm_num

/-- An integer is read back as the nearest number with 18 decimal places, a tie as the even one, in the
one way of writing it without superfluous zeros. Larger integers are not read back as smaller numbers. -/
theorem decode_nearest {raw : ℤ} (h₀ : 0 ≤ raw) (h : raw ≤ 2 ^ 128 - 1) :
    ∃ x, decode raw = .ok x ∧ x.toRat = nearestEven (raw / 2 ^ 60 * 10 ^ 18) / 10 ^ 18 ∧
      x.IsPlain 18 ∧
      ∀ other y, 0 ≤ other → other ≤ 2 ^ 128 - 1 → decode other = .ok y →
        (x.toRat = y.toRat → x = y) ∧ (raw ≤ other → x.toRat ≤ y.toRat) := by
  have hmax : (maxEncoded : ℤ) = 2 ^ 128 - 1 := rfl
  lift raw to ℕ using h₀
  obtain ⟨x, hx, -, hval⟩ := decode_eq (n := raw) (by omega)
  have hplain := (decode_ok hx).1
  refine ⟨x, hx, ?_, hplain, fun other y h₀' h' hy => ?_⟩
  · rw [hval, unscaled, scale_eq, Int.cast_natCast, decimalPlaces]
  · lift other to ℕ using h₀'
    obtain ⟨y', hy', -, hval'⟩ := decode_eq (n := other) (by omega)
    obtain rfl : y' = y := Except.ok.inj (hy'.symm.trans hy)
    refine ⟨fun hsame => hplain.eq_of_toRat_eq (decode_ok hy).1 hsame, fun hle => ?_⟩
    rw [hval, hval']
    exact unscaled_mono (by exact_mod_cast hle)

/-- `2 ^ -19` has 19 decimal places, the last of them a five. -/
theorem decode_nearest_tie :
    ∃ x, decode (2 ^ 41) = .ok x ∧ x.IsPlain 18 ∧ x.toRat = 1907348632812 / 10 ^ 18 := by
  obtain ⟨x, hx, hval, hplain, -⟩ := decode_nearest (by norm_num : (0 : ℤ) ≤ 2 ^ 41) (by norm_num)
  have htie : nearestEven (((2 ^ 41 : ℤ) : ℚ) / 2 ^ 60 * 10 ^ 18) = 1907348632812 := by
    rw [nearestEven_eq_iff]
    norm_num [Int.even_iff]
  rw [htie] at hval
  exact ⟨x, hx, hplain, hval⟩

end LoanOrders.FixedPoint
