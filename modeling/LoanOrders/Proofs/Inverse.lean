import LoanOrders.Proofs.FixedPoint

/-! A price that is stored by its inverse. Two quotients of 28 digits surround the encoding of a
slot, and the price that comes back is the given one if the inverse has few enough places, unless it
is one of three powers of two up to the point. Their inverses are powers of five whose first 28
digits are too far from the rest. -/

namespace LoanOrders.Rate

variable {p u : ℚ} {n : Nat}

section Error

theorem abs_standard_rounded_sub_le {q : ℚ} (h : 10 ^ (-30 : ℤ) ≤ q) :
    |Context.standard.rounded q - q| ≤ q * (5 / 10 ^ 28) := by
  have hpos : 0 < q := (ten_zpow_pos _).trans_le h
  have herr : |Context.standard.rounded q - q| ≤ |q| * 10 ^ (1 - 28 : ℤ) / 2 := by
    apply Context.abs_rounded_sub_le_mul (c := Context.standard)
    rw [abs_of_pos hpos]
    exact (ten_zpow_le (by decide)).trans h
  rw [abs_of_pos hpos] at herr
  refine herr.trans_eq ?_
  norm_num
  ring

/-- Inverting back undoes a small relative change. -/
theorem abs_one_div_sub_le (hu : 0 < u) (h : |p - 1 / u| ≤ 1 / u * (5 / 10 ^ 28)) :
    |1 / p - u| ≤ u * (6 / 10 ^ 28) := by
  have hinv : 0 < 1 / u := one_div_pos.mpr hu
  have hcancel : 1 / u * u = 1 := one_div_mul_cancel hu.ne'
  rw [abs_le] at h
  have hlow : (1 - 5 / 10 ^ 28) * (1 / u) ≤ p := by linarith
  have hhigh : p ≤ (1 + 5 / 10 ^ 28) * (1 / u) := by linarith
  have hp : 0 < p := lt_of_lt_of_le (mul_pos (by norm_num) hinv) hlow
  have hlow' : 1 - 5 / 10 ^ 28 ≤ p * u := by
    have := mul_le_mul_of_nonneg_right hlow hu.le
    rwa [mul_assoc, hcancel, mul_one] at this
  have hhigh' : p * u ≤ 1 + 5 / 10 ^ 28 := by
    have := mul_le_mul_of_nonneg_right hhigh hu.le
    rwa [mul_assoc, hcancel, mul_one] at this
  have hupper : 1 / p ≤ u * (1 + 6 / 10 ^ 28) := by
    rw [div_le_iff₀ hp]
    linarith
  have hlower : u * (1 - 6 / 10 ^ 28) ≤ 1 / p := by
    rw [le_div_iff₀ hp]
    linarith
  rw [abs_le]
  constructor <;> linarith

variable (hn : (n : ℤ) = FixedPoint.scaled (Context.standard.rounded (1 / p)))
  (hmax : n ≤ FixedPoint.maxEncoded) (hpos : 0 < n)
include hn hmax

theorem inverse_lt : 1 / p < 10 ^ (21 : ℤ) := by
  apply Context.lt_ten_zpow_of_rounded (c := Context.standard) (by decide)
  have h := (abs_lt.mp (FixedPoint.abs_mul_scale_lt hn hmax)).2
  rw [FixedPoint.scale_eq] at h
  norm_num at h ⊢
  linarith

include hpos

theorem lt_inverse : 10 ^ (-20 : ℤ) < 1 / p := by
  have h := (abs_le.mp (FixedPoint.abs_natCast_sub_le hn hmax)).2
  have hone : (1 : ℚ) ≤ n := by exact_mod_cast hpos
  rw [FixedPoint.scale_eq] at h
  by_contra hsmall
  have hmono := Context.rounded_mono (c := Context.standard) (not_lt.mp hsmall)
  rw [Context.rounded_ten_zpow (by decide)] at hmono
  norm_num at h hmono
  linarith

theorem price_pos : 0 < p :=
  one_div_pos.mp ((ten_zpow_pos (-20)).trans (lt_inverse hn hmax hpos))

theorem unscaled_bounds : 1 / 10 ^ 18 ≤ FixedPoint.unscaled n ∧ FixedPoint.unscaled n ≤ 10 ^ 21 := by
  refine ⟨FixedPoint.le_unscaled hpos, ?_⟩
  have hstored := (abs_le.mp (FixedPoint.abs_unscaled_sub_le hn hmax)).2
  have h := (abs_lt.mp (FixedPoint.abs_mul_scale_lt hn hmax)).2
  rw [FixedPoint.scale_eq] at h
  norm_num at h hstored ⊢
  linarith

theorem abs_inverse_sub_le :
    |1 / Context.standard.rounded (1 / FixedPoint.unscaled n) - 1 / p| ≤
      1 / 10 ^ 18 + 2 / 10 ^ 27 / p := by
  obtain ⟨hulow, huhigh⟩ := unscaled_bounds hn hmax hpos
  have hu : 0 < FixedPoint.unscaled n := lt_of_lt_of_le (by norm_num) hulow
  have hp := price_pos hn hmax hpos
  have hfirst : |Context.standard.rounded (1 / p) - 1 / p| ≤ 1 / p * (5 / 10 ^ 28) :=
    abs_standard_rounded_sub_le ((ten_zpow_le (by decide)).trans (lt_inverse hn hmax hpos).le)
  have hsize : 10 ^ (-30 : ℤ) ≤ 1 / FixedPoint.unscaled n := by
    rw [le_div_iff₀ hu]
    norm_num at huhigh ⊢
    linarith
  have hsecond := abs_one_div_sub_le hu (abs_standard_rounded_sub_le hsize)
  have hstored := FixedPoint.abs_unscaled_sub_le hn hmax
  have hshare : 2 / 10 ^ 27 / p = 1 / p * (2 / 10 ^ 27) := by ring
  have hinv : 0 < 1 / p := one_div_pos.mpr hp
  rw [hshare]
  rw [abs_le] at hfirst hsecond hstored ⊢
  constructor <;> linarith

end Error

section Digits

/-- The two factors of a power of ten, up to powers of ten. -/
theorem eq_pow_mul_of_mul_eq {m k N : Nat} (h : m * k = 10 ^ N) : ∃ j a b,
    m = 5 ^ j * 10 ^ a ∧ k = 2 ^ j * 10 ^ b ∨ m = 2 ^ j * 10 ^ a ∧ k = 5 ^ j * 10 ^ b := by
  have hten (i : Nat) : 10 ^ i = 2 ^ i * 5 ^ i := by rw [← Nat.mul_pow]
  obtain ⟨y, z, hy, hz, rfl⟩ := (Nat.dvd_mul).mp (hten N ▸ Dvd.intro k h)
  obtain ⟨α, hα, rfl⟩ := (Nat.dvd_prime_pow Nat.prime_two).mp hy
  obtain ⟨β, hβ, rfl⟩ := (Nat.dvd_prime_pow Nat.prime_five).mp hz
  have hk : k = 2 ^ (N - α) * 5 ^ (N - β) := by
    apply Nat.eq_of_mul_eq_mul_left (by positivity : 0 < 2 ^ α * 5 ^ β)
    rw [h, mul_mul_mul_comm, ← pow_add, ← pow_add, Nat.add_sub_of_le hα, Nat.add_sub_of_le hβ, hten]
  rcases le_total α β with hαβ | hβα
  · refine ⟨β - α, α, N - β, .inl ⟨?_, ?_⟩⟩
    · rw [hten, mul_left_comm, ← pow_add, Nat.sub_add_cancel hαβ]
    · rw [hk, hten, ← mul_assoc, ← pow_add]
      congr 2
      omega
  · refine ⟨α - β, β, N - α, .inr ⟨?_, ?_⟩⟩
    · rw [hten, ← mul_assoc, ← pow_add, Nat.sub_add_cancel hβα]
    · rw [hk, hten, mul_left_comm, ← pow_add]
      congr 2
      omega

def shortFivePow (j : Nat) : Nat :=
  roundQuotient .even (5 ^ j) (10 ^ (digitCount (5 ^ j) - 28)) * 10 ^ (digitCount (5 ^ j) - 28)

/-- The inverse of the rounded power of five still has the digits of the power of two: 28 digits are
kept of `5 ^ j`, and the inverse lies within half a unit of its last digit of `2 ^ j`. -/
def IsSharp (j : Nat) : Prop :=
  (10 ^ (digitCount (5 ^ j) - 28 + 27) ≤ 5 ^ j ∧ 5 ^ j < 10 ^ (digitCount (5 ^ j) - 28 + 28)) ∧
  (digitCount (2 ^ j) ≤ 28 ∧ 10 ^ (digitCount (2 ^ j) - 1) * shortFivePow j ≤ 10 ^ j ∧
    10 ^ j < 10 ^ digitCount (2 ^ j) * shortFivePow j) ∧
  2 * 10 ^ (28 - digitCount (2 ^ j)) * 10 ^ j <
    (2 * 10 ^ (28 - digitCount (2 ^ j)) * 2 ^ j + 1) * shortFivePow j ∧
  2 * 10 ^ (28 - digitCount (2 ^ j)) * 2 ^ j * shortFivePow j <
    2 * 10 ^ (28 - digitCount (2 ^ j)) * 10 ^ j + shortFivePow j

instance (j : Nat) : Decidable (IsSharp j) := inferInstanceAs (Decidable (_ ∧ _))

theorem isSharp_of_le : ∀ j, 41 ≤ j → j ≤ 55 → j ≠ 43 → j ≠ 46 → j ≠ 53 → IsSharp j := by
  intro j h₁ h₂
  interval_cases j <;> decide +kernel

variable {j : Nat} {y : ℤ}

theorem rounded_five_pow (hj : IsSharp j) (hy : -18 ≤ y) :
    Context.standard.rounded (5 ^ j * 10 ^ y) = shortFivePow j * 10 ^ y := by
  obtain ⟨⟨hlow, hhigh⟩, -⟩ := hj
  unfold shortFivePow
  generalize digitCount (5 ^ j) - 28 = cut at *
  have hpos := ten_zpow_pos y
  have hlowest : Context.standard.lowestPlace = -1000026 := rfl
  have hround := Context.rounded_eq_of_place (c := Context.standard) (q := 5 ^ j * 10 ^ y)
    (k := cut + y) (by omega) ?_ ?_
  · have hdiv : (5 : ℚ) ^ j * 10 ^ y / 10 ^ (cut + y) = ((5 ^ j : Nat) : ℚ) / ((10 ^ cut : Nat) : ℚ) := by
      rw [zpow_add₀ (by norm_num), mul_div_mul_right _ _ hpos.ne', zpow_natCast]
      push_cast
      rfl
    rw [hround, hdiv, ← roundQuotient_even (by positivity), zpow_add₀ (by norm_num), zpow_natCast]
    push_cast
    ring
  · have hle : ((10 ^ (cut + 27) : Nat) : ℚ) ≤ ((5 ^ j : Nat) : ℚ) := by exact_mod_cast hlow
    have hplace : (cut : ℤ) + y + Context.standard.precision - 1 = (cut + 27 : Nat) + y := by
      simp only [Context.standard]
      omega
    rw [hplace, zpow_add₀ (by norm_num), zpow_natCast]
    push_cast at hle
    exact mul_le_mul_of_nonneg_right hle hpos.le
  · have hlt : ((5 ^ j : Nat) : ℚ) < ((10 ^ (cut + 28) : Nat) : ℚ) := by exact_mod_cast hhigh
    have hplace : (cut : ℤ) + y + Context.standard.precision = (cut + 28 : Nat) + y := by
      simp only [Context.standard]
      omega
    rw [hplace, zpow_add₀ (by norm_num), zpow_natCast]
    push_cast at hlt
    exact mul_lt_mul_of_pos_right hlt hpos

theorem shortFivePow_pos (hj : IsSharp j) : 0 < shortFivePow j := by
  obtain ⟨-, ⟨-, -, h⟩, -⟩ := hj
  exact Nat.pos_of_mul_pos_left ((Nat.zero_le _).trans_lt h)

theorem rounded_one_div_shortFivePow (hj : IsSharp j) (hj' : j ≤ 100) (hy : y ≤ 100) :
    Context.standard.rounded (1 / (shortFivePow j * 10 ^ y)) = 2 ^ j * 10 ^ (-j - y) := by
  have hpos := shortFivePow_pos hj
  obtain ⟨-, ⟨hd, hlow, hhigh⟩, hup, hdown⟩ := hj
  have hd₀ := digitCount_pos (2 ^ j)
  generalize shortFivePow j = S at *
  generalize digitCount (2 ^ j) = d at *
  obtain ⟨i, hi⟩ := Nat.exists_eq_add_of_le hd
  have hzeros : 28 - d = i := by omega
  rw [hzeros] at hup hdown
  have hS : (0 : ℚ) < S := by exact_mod_cast hpos
  have hY := ten_zpow_pos y
  have hT : (0 : ℚ) < 10 ^ j := by positivity
  have hlowest : Context.standard.lowestPlace = -1000026 := rfl
  have hplace : (10 : ℚ) ^ (-j - y - i : ℤ) = 1 / (10 ^ j * 10 ^ y * 10 ^ i) := by
    rw [zpow_sub₀ (by norm_num), zpow_sub₀ (by norm_num), zpow_neg, zpow_natCast, zpow_natCast]
    field_simp
  have hpower (a : Nat) : (10 ^ (a - j - y : ℤ) : ℚ) = 10 ^ a / (10 ^ j * 10 ^ y) := by
    rw [zpow_sub₀ (by norm_num), zpow_sub₀ (by norm_num), zpow_natCast, zpow_natCast, div_div]
  have hround := Context.rounded_eq_of_place (c := Context.standard) (q := 1 / (S * 10 ^ y))
    (k := -j - y - i) (by omega) ?_ ?_
  · have hnear : nearestEven (1 / (S * 10 ^ y) / 10 ^ (-j - y - i : ℤ)) = (2 ^ j * 10 ^ i : ℤ) := by
      apply nearestEven_eq_of_abs_lt
      have hup' : (2 : ℚ) * 10 ^ i * 10 ^ j < (2 * 10 ^ i * 2 ^ j + 1) * S := by exact_mod_cast hup
      have hdown' : (2 : ℚ) * 10 ^ i * 2 ^ j * S < 2 * 10 ^ i * 10 ^ j + S := by exact_mod_cast hdown
      have hquot : 1 / (S * 10 ^ y) / 10 ^ (-j - y - i : ℤ) - ((2 ^ j * 10 ^ i : ℤ) : ℚ) =
          (10 ^ i * 10 ^ j - 10 ^ i * 2 ^ j * S) / S := by
        rw [hplace]
        push_cast
        field_simp
      rw [hquot, abs_lt, lt_div_iff₀ hS, div_lt_iff₀ hS]
      constructor <;> linarith
    rw [hround, hnear, zpow_sub₀ (by norm_num) (-j - y : ℤ), zpow_natCast]
    push_cast
    field_simp
  · have hle : (10 : ℚ) ^ (d - 1) * S ≤ 10 ^ j := by exact_mod_cast hlow
    have hexp : -j - y - i + Context.standard.precision - 1 = (d - 1 : Nat) - j - y := by
      simp only [Context.standard]
      omega
    rw [hexp, hpower, div_le_div_iff₀ (mul_pos hT hY) (mul_pos hS hY), one_mul, ← mul_assoc]
    exact mul_le_mul_of_nonneg_right hle hY.le
  · have hlt : (10 : ℚ) ^ j < 10 ^ d * S := by exact_mod_cast hhigh
    have hexp : -j - y - i + Context.standard.precision = d - j - y := by
      simp only [Context.standard]
      omega
    rw [hexp, hpower, div_lt_div_iff₀ (mul_pos hS hY) (mul_pos hT hY), one_mul, ← mul_assoc]
    exact mul_lt_mul_of_pos_right hlt hY

end Digits

section Exact

theorem exists_factors (hpos : 0 < p) (hp : FitsDigits 28 p) (hplaces : FitsPlaces 18 (1 / p)) :
    ∃ (m k : Nat) (e : ℤ) (N : Nat), m < 10 ^ 28 ∧ p = m * 10 ^ e ∧ 1 / p = k * 10 ^ (-18 : ℤ) ∧
      m * k = 10 ^ N := by
  obtain ⟨m, e, hm, hpm⟩ := hp
  obtain ⟨k, hk⟩ := hplaces
  have hkpos : (0 : ℚ) < k := hk ▸ mul_pos (one_div_pos.mpr hpos) (by norm_num)
  have hmpos : (0 : ℚ) < m := by
    rw [hpm] at hpos
    exact pos_of_mul_pos_left hpos (ten_zpow_pos e).le
  lift m to Nat using by exact_mod_cast hmpos.le
  lift k to Nat using by exact_mod_cast hkpos.le
  rw [Int.cast_natCast] at hpm hk
  have hinv : 1 / p = k * 10 ^ (-18 : ℤ) := by
    rw [zpow_neg, zpow_ofNat, ← div_eq_mul_inv, eq_div_iff (by norm_num)]
    exact_mod_cast hk
  have hprod : (m : ℚ) * k = 10 ^ (18 - e) := by
    have hone : p * (1 / p) = 1 := mul_one_div_cancel hpos.ne'
    rw [hinv, hpm, mul_mul_mul_comm, ← zpow_add₀ (by norm_num)] at hone
    rw [eq_div_of_mul_eq (ten_zpow_pos _).ne' hone, one_div, ← zpow_neg]
    congr 1
    ring
  have hN : 0 ≤ 18 - e := by
    by_contra hneg
    have hle : (1 : ℚ) ≤ m * k := by
      have : 1 ≤ m * k := Nat.pos_of_ne_zero fun h => by
        have : (m : ℚ) * k = 0 := by exact_mod_cast h
        exact absurd (hprod ▸ this) (ten_zpow_pos _).ne'
      exact_mod_cast this
    rw [hprod] at hle
    exact absurd hle (not_le.mpr (zpow_lt_one_of_neg₀ (by norm_num) (not_le.mp hneg)))
  refine ⟨m, k, e, (18 - e).toNat, ?_, hpm, hinv, ?_⟩
  · rw [abs_of_nonneg (by omega)] at hm
    exact_mod_cast hm
  · rw [← Int.toNat_of_nonneg hN, zpow_natCast] at hprod
    exact_mod_cast hprod

variable (hn : (n : ℤ) = FixedPoint.scaled (Context.standard.rounded (1 / p)))
  (hmax : n ≤ FixedPoint.maxEncoded) (hpos : 0 < n)
include hn hmax hpos

/-- A price comes back if neither it nor its inverse has to be rounded. -/
theorem inverse_eq_of_fits (hp : FitsDigits 28 p) (hinv : FitsDigits 28 (1 / p))
    (hplaces : FitsPlaces 18 (1 / p)) :
    Context.standard.rounded (1 / FixedPoint.unscaled n) = p := by
  have hpos' := price_pos hn hmax hpos
  have hlow := lt_inverse hn hmax hpos
  have hhigh := inverse_lt hn hmax
  have hself : Context.standard.rounded (1 / p) = 1 / p := by
    apply Context.rounded_eq_self_of_fits (c := Context.standard) hinv
    rw [abs_of_pos (one_div_pos.mpr hpos')]
    exact (ten_zpow_le (by decide)).trans hlow.le
  rw [hself] at hn
  rw [FixedPoint.unscaled_eq_of_places hn hmax hplaces, one_div_one_div]
  apply Context.rounded_eq_self_of_fits (c := Context.standard) hp
  have hsize : 10 ^ (-21 : ℤ) < p := by
    rw [zpow_neg, ← one_div, one_div_lt (ten_zpow_pos _) hpos']
    exact hhigh
  rw [abs_of_pos hpos']
  exact (ten_zpow_le (by decide)).trans hsize.le

omit hpos in
/-- A price also comes back if only its inverse has to be rounded, as far as that is sharp. -/
theorem inverse_eq_of_five_pow {j : Nat} {y : ℤ} (hj : IsSharp j) (hj' : j ≤ 100) (hy : -18 ≤ y)
    (hy' : y ≤ 100) (hinv : 1 / p = 5 ^ j * 10 ^ y) :
    Context.standard.rounded (1 / FixedPoint.unscaled n) = p := by
  rw [hinv, rounded_five_pow hj hy] at hn
  have hplaces : FitsPlaces 18 (shortFivePow j * 10 ^ y) := by
    refine ⟨shortFivePow j * 10 ^ (y + 18).toNat, ?_⟩
    push_cast
    rw [mul_assoc, ← zpow_natCast 10 (y + 18).toNat, Int.toNat_of_nonneg (by omega),
      zpow_add₀ (by norm_num)]
    rfl
  rw [FixedPoint.unscaled_eq_of_places hn hmax hplaces, rounded_one_div_shortFivePow hj hj' hy']
  have hten : (10 : ℚ) ^ j = 2 ^ j * 5 ^ j := by
    rw [← mul_pow]
    norm_num
  rw [← one_div_one_div p, hinv, zpow_sub₀ (by norm_num), zpow_neg, zpow_natCast, hten]
  have := (ten_zpow_pos y).ne'
  field_simp

/-- Only a large power of five has too many digits to be stored as it is. -/
theorem inverse_eq_of_places (hp : FitsDigits 28 p) (hplaces : FitsPlaces 18 (1 / p))
    (hpow : ∀ j ∈ [43, 46, 53], ∀ x : ℤ, p ≠ 2 ^ j * 10 ^ x) :
    Context.standard.rounded (1 / FixedPoint.unscaled n) = p := by
  have hpos' := price_pos hn hmax hpos
  obtain ⟨m, k, e, N, hmlt, hpm, hinv, hmk⟩ := exists_factors hpos' hp hplaces
  have hsplit (i b : Nat) (h : k = i * 10 ^ b) : 1 / p = i * 10 ^ (b - 18 : ℤ) := by
    rw [hinv, h, sub_eq_add_neg, zpow_add₀ (by norm_num), zpow_natCast]
    push_cast
    ring
  have hfits {i b : Nat} (hi : i < 10 ^ 28) (h : k = i * 10 ^ b) : FitsDigits 28 (1 / p) :=
    ⟨i, b - 18, by rw [abs_of_nonneg (by omega)]; exact_mod_cast hi, hsplit i b h⟩
  obtain ⟨j, a, b, ⟨hm, hk⟩ | ⟨hm, hk⟩⟩ := eq_pow_mul_of_mul_eq hmk
  · -- The price is a power of five, so that its inverse has fewer digits than it.
    have hfive : 5 ^ j ≤ m := hm ▸ Nat.le_mul_of_pos_right _ (by positivity)
    have htwo : 2 ^ j ≤ 5 ^ j := Nat.pow_le_pow_left (by decide) j
    exact inverse_eq_of_fits hn hmax hpos hp (hfits (by omega) hk) hplaces
  · by_cases hj : j ≤ 40
    · have hfive : 5 ^ j ≤ 5 ^ 40 := Nat.pow_le_pow_right (by decide) hj
      exact inverse_eq_of_fits hn hmax hpos hp (hfits (hfive.trans_lt (by decide)) hk) hplaces
    · have hklt : k < 10 ^ 39 := by
        have hlt := inverse_lt hn hmax
        have hk' : (k : ℚ) < 10 ^ 39 := by
          rw [hinv] at hlt
          norm_num at hlt
          linarith
        exact_mod_cast hk'
      have hj' : j ≤ 55 := by
        by_contra hlarge
        have hfive : 5 ^ 56 ≤ 5 ^ j := Nat.pow_le_pow_right (by decide) (by omega)
        have hle : 5 ^ j ≤ k := hk ▸ Nat.le_mul_of_pos_right _ (by positivity)
        have : 10 ^ 39 < 5 ^ 56 := by decide
        omega
      have hb : b < 39 := by
        have hle : 10 ^ b ≤ k := hk ▸ Nat.le_mul_of_pos_left _ (by positivity)
        exact (Nat.pow_lt_pow_iff_right (by decide)).mp (hle.trans_lt hklt)
      have hne (i : Nat) (hi : i ∈ [43, 46, 53]) : j ≠ i := by
        rintro rfl
        apply hpow j hi (a + e)
        rw [hpm, hm, zpow_add₀ (by norm_num), zpow_natCast]
        push_cast
        ring
      have hsharp := isSharp_of_le j (by omega) hj' (hne 43 (by decide)) (hne 46 (by decide))
        (hne 53 (by decide))
      have hinv' := hsplit (5 ^ j) b hk
      push_cast at hinv'
      exact inverse_eq_of_five_pow hn hmax hsharp (by omega) (by omega) (by omega) hinv'

end Exact

end LoanOrders.Rate
