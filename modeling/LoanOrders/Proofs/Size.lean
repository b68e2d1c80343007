import LoanOrders.Proofs.Snapshot
import LoanOrders.Proofs.Sum

/-! How large numbers can become. The operations neither overflow nor lose a positive number to zero
as long as their operands are far from the limits of the exponent. Numbers of units of one place are not
even rounded while they have room in the context. -/

namespace LoanOrders

namespace Decimal

variable {j k m n : ℤ} {x y z : Decimal}

structure IsWithin (k : ℤ) (x : Decimal) : Prop where
  finite : x.isFinite
  le : |x.toRat| ≤ 10 ^ k

structure IsBetween (j k : ℤ) (x : Decimal) : Prop where
  finite : x.isFinite
  low : 10 ^ j ≤ x.toRat
  high : x.toRat ≤ 10 ^ k

/-- Zero, or a positive number between two powers of ten. -/
structure IsUpTo (j k : ℤ) (x : Decimal) : Prop where
  finite : x.isFinite
  size : x.toRat = 0 ∨ IsBetween j k x

theorem IsWithin.mono (hx : IsWithin k x) (h : k ≤ n) : IsWithin n x :=
  ⟨hx.finite, hx.le.trans (ten_zpow_le h)⟩

theorem isWithin_one (hk : 0 ≤ k) : IsWithin k one :=
  ⟨rfl, by rw [toRat_one, abs_one]; exact one_le_zpow₀ (by norm_num) hk⟩

namespace IsBetween

theorem pos (hx : IsBetween j k x) : 0 < x.toRat := (ten_zpow_pos j).trans_le hx.low

theorem isUpTo (hx : IsBetween j k x) : IsUpTo j k x := ⟨hx.finite, .inr hx⟩

theorem mono (hx : IsBetween j k x) (hj : m ≤ j) (hk : k ≤ n) : IsBetween m n x :=
  ⟨hx.finite, (ten_zpow_le hj).trans hx.low, hx.high.trans (ten_zpow_le hk)⟩

theorem congr (hy : IsBetween j k y) (hx : x.isFinite) (h : x.toRat = y.toRat) :
    IsBetween j k x :=
  ⟨hx, hy.low.trans_eq h.symm, h.trans_le hy.high⟩

theorem isPos (hx : IsBetween j k x) : x.IsPos := ⟨hx.finite, hx.pos⟩

end IsBetween

namespace IsUpTo

theorem nonneg (hx : IsUpTo j k x) : 0 ≤ x.toRat := by
  rcases hx.size with h | h
  · exact h.ge
  · exact h.pos.le

theorem le (hx : IsUpTo j k x) : x.toRat ≤ 10 ^ k := by
  rcases hx.size with h | h
  · exact h.trans_le (ten_zpow_pos k).le
  · exact h.high

theorem isNonneg (hx : IsUpTo j k x) : x.IsNonneg := ⟨hx.finite, hx.nonneg⟩

theorem isWithin (hx : IsUpTo j k x) : IsWithin k x :=
  ⟨hx.finite, by rw [abs_of_nonneg hx.nonneg]; exact hx.le⟩

theorem isBetween (hx : IsUpTo j k x) (h : x.toRat ≠ 0) : IsBetween j k x := hx.size.resolve_left h

theorem mono (hx : IsUpTo j k x) (hj : m ≤ j) (hk : k ≤ n) : IsUpTo m n x :=
  ⟨hx.finite, hx.size.imp_right fun h => h.mono hj hk⟩

theorem zero : IsUpTo j k Decimal.zero := ⟨rfl, .inl toRat_zero⟩

end IsUpTo

end Decimal

namespace Context

open Decimal

variable {j k m n : ℤ} {q : ℚ} {x y z : Decimal}

def IsModerate (k : ℤ) : Prop := |k| ≤ 10000

instance (k : ℤ) : Decidable (IsModerate k) := inferInstanceAs (Decidable (_ ≤ _))

theorem isModerate_of_near (hj : |j| ≤ 9500) (h : |k - j| ≤ 500) : IsModerate k := by
  rw [IsModerate, abs_le]
  constructor <;> linarith [abs_le.mp hj, abs_le.mp h]

theorem IsModerate.lowestPlace_le (hk : IsModerate k) : standard.lowestPlace ≤ k := by
  have hplace : standard.lowestPlace ≤ -10000 := by decide
  exact hplace.trans (abs_le.mp hk).1

theorem IsModerate.lt (hk : IsModerate k) : (10 : ℚ) ^ k < 10 ^ maxExponent := by
  have hmax : (10000 : ℤ) < maxExponent := by decide
  exact zpow_lt_zpow_right₀ (by norm_num) ((abs_le.mp hk).2.trans_lt hmax)

theorem ten_zpow_le_rounded_of_le (hj : IsModerate j) (h : 10 ^ j ≤ q) : 10 ^ j ≤ standard.rounded q := by
  have hmono := rounded_mono (c := standard) h
  rwa [rounded_ten_zpow hj.lowestPlace_le] at hmono

theorem rounded_le_of_le (hk : IsModerate k) (h : q ≤ 10 ^ k) : standard.rounded q ≤ 10 ^ k := by
  have hmono := rounded_mono (c := standard) h
  rwa [rounded_ten_zpow hk.lowestPlace_le] at hmono

theorem rounded_nonpos (h : q ≤ 0) : standard.rounded q ≤ 0 := by
  have hmono := rounded_mono (c := standard) h
  rwa [rounded_zero] at hmono

theorem ten_zpow_le_abs_rounded (hj : IsModerate j) (h : 10 ^ j ≤ |q|) :
    10 ^ j ≤ |standard.rounded q| := by
  rcases le_total 0 q with hq | hq
  · rw [abs_of_nonneg hq] at h
    exact (ten_zpow_le_rounded_of_le hj h).trans (le_abs_self _)
  · rw [abs_of_nonpos hq] at h
    have hle := ten_zpow_le_rounded_of_le hj h
    rw [rounded_neg] at hle
    exact hle.trans (neg_le_abs _)

theorem isWithin_of_rounded (hk : IsModerate k) (hz : z.isFinite ∧ z.toRat = standard.rounded q)
    (h : |q| ≤ 10 ^ k) : IsWithin k z := by
  refine ⟨hz.1, ?_⟩
  rw [hz.2]
  exact abs_rounded_le hk.lowestPlace_le h

theorem isBetween_of_rounded (hj : IsModerate j) (hk : IsModerate k)
    (hz : z.isFinite ∧ z.toRat = standard.rounded q) (hlow : 10 ^ j ≤ q) (hhigh : q ≤ 10 ^ k) :
    IsBetween j k z := by
  refine ⟨hz.1, ?_, ?_⟩
  · rw [hz.2]
    exact ten_zpow_le_rounded_of_le hj hlow
  · rw [hz.2]
    exact rounded_le_of_le hk hhigh

theorem exists_mul_within (hx : IsWithin j x) (hy : IsWithin k y) (h : IsModerate (j + k)) :
    ∃ z, standard.mul x y = .ok z ∧ IsWithin (j + k) z ∧
      z.toRat = standard.rounded (x.toRat * y.toRat) := by
  have hle : |x.toRat * y.toRat| ≤ 10 ^ (j + k) := by
    rw [abs_mul, zpow_add₀ (by norm_num)]
    exact mul_le_mul hx.le hy.le (abs_nonneg _) (ten_zpow_pos j).le
  obtain ⟨z, hz⟩ := exists_mul (c := standard) hx.finite hy.finite (hle.trans_lt h.lt)
  have hok := mul_ok hx.finite hy.finite hz
  exact ⟨z, hz, isWithin_of_rounded h hok hle, hok.2⟩

theorem exists_div_within (hx : IsWithin k x) (hy : y.isFinite) (hlow : 10 ^ j ≤ |y.toRat|)
    (h : IsModerate (k - j)) : ∃ z, standard.div x y = .ok z ∧ IsWithin (k - j) z ∧
      z.toRat = standard.rounded (x.toRat / y.toRat) := by
  have hpos : 0 < |y.toRat| := (ten_zpow_pos j).trans_le hlow
  have hle : |x.toRat / y.toRat| ≤ 10 ^ (k - j) := by
    rw [abs_div, zpow_sub₀ (by norm_num)]
    exact div_le_div₀ (ten_zpow_pos k).le hx.le (ten_zpow_pos j) hlow
  obtain ⟨z, hz⟩ := exists_div (c := standard) hx.finite hy (abs_pos.mp hpos)
    (hle.trans_lt h.lt)
  obtain ⟨-, hok⟩ := div_ok hx.finite hy hz
  exact ⟨z, hz, isWithin_of_rounded h hok hle, hok.2⟩

theorem two_mul_add_le (hx : IsWithin k x) (hy : IsWithin k y) :
    2 * (|x.toRat| + |y.toRat|) ≤ 10 ^ (k + 1) := by
  rw [zpow_add_one₀ (by norm_num)]
  linarith [hx.le, hy.le, ten_zpow_pos k]

theorem exists_add_within (hx : IsWithin k x) (hy : IsWithin k y) (h : IsModerate (k + 1)) :
    ∃ z, standard.add x y = .ok z ∧ IsWithin (k + 1) z ∧
      z.toRat = standard.rounded (x.toRat + y.toRat) := by
  have hle := two_mul_add_le hx hy
  obtain ⟨z, hz⟩ := exists_add (c := standard) hx.finite hy.finite (hle.trans_lt h.lt)
  have hok := add_ok hx.finite hy.finite hz
  refine ⟨z, hz, isWithin_of_rounded h hok ?_, hok.2⟩
  linarith [abs_add_le x.toRat y.toRat, abs_nonneg x.toRat, abs_nonneg y.toRat]

theorem exists_sub_within (hx : IsWithin k x) (hy : IsWithin k y) (h : IsModerate (k + 1)) :
    ∃ z, standard.sub x y = .ok z ∧ IsWithin (k + 1) z ∧
      z.toRat = standard.rounded (x.toRat - y.toRat) := by
  have hle := two_mul_add_le hx hy
  obtain ⟨z, hz⟩ := exists_sub (c := standard) hx.finite hy.finite (hle.trans_lt h.lt)
  have hok := sub_ok hx.finite hy.finite hz
  refine ⟨z, hz, isWithin_of_rounded h hok ?_, hok.2⟩
  linarith [abs_sub x.toRat y.toRat, abs_nonneg x.toRat, abs_nonneg y.toRat]

theorem exists_mul_between (hx : IsBetween j k x) (hy : IsBetween m n y) (hlow : IsModerate (j + m))
    (hhigh : IsModerate (k + n)) :
    ∃ z, standard.mul x y = .ok z ∧ IsBetween (j + m) (k + n) z := by
  obtain ⟨z, hz, hwithin, hval⟩ := exists_mul_within hx.isUpTo.isWithin hy.isUpTo.isWithin hhigh
  refine ⟨z, hz, isBetween_of_rounded hlow hhigh ⟨hwithin.finite, hval⟩ ?_ ?_⟩
  · rw [zpow_add₀ (by norm_num)]
    exact mul_le_mul hx.low hy.low (ten_zpow_pos m).le hx.pos.le
  · rw [zpow_add₀ (by norm_num)]
    exact mul_le_mul hx.high hy.high hy.pos.le (ten_zpow_pos k).le

theorem exists_div_between (hx : IsBetween j k x) (hy : IsBetween m n y) (hlow : IsModerate (j - n))
    (hhigh : IsModerate (k - m)) :
    ∃ z, standard.div x y = .ok z ∧ IsBetween (j - n) (k - m) z := by
  obtain ⟨z, hz, hwithin, hval⟩ := exists_div_within hx.isUpTo.isWithin hy.finite
    (by rw [abs_of_pos hy.pos]; exact hy.low) hhigh
  refine ⟨z, hz, isBetween_of_rounded hlow hhigh ⟨hwithin.finite, hval⟩ ?_ ?_⟩
  · rw [zpow_sub₀ (by norm_num)]
    exact div_le_div₀ hx.pos.le hx.low hy.pos hy.high
  · rw [zpow_sub₀ (by norm_num)]
    exact div_le_div₀ (ten_zpow_pos k).le hx.high (ten_zpow_pos m) hy.low

theorem exists_mul_upTo (hx : IsUpTo j k x) (hy : IsUpTo m n y) (hlow : IsModerate (j + m))
    (hhigh : IsModerate (k + n)) :
    ∃ z, standard.mul x y = .ok z ∧ IsUpTo (j + m) (k + n) z ∧
      (z.toRat = 0 → x.toRat = 0 ∨ y.toRat = 0) := by
  obtain ⟨z, hz, hwithin, hval⟩ := exists_mul_within hx.isWithin hy.isWithin hhigh
  by_cases hzero : x.toRat = 0 ∨ y.toRat = 0
  · refine ⟨z, hz, ⟨hwithin.finite, .inl ?_⟩, fun _ => hzero⟩
    rw [hval, mul_eq_zero.mpr hzero, rounded_zero]
  · rw [not_or] at hzero
    obtain ⟨z', hz', hbetween⟩ :=
      exists_mul_between (hx.isBetween hzero.1) (hy.isBetween hzero.2) hlow hhigh
    obtain rfl : z = z' := Except.ok.inj (hz.symm.trans hz')
    exact ⟨z, hz, hbetween.isUpTo, fun h => absurd h hbetween.pos.ne'⟩

theorem exists_div_upTo (hx : IsUpTo j k x) (hy : IsBetween m n y) (hlow : IsModerate (j - n))
    (hhigh : IsModerate (k - m)) :
    ∃ z, standard.div x y = .ok z ∧ IsUpTo (j - n) (k - m) z ∧
      z.toRat = standard.rounded (x.toRat / y.toRat) := by
  obtain ⟨z, hz, hwithin, hval⟩ := exists_div_within hx.isWithin hy.finite
    (by rw [abs_of_pos hy.pos]; exact hy.low) hhigh
  by_cases hzero : x.toRat = 0
  · refine ⟨z, hz, ⟨hwithin.finite, .inl ?_⟩, hval⟩
    rw [hval, hzero, zero_div, rounded_zero]
  · obtain ⟨z', hz', hbetween⟩ := exists_div_between (hx.isBetween hzero) hy hlow hhigh
    obtain rfl : z = z' := Except.ok.inj (hz.symm.trans hz')
    exact ⟨z, hz, hbetween.isUpTo, hval⟩

end Context

namespace Decimal

variable {x y : Decimal} {m n : Nat} {e f : ℤ}

/-- A number of units of one decimal place. -/
structure IsUnits (m : Nat) (e : ℤ) (x : Decimal) : Prop where
  finite : x.isFinite
  value : x.toRat = m * 10 ^ e

theorem isUnits_finite (m : Nat) (e : ℤ) : IsUnits m e (.finite false m e) := ⟨rfl, toRat_false m e⟩

theorem IsUnits.pos (hx : IsUnits m e x) (hm : 0 < m) : 0 < x.toRat := by
  rw [hx.value]
  exact mul_pos (by exact_mod_cast hm) (ten_zpow_pos e)

theorem abs_units_le (hm : m < 10 ^ 28) : |(m : ℚ) * 10 ^ e| ≤ 10 ^ (28 + e) := by
  have hle : (m : ℚ) ≤ 10 ^ (28 : ℤ) := by exact_mod_cast hm.le
  rw [abs_of_nonneg (by positivity), zpow_add₀ (by norm_num)]
  exact mul_le_mul_of_nonneg_right hle (ten_zpow_pos e).le

theorem IsUnits.isWithin (hx : IsUnits m e x) (hm : m < 10 ^ 28) : IsWithin (28 + e) x :=
  ⟨hx.finite, hx.value ▸ abs_units_le hm⟩

/-- So few units are within the limits, and not rounded. -/
theorem units_exact (hm : m < 10 ^ 28) (he : |e| ≤ 9500) :
    |(m : ℚ) * 10 ^ e| < 10 ^ Context.maxExponent ∧
      Context.standard.rounded (m * 10 ^ e) = m * 10 ^ e := by
  have hmoderate : Context.IsModerate e := Context.isModerate_of_near he (by norm_num)
  have hmoderate' : Context.IsModerate (28 + e) := Context.isModerate_of_near he (by norm_num)
  have hrounded := Context.rounded_eq_self_of_lt (c := .standard) (n := m) (k := e)
    (by rw [Nat.abs_cast]; exact_mod_cast hm) hmoderate.lowestPlace_le
  exact ⟨(abs_units_le hm).trans_lt hmoderate'.lt, by exact_mod_cast hrounded⟩

theorem IsUnits.exists_add (hx : IsUnits m e x) (hy : IsUnits n e y) (hmn : m + n < 10 ^ 28)
    (he : |e| ≤ 9500) : ∃ z, Context.standard.add x y = .ok z ∧ IsUnits (m + n) e z := by
  have hmoderate : Context.IsModerate (28 + e + 1) :=
    Context.isModerate_of_near he (by rw [abs_le]; omega)
  obtain ⟨z, hz, hwithin, hval⟩ := Context.exists_add_within (hx.isWithin (by omega))
    (hy.isWithin (by omega)) hmoderate
  refine ⟨z, hz, hwithin.finite, ?_⟩
  rw [hval, hx.value, hy.value, ← add_mul, ← Nat.cast_add, (units_exact hmn he).2]

theorem IsUnits.exists_mul (hx : IsUnits m e x) (hy : IsUnits n f y) (hmn : m * n < 10 ^ 28)
    (hef : |e + f| ≤ 9500) :
    ∃ z, Context.standard.mul x y = .ok z ∧ IsUnits (m * n) (e + f) z := by
  have hproduct : x.toRat * y.toRat = (m * n : Nat) * 10 ^ (e + f) := by
    rw [hx.value, hy.value, zpow_add₀ (by norm_num), Nat.cast_mul, mul_mul_mul_comm]
  obtain ⟨hsize, hrounded⟩ := units_exact hmn hef
  rw [← hproduct] at hsize hrounded
  obtain ⟨z, hz⟩ := Context.exists_mul (c := .standard) hx.finite hy.finite hsize
  obtain ⟨hfin, hval⟩ := Context.mul_ok hx.finite hy.finite hz
  exact ⟨z, hz, hfin, by rw [hval, hrounded, hproduct]⟩

theorem IsUnits.exists_div (hx : IsUnits (m * n) (e + f) x) (hy : IsUnits m e y) (hm : 0 < m)
    (hn : n < 10 ^ 28) (hf : |f| ≤ 9500) :
    ∃ z, Context.standard.div x y = .ok z ∧ IsUnits n f z := by
  have hpos := hy.pos hm
  have hquotient : x.toRat / y.toRat = n * 10 ^ f := by
    rw [div_eq_iff hpos.ne', hx.value, hy.value, zpow_add₀ (by norm_num), Nat.cast_mul]
    ring
  obtain ⟨hsize, hrounded⟩ := units_exact hn hf
  rw [← hquotient] at hsize hrounded
  obtain ⟨z, hz⟩ := Context.exists_div (c := .standard) hx.finite hy.finite hpos.ne' hsize
  obtain ⟨-, hfin, hval⟩ := Context.div_ok hx.finite hy.finite hz
  exact ⟨z, hz, hfin, by rw [hval, hrounded, hquotient]⟩

end Decimal

end LoanOrders
