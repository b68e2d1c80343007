import LoanOrders.Decimal.Arithmetic
import LoanOrders.Proofs.Nearest

/-! Rounding to a context, as a function on rational numbers. It keeps the order, leaves every number
with few enough digits alone, and is what `Context.finish` computes. -/

namespace LoanOrders

theorem ten_zpow_pos (k : ℤ) : (0 : ℚ) < 10 ^ k := zpow_pos (by norm_num) k

theorem ten_zpow_le {j k : ℤ} (h : j ≤ k) : (10 : ℚ) ^ j ≤ 10 ^ k :=
  zpow_le_zpow_right₀ (by norm_num) h

theorem ten_zpow_div {j k : ℤ} (h : j ≤ k) : (10 : ℚ) ^ k / 10 ^ j = ((10 ^ (k - j).toNat : ℤ) : ℚ) := by
  rw [← zpow_sub₀ (by norm_num), Int.cast_pow, Int.cast_ofNat, ← zpow_natCast,
    Int.toNat_of_nonneg (by omega)]

/-- A number with at most `n` significant digits. -/
def FitsDigits (n : Nat) (q : ℚ) : Prop := ∃ m e : ℤ, |m| < 10 ^ n ∧ q = m * 10 ^ e

/-- A number with at most `n` decimal places. -/
def FitsPlaces (n : Nat) (q : ℚ) : Prop := ∃ m : ℤ, q * 10 ^ n = m

/-- What a decimal stands for; an infinity or a NaN stands for nothing, and here for zero. -/
def Decimal.toRat : Decimal → ℚ
  | .finite s m e => Context.signed s m * 10 ^ e
  | _ => 0

namespace Context

variable {c : Context} {p q : ℚ}

theorem signed_true (m : Nat) : signed true m = -(m : ℤ) := rfl

/-- The place of the last digit that the context keeps. -/
def lastPlace (c : Context) (q : ℚ) : ℤ := max (Int.log 10 |q| - c.precision + 1) c.lowestPlace

/-- A number rounded to the digits of the context. -/
def rounded (c : Context) (q : ℚ) : ℚ :=
  nearestEven (q / 10 ^ c.lastPlace q) * 10 ^ c.lastPlace q

theorem lowestPlace_le_lastPlace (c : Context) (q : ℚ) : c.lowestPlace ≤ c.lastPlace q :=
  le_max_right _ _

theorem lastPlace_neg (c : Context) (q : ℚ) : c.lastPlace (-q) = c.lastPlace q := by
  rw [lastPlace, abs_neg, lastPlace]

theorem lastPlace_mono (hp : 0 < p) (h : p ≤ q) : c.lastPlace p ≤ c.lastPlace q := by
  have hlog := Int.log_mono_right (b := 10) (abs_pos.mpr hp.ne') (abs_le_abs_of_nonneg hp.le h)
  simp only [lastPlace]
  omega

theorem lastPlace_le_of_lt {k : ℤ} (hq : q ≠ 0) (h : |q| < 10 ^ k) (hk : c.lowestPlace ≤ k - c.precision) :
    c.lastPlace q ≤ k - c.precision := by
  have hlog : Int.log 10 |q| < k := by
    rw [← Int.lt_zpow_iff_log_lt (by norm_num) (abs_pos.mpr hq)]
    exact_mod_cast h
  simp only [lastPlace]
  omega

theorem abs_lt_lastPlace (c : Context) (q : ℚ) : |q| < 10 ^ (c.lastPlace q + c.precision) := by
  refine lt_of_lt_of_le (Int.lt_zpow_succ_log_self (b := 10) (by norm_num) |q|) ?_
  rw [Nat.cast_ofNat]
  apply ten_zpow_le
  have := le_max_left (Int.log 10 |q| - c.precision + 1) c.lowestPlace
  simp only [lastPlace]
  omega

@[simp] theorem rounded_zero (c : Context) : c.rounded 0 = 0 := by
  simp [rounded]

theorem rounded_neg (c : Context) (q : ℚ) : c.rounded (-q) = -c.rounded q := by
  rw [rounded, lastPlace_neg, neg_div, nearestEven_neg, Int.cast_neg, neg_mul, rounded]

theorem rounded_nonneg (h : 0 ≤ q) : 0 ≤ c.rounded q := by
  have hn : 0 ≤ nearestEven (q / 10 ^ c.lastPlace q) :=
    nearestEven_nonneg (div_nonneg h (ten_zpow_pos _).le)
  exact mul_nonneg (by exact_mod_cast hn) (ten_zpow_pos _).le

theorem rounded_signed (c : Context) (s : Bool) (m : Nat) (e : ℤ) :
    c.rounded (signed s m * 10 ^ e) = if s then -c.rounded (m * 10 ^ e) else c.rounded (m * 10 ^ e) := by
  cases s with
  | false => simp [signed]
  | true => rw [signed_true, Int.cast_neg, neg_mul, rounded_neg]; simp

/-- A number without digits below the last place stays as it is. -/
theorem rounded_eq_self {n k : ℤ} (hk : c.lastPlace (n * 10 ^ k) ≤ k) :
    c.rounded (n * 10 ^ k) = n * 10 ^ k := by
  have hz := (ten_zpow_pos (c.lastPlace (n * 10 ^ k))).ne'
  have hdiv : (n : ℚ) * 10 ^ k / 10 ^ c.lastPlace (n * 10 ^ k) =
      ((n * 10 ^ (k - c.lastPlace (n * 10 ^ k)).toNat : ℤ) : ℚ) := by
    rw [mul_div_assoc, ten_zpow_div hk, Int.cast_mul]
  rw [rounded, hdiv, nearestEven_intCast, ← hdiv, div_mul_cancel₀ _ hz]

theorem rounded_eq_self_of_lt {n k : ℤ} (hn : |n| < 10 ^ c.precision) (hk : c.lowestPlace ≤ k) :
    c.rounded (n * 10 ^ k) = n * 10 ^ k := by
  by_cases hzero : n = 0
  · simp [hzero]
  · apply rounded_eq_self
    have hlt : |(n : ℚ) * 10 ^ k| < 10 ^ (k + c.precision) := by
      rw [abs_mul, abs_of_pos (ten_zpow_pos k), zpow_add₀ (by norm_num), mul_comm, zpow_natCast]
      exact mul_lt_mul_of_pos_left (by exact_mod_cast hn) (ten_zpow_pos k)
    have hne : (n : ℚ) * 10 ^ k ≠ 0 := mul_ne_zero (by exact_mod_cast hzero) (ten_zpow_pos k).ne'
    have hle := lastPlace_le_of_lt (c := c) hne hlt (by omega)
    rwa [add_sub_cancel_right] at hle

/-- Unless it is too small, the number of digits alone decides. -/
theorem rounded_eq_self_of_fits (hq : FitsDigits c.precision q) (h : 10 ^ minExponent ≤ |q|) :
    c.rounded q = q := by
  obtain ⟨m, e, hm, rfl⟩ := hq
  refine rounded_eq_self_of_lt hm ?_
  have hlt : (10 : ℚ) ^ minExponent < 10 ^ (c.precision + e) := by
    refine h.trans_lt ?_
    rw [abs_mul, abs_of_pos (ten_zpow_pos e), zpow_add₀ (by norm_num), zpow_natCast]
    exact mul_lt_mul_of_pos_right (by exact_mod_cast hm) (ten_zpow_pos e)
  have := (zpow_lt_zpow_iff_right₀ (by norm_num)).mp hlt
  simp only [lowestPlace]
  omega

theorem rounded_eq_of_place {k : ℤ} (hk : c.lowestPlace ≤ k) (hlow : 10 ^ (k + c.precision - 1) ≤ q)
    (hhigh : q < 10 ^ (k + c.precision)) : c.rounded q = nearestEven (q / 10 ^ k) * 10 ^ k := by
  have hpos : 0 < q := (ten_zpow_pos _).trans_le hlow
  have hlog : Int.log 10 q = k + c.precision - 1 := by
    apply le_antisymm
    · rw [← Int.lt_add_one_iff, sub_add_cancel, ← Int.lt_zpow_iff_log_lt (by norm_num) hpos]
      exact_mod_cast hhigh
    · rw [← Int.zpow_le_iff_le_log (by norm_num) hpos]
      exact_mod_cast hlow
  have hplace : c.lastPlace q = k := by
    rw [lastPlace, abs_of_pos hpos, hlog]
    omega
  rw [rounded, hplace]

theorem abs_rounded_sub_le (c : Context) (q : ℚ) :
    |c.rounded q - q| ≤ 10 ^ c.lastPlace q / 2 := by
  have hz := ten_zpow_pos (c.lastPlace q)
  have hnear := abs_sub_nearestEven_le (q / 10 ^ c.lastPlace q)
  have heq : c.rounded q - q =
      (nearestEven (q / 10 ^ c.lastPlace q) - q / 10 ^ c.lastPlace q) * 10 ^ c.lastPlace q := by
    rw [sub_mul, div_mul_cancel₀ _ hz.ne', rounded]
  rw [heq, abs_mul, abs_of_pos hz, abs_sub_comm]
  calc _ ≤ 1 / 2 * (10 : ℚ) ^ c.lastPlace q := mul_le_mul_of_nonneg_right hnear hz.le
    _ = _ := by ring

theorem abs_rounded_sub_le_of_lt {k : ℤ} (h : |q| < 10 ^ k) (hk : c.lowestPlace ≤ k - c.precision) :
    |c.rounded q - q| ≤ 10 ^ (k - c.precision) / 2 := by
  by_cases hq : q = 0
  · rw [hq, rounded_zero, sub_zero, abs_zero]
    exact (half_pos (ten_zpow_pos _)).le
  · have hle := ten_zpow_le (lastPlace_le_of_lt hq h hk)
    linarith [c.abs_rounded_sub_le q]

theorem abs_rounded_sub_le_mul (h : 10 ^ minExponent ≤ |q|) :
    |c.rounded q - q| ≤ |q| * 10 ^ (1 - c.precision : ℤ) / 2 := by
  have hpos : 0 < |q| := (ten_zpow_pos minExponent).trans_le h
  have hlog : minExponent ≤ Int.log 10 |q| := by
    rw [← Int.zpow_le_iff_le_log (by norm_num) hpos]
    exact_mod_cast h
  have hplace : c.lastPlace q = Int.log 10 |q| + (1 - c.precision) := by
    simp only [lastPlace, lowestPlace]
    omega
  have hle : (10 : ℚ) ^ Int.log 10 |q| ≤ |q| := by
    exact_mod_cast Int.zpow_log_le_self (b := 10) (by norm_num) hpos
  have herr := c.abs_rounded_sub_le q
  rw [hplace, zpow_add₀ (by norm_num)] at herr
  have := mul_le_mul_of_nonneg_right hle (ten_zpow_pos (1 - c.precision)).le
  linarith

theorem rounded_le_ten_zpow {k : ℤ} (hk : c.lastPlace q ≤ k) (h : q ≤ 10 ^ k) :
    c.rounded q ≤ 10 ^ k := by
  have hz := ten_zpow_pos (c.lastPlace q)
  have hdiv : q / 10 ^ c.lastPlace q ≤ ((10 ^ (k - c.lastPlace q).toNat : ℤ) : ℚ) := by
    rw [← ten_zpow_div hk]
    exact div_le_div_of_nonneg_right h hz.le
  have hle : (nearestEven (q / 10 ^ c.lastPlace q) : ℚ) ≤ 10 ^ k / 10 ^ c.lastPlace q := by
    rw [ten_zpow_div hk]
    exact_mod_cast nearestEven_le_of_le hdiv
  exact (le_div_iff₀ hz).mp hle

theorem ten_zpow_le_rounded {k : ℤ} (hk : c.lastPlace q ≤ k) (h : 10 ^ k ≤ q) :
    10 ^ k ≤ c.rounded q := by
  have hz := ten_zpow_pos (c.lastPlace q)
  have hdiv : ((10 ^ (k - c.lastPlace q).toNat : ℤ) : ℚ) ≤ q / 10 ^ c.lastPlace q := by
    rw [← ten_zpow_div hk]
    exact div_le_div_of_nonneg_right h hz.le
  have hle : 10 ^ k / 10 ^ c.lastPlace q ≤ (nearestEven (q / 10 ^ c.lastPlace q) : ℚ) := by
    rw [ten_zpow_div hk]
    exact_mod_cast le_nearestEven_of_le hdiv
  exact (div_le_iff₀ hz).mp hle

instance : NeZero standard.precision := ⟨by decide⟩

instance : NeZero wide.precision := ⟨by decide⟩

section Order

variable [NeZero c.precision]

theorem rounded_mono_of_pos (hp : 0 < p) (h : p ≤ q) : c.rounded p ≤ c.rounded q := by
  have hq : 0 < q := hp.trans_le h
  have hprecision := NeZero.pos c.precision
  rcases (lastPlace_mono (c := c) hp h).eq_or_lt with heq | hlt
  · rw [rounded, rounded, heq]
    have hdiv := div_le_div_of_nonneg_right h (ten_zpow_pos (c.lastPlace q)).le
    exact mul_le_mul_of_nonneg_right (by exact_mod_cast nearestEven_mono hdiv) (ten_zpow_pos _).le
  · -- A power of ten lies between the two numbers, and both roundings stay on their side of it.
    have hlast : c.lastPlace q = Int.log 10 |q| - c.precision + 1 := by
      have := c.lowestPlace_le_lastPlace p
      simp only [lastPlace] at this hlt ⊢
      omega
    have hlog : Int.log 10 |p| + 1 ≤ Int.log 10 |q| := by
      simp only [lastPlace] at hlt
      omega
    have hbelow : p ≤ 10 ^ Int.log 10 |q| := by
      have hself := Int.lt_zpow_succ_log_self (b := 10) (by norm_num) |p|
      rw [Nat.cast_ofNat] at hself
      exact (le_abs_self p).trans (hself.le.trans (ten_zpow_le hlog))
    have habove : 10 ^ Int.log 10 |q| ≤ q := by
      have hself := Int.zpow_log_le_self (b := 10) (by norm_num) (abs_pos.mpr hq.ne')
      rw [Nat.cast_ofNat] at hself
      exact hself.trans_eq (abs_of_pos hq)
    exact (rounded_le_ten_zpow (by omega) hbelow).trans
      (ten_zpow_le_rounded (by omega) habove)

theorem rounded_mono (h : p ≤ q) : c.rounded p ≤ c.rounded q := by
  rcases lt_trichotomy p 0 with hp | rfl | hp
  · rcases lt_or_ge q 0 with hq | hq
    · have hneg := rounded_mono_of_pos (c := c) (neg_pos.mpr hq) (neg_le_neg h)
      rw [rounded_neg, rounded_neg] at hneg
      exact neg_le_neg_iff.mp hneg
    · have hneg := rounded_nonneg (c := c) (neg_pos.mpr hp).le
      rw [rounded_neg] at hneg
      exact (neg_nonneg.mp hneg).trans (rounded_nonneg hq)
  · rw [rounded_zero]
    exact rounded_nonneg h
  · exact rounded_mono_of_pos hp h

theorem rounded_ten_zpow {k : ℤ} (hk : c.lowestPlace ≤ k) : c.rounded (10 ^ k) = 10 ^ k := by
  have hone : |(1 : ℤ)| < 10 ^ c.precision := by
    rw [abs_one]
    exact one_lt_pow₀ (by norm_num) (NeZero.ne c.precision)
  have hself := rounded_eq_self_of_lt hone hk
  rwa [Int.cast_one, one_mul] at hself

theorem abs_rounded_le {k : ℤ} (hk : c.lowestPlace ≤ k) (h : |q| ≤ 10 ^ k) :
    |c.rounded q| ≤ 10 ^ k := by
  obtain ⟨hlow, hhigh⟩ := abs_le.mp h
  have hlow' := rounded_mono (c := c) hlow
  have hhigh' := rounded_mono (c := c) hhigh
  rw [rounded_neg, rounded_ten_zpow hk] at hlow'
  rw [rounded_ten_zpow hk] at hhigh'
  exact abs_le.mpr ⟨hlow', hhigh'⟩

/-- A number of the context, the next power of ten included, is not rounded again. -/
theorem rounded_rounded (c : Context) [NeZero c.precision] (q : ℚ) :
    c.rounded (c.rounded q) = c.rounded q := by
  have hplace := c.lowestPlace_le_lastPlace q
  have hplace' : c.lowestPlace ≤ c.lastPlace q + c.precision := by omega
  have hle := abs_rounded_le hplace' (c.abs_lt_lastPlace q).le
  rcases hle.lt_or_eq with hlt | heq
  · have hn : |nearestEven (q / 10 ^ c.lastPlace q)| < 10 ^ c.precision := by
      rw [rounded, abs_mul, abs_of_pos (ten_zpow_pos _), zpow_add₀ (by norm_num), zpow_natCast,
        mul_comm, mul_lt_mul_iff_right₀ (ten_zpow_pos _)] at hlt
      exact_mod_cast hlt
    exact rounded_eq_self_of_lt hn hplace
  · rcases eq_or_eq_neg_of_abs_eq heq with hten | hten
    · rw [hten, rounded_ten_zpow hplace']
    · rw [hten, rounded_neg, rounded_ten_zpow hplace']

theorem lt_ten_zpow_of_rounded {k : ℤ} (hk : c.lowestPlace ≤ k) (h : c.rounded q < 10 ^ k) :
    q < 10 ^ k := by
  by_contra hge
  have hmono := rounded_mono (c := c) (not_lt.mp hge)
  rw [rounded_ten_zpow hk] at hmono
  exact absurd h (not_lt.mpr hmono)

/-- Below a power of ten, all digits down to the last place are nines at most. -/
theorem rounded_le_of_lt {k : ℤ} (hk : c.lowestPlace ≤ k) (h : c.rounded q < 10 ^ (k + c.precision)) :
    c.rounded q ≤ (10 ^ c.precision - 1) * 10 ^ k := by
  have hz := ten_zpow_pos k
  have hprecision := NeZero.pos c.precision
  have hq := lt_ten_zpow_of_rounded (by omega) h
  rcases lt_or_ge q (10 ^ (k + c.precision - 1)) with hlow | hlow
  · have hmono := rounded_mono (c := c) hlow.le
    rw [rounded_ten_zpow (by omega)] at hmono
    refine hmono.trans ?_
    obtain ⟨i, hi⟩ := Nat.exists_eq_succ_of_ne_zero (NeZero.ne c.precision)
    have hplace : k + c.precision - 1 = k + i := by omega
    have hone : (1 : ℚ) ≤ 10 ^ i := one_le_pow₀ (by norm_num)
    rw [hplace, zpow_add₀ (by norm_num), zpow_natCast, mul_comm, hi, pow_succ]
    exact mul_le_mul_of_nonneg_right (by linarith) hz.le
  · rw [rounded_eq_of_place hk hlow hq, zpow_add₀ (by norm_num), zpow_natCast,
      mul_comm (10 ^ k), mul_lt_mul_iff_left₀ hz] at h
    rw [rounded_eq_of_place hk hlow hq]
    have hlt : nearestEven (q / 10 ^ k) < 10 ^ c.precision := by exact_mod_cast h
    have hle : nearestEven (q / 10 ^ k) ≤ 10 ^ c.precision - 1 := by omega
    exact mul_le_mul_of_nonneg_right (by exact_mod_cast hle) hz.le

/-- A number with an even last digit is passed only from more than half a unit above it. -/
theorem lt_rounded_iff {n k : ℤ} (hn : Even n) (hk : c.lowestPlace ≤ k)
    (hlow : 10 ^ (k + c.precision - 1) ≤ (n : ℚ) * 10 ^ k)
    (hhigh : (n + 1) * (10 : ℚ) ^ k ≤ 10 ^ (k + c.precision)) :
    n * 10 ^ k < c.rounded q ↔ (n + 1 / 2) * 10 ^ k < q := by
  have hz := ten_zpow_pos k
  have hprecision := NeZero.pos c.precision
  rcases lt_or_ge q (10 ^ (k + c.precision - 1)) with hq | hq
  · have hmono := rounded_mono (c := c) hq.le
    rw [rounded_ten_zpow (by omega)] at hmono
    constructor <;> intro <;> linarith
  · rcases lt_or_ge q (10 ^ (k + c.precision)) with hq' | hq'
    · rw [rounded_eq_of_place hk hq hq', mul_lt_mul_iff_left₀ hz, Int.cast_lt,
        lt_nearestEven_iff hn, lt_div_iff₀ hz]
    · have hmono := rounded_mono (c := c) hq'
      rw [rounded_ten_zpow (by omega)] at hmono
      constructor <;> intro <;> linarith

theorem rounded_lt_iff {n k : ℤ} (hn : Even n) (hk : c.lowestPlace ≤ k)
    (hlow : 10 ^ (k + c.precision - 1) ≤ (n - 1) * (10 : ℚ) ^ k)
    (hhigh : (n : ℚ) * 10 ^ k ≤ 10 ^ (k + c.precision)) :
    c.rounded q < n * 10 ^ k ↔ q < (n - 1 / 2) * 10 ^ k := by
  have hz := ten_zpow_pos k
  have hprecision := NeZero.pos c.precision
  rcases lt_or_ge q (10 ^ (k + c.precision - 1)) with hq | hq
  · have hmono := rounded_mono (c := c) hq.le
    rw [rounded_ten_zpow (by omega)] at hmono
    constructor <;> intro <;> linarith
  · rcases lt_or_ge q (10 ^ (k + c.precision)) with hq' | hq'
    · rw [rounded_eq_of_place hk hq hq', mul_lt_mul_iff_left₀ hz, Int.cast_lt,
        nearestEven_lt_iff hn, div_lt_iff₀ hz]
    · have hmono := rounded_mono (c := c) hq'
      rw [rounded_ten_zpow (by omega)] at hmono
      constructor <;> intro <;> linarith

end Order

end Context

end LoanOrders
