import Mathlib
import LoanOrders.Decimal.Rounding

/-! The integer nearest to a rational number. The quotient and remainder of `roundQuotient` find it,
with the even neighbour on a tie or with the one away from zero. -/

namespace LoanOrders

/-- The nearest integer, and of two that are equally near the even one. -/
def nearestEven (q : ℚ) : ℤ :=
  if q - ⌊q⌋ < 1 / 2 then ⌊q⌋
  else if 1 / 2 < q - ⌊q⌋ then ⌊q⌋ + 1
  else ⌊q⌋ + ⌊q⌋ % 2

theorem nearestEven_spec (q : ℚ) :
    |q - nearestEven q| < 1 / 2 ∨ |q - nearestEven q| = 1 / 2 ∧ Even (nearestEven q) := by
  have hlow := Int.floor_le q
  have hhigh := Int.lt_floor_add_one q
  unfold nearestEven
  split_ifs with hless hmore
  · left
    rw [abs_lt]
    constructor <;> linarith
  · left
    rw [abs_lt]
    push_cast
    constructor <;> linarith
  · right
    have htie : q - ⌊q⌋ = 1 / 2 := le_antisymm (not_lt.mp hmore) (not_lt.mp hless)
    rcases Int.emod_two_eq_zero_or_one ⌊q⌋ with he | ho
    · rw [he, add_zero, htie, abs_of_pos (by norm_num)]
      exact ⟨rfl, Int.even_iff.mpr he⟩
    · rw [ho]
      refine ⟨?_, by rw [Int.even_iff]; omega⟩
      have hq : q - ((⌊q⌋ + 1 : ℤ) : ℚ) = -(1 / 2) := by push_cast; linarith
      rw [hq, abs_neg, abs_of_pos (by norm_num)]

theorem nearestEven_unique {q : ℚ} {m n : ℤ}
    (hm : |q - m| < 1 / 2 ∨ |q - m| = 1 / 2 ∧ Even m)
    (hn : |q - n| < 1 / 2 ∨ |q - n| = 1 / 2 ∧ Even n) : m = n := by
  have hm' : |q - m| ≤ 1 / 2 := hm.elim le_of_lt fun h => h.1.le
  have hn' : |q - n| ≤ 1 / 2 := hn.elim le_of_lt fun h => h.1.le
  have hdist : |(m : ℚ) - n| ≤ |q - m| + |q - n| := by
    rw [abs_sub_comm q m]
    exact abs_sub_le (m : ℚ) q n
  have hone : |m - n| ≤ 1 := by
    have h : |(m : ℚ) - n| ≤ 1 := by linarith
    exact_mod_cast h
  by_contra hne
  have hpos : 1 ≤ |m - n| := Int.one_le_abs (sub_ne_zero.mpr hne)
  have heq : |(m : ℚ) - n| = 1 := by exact_mod_cast le_antisymm hone hpos
  rcases hm with hm | ⟨-, hm⟩
  · linarith
  · rcases hn with hn | ⟨-, hn⟩
    · linarith
    · have heven : Even (m - n) := hm.sub hn
      rcases abs_le.mp hone with ⟨h₁, h₂⟩
      obtain ⟨k, hk⟩ := heven
      omega

theorem nearestEven_eq_iff {q : ℚ} {n : ℤ} :
    nearestEven q = n ↔ |q - n| < 1 / 2 ∨ |q - n| = 1 / 2 ∧ Even n := by
  constructor
  · rintro rfl
    exact nearestEven_spec q
  · exact nearestEven_unique (nearestEven_spec q)

theorem nearestEven_eq_of_abs_lt {q : ℚ} {n : ℤ} (h : |q - n| < 1 / 2) : nearestEven q = n :=
  nearestEven_eq_iff.mpr (.inl h)

theorem abs_sub_nearestEven_le (q : ℚ) : |q - nearestEven q| ≤ 1 / 2 :=
  (nearestEven_spec q).elim le_of_lt fun h => h.1.le

@[simp] theorem nearestEven_intCast (n : ℤ) : nearestEven n = n :=
  nearestEven_eq_of_abs_lt (by simp)

@[simp] theorem nearestEven_zero : nearestEven 0 = 0 := by
  simpa using nearestEven_intCast 0

theorem nearestEven_neg (q : ℚ) : nearestEven (-q) = -nearestEven q := by
  rw [nearestEven_eq_iff, Int.cast_neg, neg_sub_neg, abs_sub_comm, even_neg]
  exact nearestEven_spec q

theorem nearestEven_mono {p q : ℚ} (h : p ≤ q) : nearestEven p ≤ nearestEven q := by
  by_contra! hlt
  have hp := (abs_le.mp (abs_sub_nearestEven_le p)).1
  have hq := (abs_le.mp (abs_sub_nearestEven_le q)).2
  have hstep : (nearestEven q : ℚ) + 1 ≤ nearestEven p := by exact_mod_cast hlt
  -- The two integers are then neighbours with both numbers halfway between them.
  have hpq : p = q := by linarith
  rw [hpq] at hlt
  exact lt_irrefl _ hlt

theorem nearestEven_nonneg {q : ℚ} (h : 0 ≤ q) : 0 ≤ nearestEven q := by
  simpa using nearestEven_mono h

theorem nearestEven_le_of_le {q : ℚ} {n : ℤ} (h : q ≤ n) : nearestEven q ≤ n := by
  simpa using nearestEven_mono h

theorem le_nearestEven_of_le {q : ℚ} {n : ℤ} (h : (n : ℚ) ≤ q) : n ≤ nearestEven q := by
  simpa using nearestEven_mono h

/-- Above an even integer, a tie still belongs to it. -/
theorem lt_nearestEven_iff {q : ℚ} {n : ℤ} (hn : Even n) : n < nearestEven q ↔ n + 1 / 2 < q := by
  have htie : nearestEven (n + 1 / 2) = n := by
    rw [nearestEven_eq_iff, add_sub_cancel_left, abs_of_pos (by norm_num)]
    exact .inr ⟨rfl, hn⟩
  constructor
  · intro h
    by_contra hle
    have hmono := nearestEven_mono (not_lt.mp hle)
    omega
  · intro h
    have hnear := (abs_le.mp (abs_sub_nearestEven_le q)).2
    have hlt : (n : ℚ) < nearestEven q := by linarith
    exact_mod_cast hlt

theorem nearestEven_lt_iff {q : ℚ} {n : ℤ} (hn : Even n) : nearestEven q < n ↔ q < n - 1 / 2 := by
  have h := lt_nearestEven_iff (q := -q) hn.neg
  rw [nearestEven_neg, neg_lt_neg_iff] at h
  rw [h]
  push_cast
  constructor <;> intro <;> linarith

section Quotient

variable {n d : Nat}

theorem floor_natCast_div (n d : Nat) : ⌊(n : ℚ) / d⌋ = (n / d : Nat) := by
  rw [Rat.floor_natCast_div_natCast]
  rfl

theorem natCast_div_sub_floor (hd : d ≠ 0) : (n : ℚ) / d - (n / d : Nat) = (n % d : Nat) / d := by
  have hd' : (d : ℚ) ≠ 0 := by exact_mod_cast hd
  have hn : (n : ℚ) = d * (n / d : Nat) + (n % d : Nat) := by exact_mod_cast (Nat.div_add_mod n d).symm
  rw [sub_eq_iff_eq_add, div_eq_iff hd', add_mul, div_mul_cancel₀ _ hd', mul_comm _ (d : ℚ)]
  linarith

theorem mod_div_lt_half_iff (hd : d ≠ 0) : ((n % d : Nat) : ℚ) / d < 1 / 2 ↔ 2 * (n % d) < d := by
  have hd' : (0 : ℚ) < d := by exact_mod_cast Nat.pos_of_ne_zero hd
  rw [div_lt_div_iff₀ hd' (by norm_num), one_mul, mul_comm]
  exact_mod_cast Iff.rfl

theorem half_lt_mod_div_iff (hd : d ≠ 0) : 1 / 2 < ((n % d : Nat) : ℚ) / d ↔ d < 2 * (n % d) := by
  have hd' : (0 : ℚ) < d := by exact_mod_cast Nat.pos_of_ne_zero hd
  rw [div_lt_div_iff₀ (by norm_num) hd', one_mul, mul_comm]
  exact_mod_cast Iff.rfl

theorem roundQuotient_even (hd : d ≠ 0) :
    (roundQuotient .even n d : ℤ) = nearestEven ((n : ℚ) / d) := by
  rw [nearestEven, floor_natCast_div, Int.cast_natCast, natCast_div_sub_floor hd]
  simp only [mod_div_lt_half_iff hd, half_lt_mod_div_iff hd, roundQuotient]
  split_ifs <;> push_cast <;> rfl

/-- Away from zero is up, since nothing here is negative. -/
theorem roundQuotient_away (hd : d ≠ 0) :
    (roundQuotient .away n d : ℤ) = round ((n : ℚ) / d) := by
  have hfloor := natCast_div_sub_floor (n := n) hd
  have hlt : ((n % d : Nat) : ℚ) / d < 1 := by
    have hd' : (0 : ℚ) < d := by exact_mod_cast Nat.pos_of_ne_zero hd
    rw [div_lt_one hd']
    exact_mod_cast Nat.mod_lt n (Nat.pos_of_ne_zero hd)
  have hnonneg : (0 : ℚ) ≤ ((n % d : Nat) : ℚ) / d := by positivity
  symm
  rw [round_eq_iff, Set.mem_Ico, Int.cast_natCast]
  simp only [roundQuotient]
  split_ifs with hless hmore
  · have hhalf := (mod_div_lt_half_iff hd).mpr hless
    constructor <;> linarith
  all_goals
    have hhalf := not_lt.mp (mt (mod_div_lt_half_iff hd).mp hless)
    push_cast
    constructor <;> linarith

end Quotient

end LoanOrders
