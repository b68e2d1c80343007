import LoanOrders.Decimal.Order
import LoanOrders.Proofs.Arithmetic
import LoanOrders.Proofs.Outcome

/-! Comparing finite decimals compares the numbers that they stand for. An infinity lies beyond all
of them and a NaN has no place in the order. -/

namespace LoanOrders.Decimal

variable {x y z : Decimal}

/-- Bringing both coefficients to the lower exponent keeps the difference. -/
theorem compare_coefficients (m : Nat) (e : ℤ) (n : Nat) (f : ℤ) :
    compare (m * 10 ^ (e - min e f).toNat) (n * 10 ^ (f - min e f).toNat) =
      compare ((m : ℚ) * 10 ^ e) (n * 10 ^ f) := by
  have hscale (k : Nat) {g : ℤ} (hg : min e f ≤ g) :
      (k : ℚ) * 10 ^ g = ((k * 10 ^ (g - min e f).toNat : Nat) : ℚ) * 10 ^ min e f := by
    rw [← natCast_mul_zpow_div hg, div_mul_cancel₀ _ (ten_zpow_pos _).ne']
  rw [hscale m (min_le_left e f), hscale n (min_le_right e f)]
  generalize m * 10 ^ (e - min e f).toNat = a
  generalize n * 10 ^ (f - min e f).toNat = b
  have hpos := ten_zpow_pos (min e f)
  rcases lt_trichotomy a b with h | rfl | h
  · rw [compare_lt_iff_lt.mpr h, eq_comm, compare_lt_iff_lt]
    exact mul_lt_mul_of_pos_right (by exact_mod_cast h) hpos
  · rw [compare_eq_iff_eq.mpr rfl, compare_eq_iff_eq.mpr rfl]
  · rw [compare_gt_iff_gt.mpr h, eq_comm, compare_gt_iff_gt]
    exact mul_lt_mul_of_pos_right (by exact_mod_cast h) hpos

theorem compareMagnitude_eq {m n : Nat} (hm : m ≠ 0) (hn : n ≠ 0) (e f : ℤ) :
    compareMagnitude m e n f = compare ((m : ℚ) * 10 ^ e) (n * 10 ^ f) := by
  have hup (k : Nat) (g : ℤ) : (k : ℚ) * 10 ^ g < 10 ^ (adjusted k g + 1) := by
    rw [adjusted, sub_add_cancel]
    exact natCast_mul_zpow_lt k g
  unfold compareMagnitude
  rcases lt_trichotomy (adjusted m e) (adjusted n f) with h | h | h
  · rw [compare_lt_iff_lt.mpr h, eq_comm, compare_lt_iff_lt]
    exact (hup m e).trans_le ((ten_zpow_le h).trans (zpow_adjusted_le hn f))
  · rw [compare_eq_iff_eq.mpr h]
    exact compare_coefficients m e n f
  · rw [compare_gt_iff_gt.mpr h, eq_comm, compare_gt_iff_gt]
    exact (hup n f).trans_le ((ten_zpow_le h).trans (zpow_adjusted_le hm e))

theorem compare_neg (p q : ℚ) : compare (-p) (-q) = compare q p := by
  rcases lt_trichotomy q p with h | rfl | h
  · rw [compare_lt_iff_lt.mpr h, compare_lt_iff_lt]
    exact neg_lt_neg h
  · rw [compare_eq_iff_eq.mpr rfl, compare_eq_iff_eq.mpr rfl]
  · rw [compare_gt_iff_gt.mpr h, compare_gt_iff_gt]
    exact neg_lt_neg h

theorem toRat_zero_coefficient (s : Bool) (e : ℤ) : (finite s 0 e).toRat = 0 := by
  cases s <;> simp [Context.signed]

theorem toRat_false (m : Nat) (e : ℤ) : (finite false m e).toRat = m * 10 ^ e := by
  simp [Context.signed]

theorem toRat_true (m : Nat) (e : ℤ) : (finite true m e).toRat = -(m * 10 ^ e) := by
  simp [Context.signed]

theorem compareFinite_eq (s : Bool) (m : Nat) (e : ℤ) (t : Bool) (n : Nat) (f : ℤ) :
    compareFinite s m e t n f = compare (finite s m e).toRat (finite t n f).toRat := by
  have hpos {k : Nat} (hk : k ≠ 0) (g : ℤ) : (0 : ℚ) < k * 10 ^ g :=
    mul_pos (by exact_mod_cast Nat.pos_of_ne_zero hk) (ten_zpow_pos g)
  unfold compareFinite
  by_cases hm : m = 0
  · rw [if_pos hm, hm, toRat_zero_coefficient]
    by_cases hn : n = 0
    · rw [if_pos hn, hn, toRat_zero_coefficient, compare_eq_iff_eq.mpr rfl]
    · have hn' := hpos hn f
      rw [if_neg hn, eq_comm]
      cases t
      · rw [toRat_false, if_neg Bool.false_ne_true, compare_lt_iff_lt]
        exact hn'
      · rw [toRat_true, if_pos rfl, compare_gt_iff_gt]
        linarith
  · have hm' := hpos hm e
    rw [if_neg hm]
    by_cases hn : n = 0
    · rw [if_pos hn, hn, toRat_zero_coefficient, eq_comm]
      cases s
      · rw [toRat_false, if_neg Bool.false_ne_true, compare_gt_iff_gt]
        exact hm'
      · rw [toRat_true, if_pos rfl, compare_lt_iff_lt]
        linarith
    · have hn' := hpos hn f
      rw [if_neg hn]
      cases s <;> cases t
      · rw [toRat_false, toRat_false]
        exact compareMagnitude_eq hm hn e f
      · rw [toRat_false, toRat_true, eq_comm, compare_gt_iff_gt]
        linarith
      · rw [toRat_false, toRat_true, eq_comm, compare_lt_iff_lt]
        linarith
      · rw [toRat_true, toRat_true, compare_neg]
        exact compareMagnitude_eq hn hm f e

theorem compare?_eq (hx : x.isFinite) (hy : y.isFinite) :
    compare? x y = some (compare x.toRat y.toRat) := by
  obtain ⟨s, m, e, rfl⟩ := exists_of_isFinite hx
  obtain ⟨t, n, f, rfl⟩ := exists_of_isFinite hy
  exact congrArg some (compareFinite_eq s m e t n f)

section Tests

variable (hx : x.isFinite) (hy : y.isFinite)
include hx hy

theorem ordered_eq (test : Ordering → Bool) {P : Prop} [Decidable P]
    (h : test (compare x.toRat y.toRat) = true ↔ P) : ordered test x y = .ok (decide P) := by
  have hbool : test (compare x.toRat y.toRat) = decide P := by
    rw [Bool.eq_iff_iff, decide_eq_true_iff]
    exact h
  rw [ordered, compare?_eq hx hy, ← hbool]

theorem lt_eq : x.lt y = .ok (decide (x.toRat < y.toRat)) :=
  ordered_eq hx hy _ (Ordering.isLT_iff_eq_lt.trans compare_lt_iff_lt)

theorem le_eq : x.le y = .ok (decide (x.toRat ≤ y.toRat)) :=
  ordered_eq hx hy _ (Ordering.isLE_iff_ne_gt.trans compare_le_iff_le)

theorem gt_eq : x.gt y = .ok (decide (y.toRat < x.toRat)) :=
  ordered_eq hx hy _ (Ordering.isGT_iff_eq_gt.trans compare_gt_iff_gt)

theorem ge_eq : x.ge y = .ok (decide (y.toRat ≤ x.toRat)) :=
  ordered_eq hx hy _ (Ordering.isGE_iff_ne_lt.trans compare_ge_iff_ge)

theorem same_eq : x.same y = .ok (decide (x.toRat = y.toRat)) := by
  have hsignal {d : Decimal} (hd : d.isFinite) : d.isSignaling = false := by
    obtain ⟨s, m, e, rfl⟩ := exists_of_isFinite hd
    rfl
  have hbool : (some (compare x.toRat y.toRat) == some Ordering.eq) = decide (x.toRat = y.toRat) := by
    rw [Bool.eq_iff_iff, decide_eq_true_iff, ← compare_eq_iff_eq]
    simp
  rw [same, hsignal hx, hsignal hy, compare?_eq hx hy, ← hbool]
  rfl

end Tests

section Zero

variable (hx : x.isFinite)
include hx

theorem compare?_zero : x.compare? .zero = some (compare x.toRat 0) := by
  rw [compare?_eq hx (y := .zero) rfl, toRat_zero]

theorem gt_zero : x.gt .zero = .ok (decide (0 < x.toRat)) := by
  rw [gt_eq hx (y := .zero) rfl, toRat_zero]

theorem ge_zero : x.ge .zero = .ok (decide (0 ≤ x.toRat)) := by
  rw [ge_eq hx (y := .zero) rfl, toRat_zero]

end Zero

theorem smaller_eq_or (h : x.smaller y = .ok z) : z = x ∨ z = y := by
  obtain ⟨below, -, h⟩ := bind_eq_ok.mp h
  cases below with
  | true => exact .inr (by simpa using h.symm)
  | false => exact .inl (by simpa using h.symm)

theorem smaller_eq (hx : x.isFinite) (hy : y.isFinite) :
    x.smaller y = .ok (if y.toRat < x.toRat then y else x) := by
  rw [smaller, lt_eq hy hx, ok_bind]
  by_cases h : y.toRat < x.toRat <;> simp [h]

theorem smaller_ok (hx : x.isFinite) (hy : y.isFinite) (h : x.smaller y = .ok z) :
    z.isFinite ∧ z.toRat = min x.toRat y.toRat := by
  rw [smaller_eq hx hy, Except.ok.injEq] at h
  subst h
  split_ifs with hlt
  · exact ⟨hy, (min_eq_right hlt.le).symm⟩
  · exact ⟨hx, (min_eq_left (not_lt.mp hlt)).symm⟩

/-- Whatever is compared with a number, the smaller of the two is not above it. -/
theorem smaller_le (hy : y.isFinite) (h : x.smaller y = .ok z) :
    z.isFinite ∧ z.toRat ≤ y.toRat ∨ z = .infinite true := by
  cases x with
  | finite s m e =>
    obtain ⟨hz, hval⟩ := smaller_ok (isFinite_finite s m e) hy h
    exact .inl ⟨hz, hval ▸ min_le_right _ _⟩
  | infinite s =>
    obtain ⟨t, n, f, rfl⟩ := exists_of_isFinite hy
    cases s with
    | false =>
      obtain rfl : finite t n f = z := by simpa [smaller, lt, ordered, compare?] using h
      exact .inl ⟨rfl, le_rfl⟩
    | true =>
      obtain rfl : infinite true = z := by simpa [smaller, lt, ordered, compare?] using h
      exact .inr rfl
  | nan s signaling p =>
    obtain ⟨t, n, f, rfl⟩ := exists_of_isFinite hy
    simp [smaller, lt, ordered, compare?] at h

theorem smaller_infinite (hx : x.isFinite) (s : Bool) :
    x.smaller (.infinite s) = .ok (if s then .infinite true else x) := by
  obtain ⟨t, m, e, rfl⟩ := exists_of_isFinite hx
  cases s <;> simp [smaller, lt, ordered, compare?]

theorem smaller_nan_ne_ok (hx : x.isFinite) {s signaling : Bool} {payload : Nat} :
    x.smaller (.nan s signaling payload) ≠ .ok z := by
  obtain ⟨t, m, e, rfl⟩ := exists_of_isFinite hx
  simp [smaller, lt, ordered, compare?]

/-- What one number can be compared with, all can. -/
theorem exists_smaller_of_smaller {w : Decimal} (hw : w.isFinite) (h : w.smaller y = .ok z)
    (hx : x.isFinite) : ∃ z, x.smaller y = .ok z := by
  cases y with
  | finite s m e => exact ⟨_, smaller_eq hx (isFinite_finite s m e)⟩
  | infinite s => exact ⟨_, smaller_infinite hx s⟩
  | nan s signaling payload => exact absurd h (smaller_nan_ne_ok hw)

end LoanOrders.Decimal
