import LoanOrders.Obligation.Evaluation
import LoanOrders.Proofs.Snapshot
import LoanOrders.Proofs.Sum

/-! How far a threshold is crossed. The distance is never negative. It is at most one, except where
liquidation starts above the threshold and the current value lies beyond that. -/

namespace LoanOrders

namespace Context

variable {c : Context} {q : ℚ}

/-- Half a unit above a power of ten is still rounded down to it, since its last digit is even. -/
theorem rounded_le_iff_le_half {k : ℤ} (hc : 1 < c.precision)
    (hk : c.lowestPlace ≤ k - c.precision + 1) :
    c.rounded q ≤ 10 ^ k ↔ q ≤ 10 ^ k + 10 ^ (k - c.precision + 1) / 2 := by
  obtain ⟨n, hn⟩ : ∃ n : Nat, c.precision = n + 2 := ⟨c.precision - 2, by omega⟩
  have : NeZero c.precision := ⟨by omega⟩
  set place : ℤ := k - c.precision + 1 with hplace
  have hunit : ((10 ^ (n + 1) : ℤ) : ℚ) * 10 ^ place = 10 ^ k := by
    push_cast
    rw [← zpow_natCast, ← zpow_add₀ (by norm_num)]
    congr 1
    omega
  have hone : (10 : ℚ) ^ place ≤ 10 ^ k := ten_zpow_le (by omega)
  have hten : (10 : ℚ) ^ (place + c.precision) = 10 ^ k * 10 := by
    rw [← zpow_add_one₀ (by norm_num)]
    congr 1
    omega
  have hlt := lt_rounded_iff (c := c) (q := q) (n := 10 ^ (n + 1)) (k := place)
    (Even.pow_of_ne_zero (by decide) (by omega)) hk
    (by rw [hunit]; exact ten_zpow_le (by omega))
    (by rw [add_mul, hunit, one_mul, hten]; linarith [ten_zpow_pos k])
  rw [hunit, add_mul, hunit] at hlt
  have hhalf : (1 : ℚ) / 2 * 10 ^ place = 10 ^ place / 2 := by ring
  rw [← not_lt, hlt, not_lt, hhalf]

theorem rounded_le_of_le_half {k : ℤ} (hc : 1 < c.precision) (hk : c.lowestPlace ≤ k - c.precision + 1)
    (h : q ≤ 10 ^ k + 10 ^ (k - c.precision + 1) / 2) : c.rounded q ≤ 10 ^ k :=
  (rounded_le_iff_le_half hc hk).mpr h

end Context

namespace Decimal

variable {x y z : Decimal}

theorem isZero_iff (hx : x.isFinite) : x.isZero = true ↔ x.toRat = 0 := by
  obtain ⟨s, m, e, rfl⟩ := exists_of_isFinite hx
  rw [isZero, beq_iff_eq, toRat_finite, mul_eq_zero, or_iff_left (ten_zpow_pos e).ne', Int.cast_eq_zero]
  cases s <;> simp [Context.signed]

theorem IsNonneg.mul {c : Context} [NeZero c.precision] (hx : x.IsNonneg) (hy : y.IsNonneg)
    (h : c.mul x y = .ok z) : z.IsNonneg := by
  obtain ⟨hz, hval⟩ := Context.mul_ok hx.1 hy.1 h
  exact ⟨hz, hval ▸ Context.rounded_nonneg (mul_nonneg hx.2 hy.2)⟩

theorem IsNonneg.div {c : Context} [NeZero c.precision] (hx : x.IsNonneg) (hy : y.IsNonneg)
    (h : c.div x y = .ok z) : z.IsNonneg := by
  obtain ⟨-, hz, hval⟩ := Context.div_ok hx.1 hy.1 h
  exact ⟨hz, hval ▸ Context.rounded_nonneg (div_nonneg hx.2 hy.2)⟩

/-- A number that is not so small that it loses digits for that. -/
def IsNormal (x : Decimal) : Prop := x.toRat = 0 ∨ 10 ^ Context.minExponent ≤ |x.toRat|

end Decimal

namespace Obligation

variable {o : Obligation} {x y total : Decimal}

theorem perDeposit_ok (ho : o.stats.IsSound) (htotal : total.IsNonneg) (h : o.perDeposit total = .ok x) :
    x.IsNonneg ∧ x.toRat = Context.standard.rounded (total.toRat / o.stats.deposit.toRat) := by
  unfold perDeposit at h
  by_cases hzero : o.stats.deposit.isZero = true
  · rw [if_pos hzero, Except.ok.injEq] at h
    subst h
    rw [Decimal.isZero_iff ho.deposit.1] at hzero
    exact ⟨Decimal.isNonneg_zero, by simp [hzero]⟩
  · rw [if_neg hzero] at h
    obtain ⟨-, -, hval⟩ := Context.div_ok htotal.1 ho.deposit.1 h
    exact ⟨htotal.div ho.deposit h, hval⟩

theorem isNonneg_of_tokenPrice {p : Position} (hp : p.IsSound) (h : p.tokenPrice = .ok x) :
    x.IsNonneg := by
  obtain ⟨y, hy, hx⟩ := bind_eq_ok.mp h
  exact (hp.value.mul hp.unit.isNonneg hy).div hp.amount hx

theorem priceRatio_ok {deposit borrow : Position} {c d : Decimal}
    (hdeposit : o.depositList = [deposit]) (hborrow : o.borrowList = [borrow])
    (hc : deposit.tokenPrice = .ok c) (hd : borrow.tokenPrice = .ok d) (hcfin : c.isFinite)
    (hdfin : d.isFinite) (h : o.priceRatio = .ok r) :
    r.isFinite ∧ r.toRat = Context.standard.rounded (d.toRat / c.toRat) := by
  simp only [priceRatio, hdeposit, hborrow, single, hc, hd, liftM_ok, ok_bind, liftM_eq_ok] at h
  obtain ⟨-, hrfin, hrval⟩ := Context.div_ok hdfin hcfin h
  exact ⟨hrfin, hrval⟩

theorem isNonneg_of_priceRatio (ho : o.IsSound) (h : o.priceRatio = .ok x) : x.IsNonneg := by
  simp only [priceRatio, bind_eq_ok, single_eq_ok, liftM_eq_ok] at h
  obtain ⟨borrow, hborrow, deposit, hdeposit, a, ha, b, hb, hx⟩ := h
  have hborrow' := ho.borrows borrow (by simp [hborrow])
  have hdeposit' := ho.deposits deposit (by simp [hdeposit])
  exact (isNonneg_of_tokenPrice hborrow' ha).div (isNonneg_of_tokenPrice hdeposit' hb) hx

theorem isNonneg_of_liquidationRatio (ho : o.IsSound) (hx : x.IsNonneg)
    (h : o.liquidationRatio x = .ok y) : y.IsNonneg := by
  obtain ⟨scaled, hscaled, hy⟩ := bind_eq_ok.mp h
  exact (hx.mul ho.stats.liquidationLimit hscaled).div ho.stats.weightedBorrow hy

end Obligation

namespace Condition

variable {x t l d : Decimal} {c : Condition} {o : Obligation}

structure IsShare (d : Decimal) (crossed whole : ℚ) : Prop where
  finite : d.isFinite
  toRat : d.toRat = Context.standard.rounded (Context.standard.rounded crossed / whole)

theorem distanceAbove_ok (hx : x.isFinite) (hl : l.isFinite) (h : distanceAbove x t l = .ok (some d)) :
    t.toRat < x.toRat ∧ (l.toRat ≤ t.toRat ∧ d = .one ∨
      t.toRat < l.toRat ∧ 0 < Context.standard.rounded (l.toRat - t.toRat) ∧
        IsShare d (x.toRat - t.toRat) (Context.standard.rounded (l.toRat - t.toRat))) := by
  have ht : t.isFinite := by
    obtain ⟨s, m, e, rfl⟩ := Decimal.exists_of_isFinite hx
    obtain ⟨u, n, f, rfl⟩ := Decimal.exists_of_isFinite hl
    cases t with
    | finite => rfl
    | nan => simp [distanceAbove, Decimal.le, Decimal.ordered, Decimal.compare?] at h
    | infinite v =>
      cases v <;> simp [distanceAbove, Decimal.le, Decimal.ge, Decimal.ordered, Decimal.compare?,
        Context.sub, Decimal.isNaN, Decimal.negate, Context.add, Context.div] at h
  rw [distanceAbove, Decimal.le_eq hx ht, Decimal.ge_eq ht hl] at h
  by_cases hbelow : x.toRat ≤ t.toRat
  · simp [hbelow] at h
  · refine ⟨not_le.mp hbelow, ?_⟩
    by_cases hpast : l.toRat ≤ t.toRat
    · left
      simp [hbelow, hpast] at h
      exact ⟨hpast, h.symm⟩
    · right
      simp only [hbelow, hpast, decide_false, ok_bind, Bool.false_eq_true, if_false, bind_eq_ok,
        pure_eq_ok, Except.ok.injEq, Option.some_inj] at h
      obtain ⟨crossed, hcrossed, whole, hwhole, _, hd, rfl⟩ := h
      obtain ⟨hcfin, hcval⟩ := Context.sub_ok hx ht hcrossed
      obtain ⟨hwfin, hwval⟩ := Context.sub_ok hl ht hwhole
      obtain ⟨hne, hdfin, hdval⟩ := Context.div_ok hcfin hwfin hd
      rw [hwval] at hne hdval
      rw [hcval] at hdval
      have hnonneg := Context.rounded_nonneg (c := .standard) (sub_nonneg.mpr (not_le.mp hpast).le)
      exact ⟨not_le.mp hpast, lt_of_le_of_ne hnonneg hne.symm, hdfin, hdval⟩

theorem distanceBelow_ok (hx : x.isFinite) (h : distanceBelow x t = .ok (some d)) :
    x.toRat < t.toRat ∧ IsShare d (t.toRat - x.toRat) t.toRat := by
  have ht : t.isFinite := by
    obtain ⟨s, m, e, rfl⟩ := Decimal.exists_of_isFinite hx
    cases t with
    | finite => rfl
    | nan => simp [distanceBelow, Decimal.ge, Decimal.ordered, Decimal.compare?] at h
    | infinite v =>
      cases v <;> simp [distanceBelow, Decimal.ge, Decimal.ordered, Decimal.compare?, Context.sub,
        Decimal.isNaN, Decimal.negate, Context.add, Context.div] at h
  rw [distanceBelow, Decimal.ge_eq hx ht] at h
  by_cases habove : t.toRat ≤ x.toRat
  · simp [habove] at h
  · simp only [habove, decide_false, ok_bind, Bool.false_eq_true, if_false, bind_eq_ok, pure_eq_ok,
      Except.ok.injEq, Option.some_inj] at h
    obtain ⟨crossed, hcrossed, _, hd, rfl⟩ := h
    obtain ⟨hcfin, hcval⟩ := Context.sub_ok ht hx hcrossed
    obtain ⟨-, hdfin, hdval⟩ := Context.div_ok hcfin ht hd
    rw [hcval] at hdval
    exact ⟨not_le.mp habove, hdfin, hdval⟩

section Share

variable {crossed whole : ℚ}

theorem rounded_one : Context.standard.rounded 1 = 1 :=
  Context.rounded_ten_zpow (k := 0) (by decide)

theorem IsShare.nonneg (h : IsShare d crossed whole) (hcrossed : 0 ≤ crossed) (hwhole : 0 ≤ whole) :
    0 ≤ d.toRat := by
  rw [h.toRat]
  exact Context.rounded_nonneg (div_nonneg (Context.rounded_nonneg hcrossed) hwhole)

theorem IsShare.le_one (h : IsShare d crossed whole) (hwhole : 0 < whole)
    (hle : Context.standard.rounded crossed ≤ whole) : d.toRat ≤ 1 := by
  rw [h.toRat, ← rounded_one]
  exact Context.rounded_mono ((div_le_one hwhole).mpr hle)

theorem IsShare.one_le (h : IsShare d crossed whole) (hwhole : 0 < whole)
    (hle : whole ≤ Context.standard.rounded crossed) : 1 ≤ d.toRat := by
  rw [h.toRat, ← rounded_one]
  exact Context.rounded_mono ((one_le_div hwhole).mpr hle)

theorem IsShare.mono {e : Decimal} {further : ℚ} (h : IsShare d crossed whole)
    (h' : IsShare e further whole) (hwhole : 0 ≤ whole) (hle : crossed ≤ further) :
    d.toRat ≤ e.toRat := by
  rw [h.toRat, h'.toRat]
  exact Context.rounded_mono (div_le_div_of_nonneg_right (Context.rounded_mono hle) hwhole)

/-- The quotient is rounded down to one from half a unit of its last digit above. -/
theorem IsShare.le_one_iff (h : IsShare d crossed whole) (hwhole : 0 < whole) :
    d.toRat ≤ 1 ↔ Context.standard.rounded crossed ≤ whole * (1 + 5 / 10 ^ 28) := by
  have hround := Context.rounded_le_iff_le_half (c := .standard)
    (q := Context.standard.rounded crossed / whole) (k := 0) (by decide) (by decide)
  have hhalf : (10 : ℚ) ^ (0 : ℤ) + 10 ^ (0 - (Context.standard.precision : ℤ) + 1) / 2 =
      1 + 5 / 10 ^ 28 := by
    norm_num [Context.standard]
  rw [hhalf, zpow_zero, div_le_iff₀ hwhole, mul_comm] at hround
  rw [h.toRat, hround]

/-- The part that is crossed is rounded and the whole is not, which may lift the quotient above one,
but not as far as the next number. -/
theorem IsShare.le_one_of_normal (h : IsShare d crossed whole) (hle : crossed ≤ whole)
    (hwhole : 10 ^ Context.minExponent ≤ whole) : d.toRat ≤ 1 := by
  have hpos : 0 < whole := (ten_zpow_pos _).trans_le hwhole
  have herr := Context.abs_rounded_sub_le_mul (c := .standard) (q := whole) (by rwa [abs_of_pos hpos])
  have hmono := Context.rounded_mono (c := .standard) hle
  have hplaces : (1 - (Context.standard.precision : ℤ)) = -27 := rfl
  rw [abs_of_pos hpos, hplaces] at herr
  have hupper := (abs_le.mp herr).2
  rw [h.le_one_iff hpos]
  norm_num at hupper ⊢
  linarith

end Share

/-- The current value lies beyond the one at which liquidation starts, and that beyond the
threshold. -/
def IsPastLiquidation (c : Condition) (o : Obligation) : Prop :=
  match c with
  | ltvAbove t => ∃ x l, o.loanToValue = .ok x ∧ o.liquidationLtv = .ok l ∧
      t.toRat < l.toRat ∧ l.toRat < x.toRat
  | priceRatioAbove t => ∃ x l, o.priceRatio = .ok x ∧ o.liquidationRatio x = .ok l ∧
      t.toRat < l.toRat ∧ l.toRat < x.toRat
  | ltvBelow _ | priceRatioBelow _ | foreign _ _ => False

/-- A distance on the scale from the threshold to the most extreme value, or past the end of it. -/
structure IsDistance (d : Decimal) (past normal : Prop) : Prop where
  finite : d.isFinite
  nonneg : 0 ≤ d.toRat
  le_one : normal → ¬past → d.toRat ≤ 1
  one_le : past → 1 ≤ d.toRat

theorem isDistance_one (past normal : Prop) : IsDistance .one past normal :=
  ⟨rfl, by simp, by simp, by simp⟩

theorem isDistance_above (hx : x.isFinite) (hl : l.isFinite)
    (h : distanceAbove x t l = .ok (some d)) (normal : Prop) :
    IsDistance d (t.toRat < l.toRat ∧ l.toRat < x.toRat) normal := by
  obtain ⟨hcross, ⟨-, rfl⟩ | ⟨htl, hwhole, hshare⟩⟩ := distanceAbove_ok hx hl h
  · exact isDistance_one _ _
  · refine ⟨hshare.finite, hshare.nonneg (sub_nonneg.mpr hcross.le) hwhole.le, ?_, ?_⟩
    · intro _ hpast
      have hle : x.toRat ≤ l.toRat := not_lt.mp fun hlx => hpast ⟨htl, hlx⟩
      exact hshare.le_one hwhole (Context.rounded_mono (by linarith))
    · rintro ⟨-, hlx⟩
      exact hshare.one_le hwhole (Context.rounded_mono (by linarith))

theorem isDistance_below (hx : x.IsNonneg) (h : distanceBelow x t = .ok (some d)) :
    IsDistance d False t.IsNormal := by
  obtain ⟨hcross, hshare⟩ := distanceBelow_ok hx.1 h
  have ht : 0 < t.toRat := hx.2.trans_lt hcross
  refine ⟨hshare.finite, hshare.nonneg (sub_nonneg.mpr hcross.le) ht.le, ?_, False.elim⟩
  intro hnormal _
  rcases hnormal with hzero | hnormal
  · exact absurd hzero ht.ne'
  · rw [abs_of_pos ht] at hnormal
    exact hshare.le_one_of_normal (by linarith [hx.2]) hnormal

theorem IsDistance.congr {past past' normal : Prop} (h : IsDistance d past normal)
    (hpast : past' ↔ past) : IsDistance d past' normal := by
  rwa [hpast]

theorem exists_values_iff {ε δ : Type} {a : Except ε Decimal} {f : Decimal → Except δ Decimal}
    {P : Decimal → Decimal → Prop} (hx : a = .ok x) (hl : f x = .ok l) :
    (∃ x l, a = .ok x ∧ f x = .ok l ∧ P x l) ↔ P x l := by
  constructor
  · rintro ⟨x', l', hx', hl', hP⟩
    obtain rfl := Except.ok.inj (hx.symm.trans hx')
    obtain rfl := Except.ok.inj (hl.symm.trans hl')
    exact hP
  · intro hP
    exact ⟨x, l, hx, hl, hP⟩

theorem evaluate_ok (ho : o.IsSound) (h : c.evaluate o = .ok (some d)) :
    IsDistance d (c.IsPastLiquidation o) c.threshold.IsNormal := by
  cases c with
  | ltvAbove t =>
    simp only [evaluate, bind_eq_ok, liftM_eq_ok] at h
    obtain ⟨x, hx, l, hl, hd⟩ := h
    obtain ⟨hxs, -⟩ := Obligation.perDeposit_ok ho.stats ho.stats.weightedBorrow hx
    obtain ⟨hls, -⟩ := Obligation.perDeposit_ok ho.stats ho.stats.liquidationLimit hl
    exact (isDistance_above hxs.1 hls.1 hd _).congr
      (exists_values_iff (f := fun _ => o.liquidationLtv) hx hl)
  | ltvBelow t =>
    simp only [evaluate, bind_eq_ok, liftM_eq_ok] at h
    obtain ⟨x, hx, hd⟩ := h
    obtain ⟨hxs, -⟩ := Obligation.perDeposit_ok ho.stats ho.stats.weightedBorrow hx
    exact isDistance_below hxs hd
  | priceRatioAbove t =>
    simp only [evaluate, bind_eq_ok, liftM_eq_ok] at h
    obtain ⟨x, hx, l, hl, hd⟩ := h
    have hxs := Obligation.isNonneg_of_priceRatio ho hx
    have hls := Obligation.isNonneg_of_liquidationRatio ho hxs hl
    exact (isDistance_above hxs.1 hls.1 hd _).congr (exists_values_iff hx hl)
  | priceRatioBelow t =>
    simp only [evaluate, bind_eq_ok, liftM_eq_ok] at h
    obtain ⟨x, hx, hd⟩ := h
    exact isDistance_below (Obligation.isNonneg_of_priceRatio ho hx) hd
  | foreign name t =>
    obtain rfl : Decimal.one = d := by simpa [evaluate] using h
    exact isDistance_one _ _

end Condition

end LoanOrders
