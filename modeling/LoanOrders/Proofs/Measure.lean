import LoanOrders.Proofs.Distance
import LoanOrders.Proofs.Inactive
import LoanOrders.Proofs.Overflow

/-! The distances as measures. A value that lies further past a threshold is never less far from it,
although the difference and the quotient are both rounded. On the way to liquidation the distance
does not exceed one. On the way to zero it can, but only from a threshold that is so small that it
has digits below the last place of the context. -/

namespace LoanOrders.Condition

variable {x y t l d e : Decimal} {o : Obligation}

/-- A measure of how far the values of a domain lie past a threshold. -/
structure IsMeasure (domain crosses : ℚ → Prop) (before : ℚ → ℚ → Prop)
    (measure : Decimal → Except Signal (Option Decimal)) : Prop where
  hits_iff : ∀ {x hit}, x.isFinite → measure x = .ok hit → (hit.isSome = true ↔ crosses x.toRat)
  nonneg : ∀ {x d}, x.isFinite → domain x.toRat → measure x = .ok (some d) → d.IsNonneg
  mono : ∀ {x y d e}, x.isFinite → domain x.toRat → y.isFinite → domain y.toRat →
    before x.toRat y.toRat → measure x = .ok (some d) → measure y = .ok (some e) → d.toRat ≤ e.toRat

theorem isMeasure_above (ht : t.isFinite) (hl : l.isFinite) :
    IsMeasure (fun _ => True) (t.toRat < ·) (· ≤ ·) (distanceAbove · t l) where
  hits_iff := by
    intro x hit hx h
    have hle := le_of_distanceAbove h
    rw [Decimal.le_eq hx ht, Except.ok.injEq] at hle
    cases hit <;> simpa using hle
  nonneg := by
    intro x d hx _ h
    have hdistance := isDistance_above hx hl h True
    exact ⟨hdistance.finite, hdistance.nonneg⟩
  mono := by
    intro x y d e hx _ hy _ hle hd he
    obtain ⟨-, ⟨hlt, rfl⟩ | ⟨htl, hwhole, hshare⟩⟩ := distanceAbove_ok hx hl hd
    · obtain ⟨-, ⟨-, rfl⟩ | ⟨htl, -, -⟩⟩ := distanceAbove_ok hy hl he
      · exact le_rfl
      · exact absurd htl (not_lt.mpr hlt)
    · obtain ⟨-, ⟨hlt, -⟩ | ⟨-, -, hshare'⟩⟩ := distanceAbove_ok hy hl he
      · exact absurd htl (not_lt.mpr hlt)
      · exact hshare.mono hshare' hwhole.le (sub_le_sub_right hle _)

theorem isMeasure_below (ht : t.isFinite) :
    IsMeasure (0 ≤ ·) (· < t.toRat) (· ≥ ·) (distanceBelow · t) where
  hits_iff := by
    intro x hit hx h
    have hge := ge_of_distanceBelow h
    rw [Decimal.ge_eq hx ht, Except.ok.injEq] at hge
    cases hit <;> simpa using hge
  nonneg := by
    intro x d hx h₀ h
    have hdistance := isDistance_below ⟨hx, h₀⟩ h
    exact ⟨hdistance.finite, hdistance.nonneg⟩
  mono := by
    intro x y d e hx h₀ hy _ hge hd he
    obtain ⟨hcross, hshare⟩ := distanceBelow_ok hx hd
    obtain ⟨-, hshare'⟩ := distanceBelow_ok hy he
    exact hshare.mono hshare' (h₀.trans hcross.le) (sub_le_sub_left hge _)

theorem le_one_of_above (hx : x.isFinite) (hl : l.isFinite) (hle : x.toRat ≤ l.toRat)
    (h : distanceAbove x t l = .ok (some d)) : d.toRat ≤ 1 :=
  (isDistance_above hx hl h True).le_one trivial fun hpast => absurd hpast.2 (not_lt.mpr hle)

/-- Nothing is divided by a threshold that a value of zero or more does not lie below. -/
theorem eq_overflow_of_below {e : Signal} (hx : x.IsNonneg) (ht : t.isFinite)
    (h : distanceBelow x t = .error e) : e = .overflow := by
  by_cases hle : t.toRat ≤ x.toRat
  · have hnone := distanceBelow_eq_none.mpr ((Decimal.ge_eq hx.1 ht).trans (by rw [decide_eq_true hle]))
    rw [hnone] at h
    cases h
  · simp only [distanceBelow, Decimal.ge_eq hx.1 ht, hle, decide_false, ok_bind, Bool.false_eq_true,
      if_false] at h
    rcases bind_eq_error.mp h with h | ⟨crossed, hcrossed, h⟩
    · exact Context.eq_overflow_of_sub ht hx.1 h
    · obtain ⟨hfin, -⟩ := Context.sub_ok ht hx.1 hcrossed
      rcases bind_eq_error.mp h with h | ⟨_, -, h⟩
      · exact Context.eq_overflow_of_div hfin ht (hx.2.trans_lt (not_le.mp hle)).ne' h
      · cases h

theorem below_le_one_iff (hx : x.IsNonneg) (h : distanceBelow x t = .ok (some d)) :
    d.toRat ≤ 1 ↔ Context.standard.rounded (t.toRat - x.toRat) ≤ t.toRat * (1 + 5 / 10 ^ 28) := by
  obtain ⟨hcross, hshare⟩ := distanceBelow_ok hx.1 h
  exact hshare.le_one_iff (hx.2.trans_lt hcross)

theorem below_le_one_of_kept (hx : x.IsNonneg)
    (ht : t.IsNormal ∨ Context.standard.rounded t.toRat = t.toRat)
    (h : distanceBelow x t = .ok (some d)) : d.toRat ≤ 1 := by
  rcases ht with ht | ht
  · exact (isDistance_below hx h).le_one ht not_false
  · obtain ⟨hcross, hshare⟩ := distanceBelow_ok hx.1 h
    have hmono := Context.rounded_mono (c := .standard) (sub_le_self t.toRat hx.2)
    rw [ht] at hmono
    exact hshare.le_one (hx.2.trans_lt hcross) hmono

/-- The distance to a stop-loss by the loan to value is a share as long as no more is owed than may
be. -/
theorem ltvAbove_ok (ho : o.stats.IsSound)
    (hle : o.stats.weightedBorrow.toRat ≤ o.stats.liquidationLimit.toRat)
    (h : (ltvAbove t).evaluate o = .ok (some d)) : d.IsNonneg ∧ d.toRat ≤ 1 := by
  simp only [evaluate, bind_eq_ok, liftM_eq_ok] at h
  obtain ⟨x, hx, l, hl, hd⟩ := h
  obtain ⟨hxs, hxval⟩ := Obligation.perDeposit_ok ho ho.weightedBorrow hx
  obtain ⟨hls, hlval⟩ := Obligation.perDeposit_ok ho ho.liquidationLimit hl
  have hxl : x.toRat ≤ l.toRat := by
    rw [hxval, hlval]
    exact Context.rounded_mono (div_le_div_of_nonneg_right hle ho.deposit.2)
  have hdistance := isDistance_above hxs.1 hls.1 hd True
  exact ⟨⟨hdistance.finite, hdistance.nonneg⟩, le_one_of_above hxs.1 hls.1 hxl hd⟩

/-- The distances are monotone, and shares on the way from the threshold to liquidation or to zero.
The latter is a share unless the threshold is rounded up so far that half a unit is exceeded. -/
theorem distances_measure (ht : t.isFinite) (hl : l.isFinite) :
    (IsMeasure (fun _ => True) (t.toRat < ·) (· ≤ ·) (distanceAbove · t l) ∧
      ∀ x d, x.isFinite → x.toRat ≤ l.toRat → distanceAbove x t l = .ok (some d) → d.toRat ≤ 1) ∧
    (IsMeasure (0 ≤ ·) (· < t.toRat) (· ≥ ·) (distanceBelow · t) ∧ ∀ x, x.IsNonneg →
      (∀ e, distanceBelow x t = .error e → e = .overflow) ∧
      ∀ d, distanceBelow x t = .ok (some d) →
        (d.toRat ≤ 1 ↔
          Context.standard.rounded (t.toRat - x.toRat) ≤ t.toRat * (1 + 5 / 10 ^ 28)) ∧
        (t.IsNormal ∨ Context.standard.rounded t.toRat = t.toRat → d.toRat ≤ 1)) ∧
    ∀ o d, o.stats.IsSound → o.stats.weightedBorrow.toRat ≤ o.stats.liquidationLimit.toRat →
      (ltvAbove t).evaluate o = .ok (some d) → d.IsNonneg ∧ d.toRat ≤ 1 :=
  ⟨⟨isMeasure_above ht hl, fun _ _ hx hle h => le_one_of_above hx hl hle h⟩,
    ⟨isMeasure_below ht, fun _ hx => ⟨fun _ h => eq_overflow_of_below hx ht h,
      fun _ h => ⟨below_le_one_iff hx h, fun hkept => below_le_one_of_kept hx hkept h⟩⟩⟩,
    fun _ _ ho hle h => ltvAbove_ok ho hle h⟩

/-- With 70 percent borrowed a stop-loss at 60 percent is crossed by two fifths of the way to
liquidation, and no less than with 65 percent borrowed. -/
theorem distances_measure_seventy :
    distanceAbove (.finite false 7 (-1)) (.finite false 6 (-1)) (.finite false 85 (-2)) =
      .ok (some (.finite false 4 (-1))) ∧
    (Decimal.finite false 2 (-1)).toRat ≤ (Decimal.finite false 4 (-1)).toRat ∧
    (Decimal.finite false 4 (-1)).toRat ≤ 1 := by
  have h : distanceAbove (.finite false 7 (-1)) (.finite false 6 (-1)) (.finite false 85 (-2)) =
      .ok (some (.finite false 4 (-1))) := by decide +kernel
  have h' : distanceAbove (.finite false 65 (-2)) (.finite false 6 (-1)) (.finite false 85 (-2)) =
      .ok (some (.finite false 2 (-1))) := by decide +kernel
  obtain ⟨⟨hmeasure, hone⟩, -⟩ :=
    distances_measure (t := .finite false 6 (-1)) (l := .finite false 85 (-2)) rfl rfl
  refine ⟨h, hmeasure.mono rfl trivial rfl trivial ?_ h' h, hone _ _ rfl ?_ h⟩
  · rw [Decimal.toRat_finite, Decimal.toRat_finite]
    norm_num [Context.signed]
  · rw [Decimal.toRat_finite, Decimal.toRat_finite]
    norm_num [Context.signed]

/-- From a threshold with one digit below the last place of the context, the way to zero is rounded up
and a third longer than the threshold. -/
theorem distanceBelow_subnormal :
    (ltvBelow (.finite false 15 (-1000027))).evaluate (leveraged 10 0) =
      .ok (some (.finite false 1333333333333333333333333333 (-27))) ∧
    ¬∀ x t d, x.IsNonneg → t.isFinite → distanceBelow x t = .ok (some d) → d.toRat ≤ 1 := by
  have hdistance : distanceBelow .zero (.finite false 15 (-1000027)) =
      .ok (some (.finite false 1333333333333333333333333333 (-27))) := by decide +kernel
  refine ⟨by decide +kernel, fun h => ?_⟩
  have hle := h _ _ _ Decimal.isNonneg_zero rfl hdistance
  rw [Decimal.toRat_finite] at hle
  norm_num [Context.signed] at hle

end LoanOrders.Condition
