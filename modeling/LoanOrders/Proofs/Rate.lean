import LoanOrders.Family.Basic
import LoanOrders.Proofs.Comparison
import LoanOrders.Proofs.Outcome
import LoanOrders.Proofs.Places

/-! Rates and bonus ranges. A bonus is stored in whole basis points; those of a range with few enough
digits are the given ones rounded, although they pass through a rate on the way. -/

namespace LoanOrders

namespace Decimal

variable {x y z : Decimal}

theorem isFinite_of_div {c : Context} (hy : y.isFinite) (h : c.div x y = .ok z) (hz : z.isFinite) :
    x.isFinite := by
  obtain ⟨t, n, f, rfl⟩ := exists_of_isFinite hy
  cases x with
  | finite => rfl
  | infinite s =>
    obtain rfl : .infinite (s != t) = z := by simpa [Context.div] using h
    exact absurd hz (by simp [isFinite])
  | nan s signaling p =>
    cases signaling with
    | false =>
      obtain rfl : c.quietNaN s p = z := by simpa [Context.div, Context.nanResult, isSignaling] using h
      exact absurd hz (by simp [isFinite, Context.quietNaN])
    | true => simp [Context.div, Context.nanResult, isSignaling] at h

end Decimal

namespace Rate

variable {x y : Decimal} {q : ℚ}

theorem ofBps_ok (hx : x.isFinite) (h : ofBps x = .ok y) :
    y.isFinite ∧ y.toRat = Context.standard.rounded (x.toRat / fullBps) := by
  obtain ⟨-, hy, hval⟩ := Context.div_ok hx (Decimal.isFinite_ofNat _) h
  exact ⟨hy, by rw [hval, Decimal.toRat_ofNat]⟩

theorem toBps_ok (hx : x.isFinite) (h : toBps x = .ok y) :
    y.isFinite ∧ y.toRat = Context.standard.rounded (x.toRat * fullBps) := by
  obtain ⟨hy, hval⟩ := Context.mul_ok hx (Decimal.isFinite_ofNat _) h
  exact ⟨hy, by rw [hval, Decimal.toRat_ofNat]⟩

/-- The number of whole basis points that a rate is stored as. -/
def wholeBps (rate : ℚ) : ℤ := round (Context.standard.rounded (rate * fullBps))

theorem wholeBps_nonneg (h : 0 ≤ q) : 0 ≤ wholeBps q := by
  have hbps : 0 ≤ Context.standard.rounded (q * fullBps) :=
    Context.rounded_nonneg (mul_nonneg h (Nat.cast_nonneg _))
  rw [wholeBps, round_eq, Int.floor_nonneg]
  linarith

theorem wholeBps_mono {p : ℚ} (h : p ≤ q) : wholeBps p ≤ wholeBps q := by
  have hbps : Context.standard.rounded (p * fullBps) ≤ Context.standard.rounded (q * fullBps) :=
    Context.rounded_mono (mul_le_mul_of_nonneg_right h (Nat.cast_nonneg _))
  rw [wholeBps, wholeBps, round_eq, round_eq]
  exact Int.floor_le_floor (by linarith)

theorem lt_of_wholeBps_le (h : wholeBps q ≤ maxBonusBps) : q * fullBps < 10 ^ (6 : ℤ) := by
  apply Context.lt_ten_zpow_of_rounded (c := Context.standard) (by decide)
  rw [wholeBps, round_eq, Int.floor_le_iff] at h
  norm_num [maxBonusBps] at h ⊢
  linarith

/-- Basis points that become a rate and then basis points again come back, unless there are too many
digits of them or hardly any value. -/
theorem wholeBps_rounded (hq : FitsDigits 28 q) :
    wholeBps (Context.standard.rounded (q / fullBps)) = round q := by
  have hfull : (fullBps : ℚ) = 10 ^ (4 : ℤ) := by norm_num [fullBps]
  obtain ⟨m, e, hm, rfl⟩ := hq
  have hdiv : (m : ℚ) * 10 ^ e / fullBps = m * 10 ^ (e - 4) := by
    rw [hfull, mul_div_assoc, zpow_sub₀ (by norm_num)]
  have hmul : (m : ℚ) * 10 ^ (e - 4) * fullBps = m * 10 ^ e := by
    rw [← hdiv, div_mul_cancel₀ _ (by norm_num [fullBps])]
  rw [wholeBps, hdiv]
  by_cases hsize : 10 ^ Context.minExponent ≤ |(m : ℚ) * 10 ^ (e - 4)|
  · have hsize' : 10 ^ Context.minExponent ≤ |(m : ℚ) * 10 ^ e| := by
      have hone : (1 : ℚ) ≤ |(fullBps : ℚ)| := by norm_num [fullBps]
      rw [← hmul, abs_mul]
      exact hsize.trans (le_mul_of_one_le_right (abs_nonneg _) hone)
    rw [Context.rounded_eq_self_of_fits (c := Context.standard) ⟨m, e - 4, hm, rfl⟩ hsize, hmul,
      Context.rounded_eq_self_of_fits (c := Context.standard) ⟨m, e, hm, rfl⟩ hsize']
  · -- Both sides are zero.
    have hsmall : |(m : ℚ) * 10 ^ (e - 4)| ≤ 10 ^ (-5 : ℤ) :=
      (not_le.mp hsize).le.trans (ten_zpow_le (by decide))
    have hfive := Context.abs_rounded_le (c := Context.standard) (by decide) hsmall
    have hone : |Context.standard.rounded (m * 10 ^ (e - 4)) * fullBps| ≤ 10 ^ (-1 : ℤ) := by
      rw [abs_mul]
      norm_num [fullBps] at hfive ⊢
      linarith
    have hone' := Context.abs_rounded_le (c := Context.standard) (by decide) hone
    have hzero {r : ℚ} (hr : |r| ≤ 10 ^ (-1 : ℤ)) : round r = 0 := by
      rw [round_eq_zero_iff, Set.mem_Ico]
      rw [abs_le] at hr
      norm_num at hr ⊢
      constructor <;> linarith
    rw [hzero hone', hzero]
    rw [← hmul, abs_mul]
    norm_num [fullBps] at hsmall ⊢
    linarith

theorem exists_toBps (hx : x.isFinite) (h₀ : 0 ≤ x.toRat) (h : x.toRat * fullBps < 10 ^ (6 : ℤ)) :
    ∃ y, toBps x = .ok y := by
  apply Context.exists_mul hx (Decimal.isFinite_ofNat _)
  rw [Decimal.toRat_ofNat, abs_of_nonneg (mul_nonneg h₀ (Nat.cast_nonneg _))]
  exact h.trans_le (ten_zpow_le (by decide))

/-- Rounding the basis points of a rate to whole ones cannot fail. -/
theorem exists_roundNearest (hx : x.isFinite) (h₀ : 0 ≤ x.toRat) (hy : toBps x = .ok y) :
    ∃ bps, FixedPoint.roundNearest y = .ok bps ∧ bps.isFinite ∧ bps.toRat = wholeBps x.toRat := by
  obtain ⟨hfin, hval⟩ := toBps_ok hx hy
  have hnonneg : 0 ≤ y.toRat := by
    rw [hval]
    exact Context.rounded_nonneg (mul_nonneg h₀ (Nat.cast_nonneg _))
  rw [wholeBps, ← hval]
  exact Context.toIntegral_away Context.wide hfin hnonneg

theorem rounded_bps {n : Nat} (hn : n ≤ maxBonusBps) {k : ℤ}
    (hk : Context.standard.lowestPlace ≤ k) :
    Context.standard.rounded (n * 10 ^ k) = n * 10 ^ k := by
  have habs : |(n : ℤ)| < 10 ^ Context.standard.precision := by
    have hbound : (n : ℤ) < 10 ^ 5 := by
      have := Nat.lt_of_le_of_lt hn (by decide : maxBonusBps < 10 ^ 5)
      exact_mod_cast this
    rw [abs_of_nonneg (by omega)]
    exact hbound.trans (by decide)
  exact_mod_cast Context.rounded_eq_self_of_lt habs hk

theorem rounded_whole {n : Nat} (hn : n ≤ maxBonusBps) : Context.standard.rounded n = n := by
  have hself := rounded_bps hn (k := 0) (by decide)
  rwa [zpow_zero, mul_one] at hself

theorem wholeBps_eq {n : Nat} (hn : n ≤ maxBonusBps) : wholeBps (n / fullBps) = n := by
  rw [wholeBps, div_mul_cancel₀ _ (by norm_num [fullBps]), rounded_whole hn, round_natCast]

theorem ofBps_whole {n : Nat} (hn : n ≤ maxBonusBps) (hx : x.isFinite) (hval : x.toRat = n)
    (h : ofBps x = .ok y) : y.isFinite ∧ y.toRat = n / fullBps := by
  obtain ⟨hy, hyval⟩ := ofBps_ok hx h
  have hdiv : (n : ℚ) / fullBps = n * 10 ^ (-4 : ℤ) := by
    rw [zpow_neg, div_eq_mul_inv]
    norm_num [fullBps]
  exact ⟨hy, by rw [hyval, hval, hdiv, rounded_bps hn (by decide)]⟩

theorem toBps_whole {n : Nat} (hn : n ≤ maxBonusBps) (hx : x.isFinite) (hval : x.toRat = n / fullBps)
    (h : toBps x = .ok y) : y.isFinite ∧ y.toRat = n := by
  obtain ⟨hy, hyval⟩ := toBps_ok hx h
  exact ⟨hy, by rw [hyval, hval, div_mul_cancel₀ _ (by norm_num [fullBps]), rounded_whole hn]⟩

theorem exists_ofBps {n : Nat} (hn : n ≤ maxBonusBps) :
    ∃ x y, ofBps (.ofNat n) = .ok x ∧ x.isFinite ∧ x.toRat = n / fullBps ∧
      toBps x = .ok y ∧ y.isFinite ∧ y.toRat = n := by
  have hsize : (n : ℚ) < 10 ^ (6 : ℤ) := by
    have : (n : ℚ) ≤ maxBonusBps := by exact_mod_cast hn
    norm_num [maxBonusBps] at this ⊢
    linarith
  have hquot : |(Decimal.ofNat n).toRat / (Decimal.ofNat fullBps).toRat| < 10 ^ Context.maxExponent := by
    rw [Decimal.toRat_ofNat, Decimal.toRat_ofNat, abs_of_nonneg (by positivity)]
    refine lt_of_le_of_lt (div_le_self n.cast_nonneg (by norm_num [fullBps])) ?_
    exact hsize.trans_le (ten_zpow_le (by decide))
  have hne : (Decimal.ofNat fullBps).toRat ≠ 0 := by
    rw [Decimal.toRat_ofNat]
    norm_num [fullBps]
  obtain ⟨x, hx⟩ := Context.exists_div (c := Context.standard) (Decimal.isFinite_ofNat n)
    (Decimal.isFinite_ofNat fullBps) hne hquot
  obtain ⟨hxfin, hxval⟩ := ofBps_whole hn (Decimal.isFinite_ofNat n) (Decimal.toRat_ofNat n) hx
  have hback : x.toRat * fullBps = n := by
    rw [hxval, div_mul_cancel₀ _ (by norm_num [fullBps])]
  have hnonneg : 0 ≤ x.toRat := hxval ▸ div_nonneg n.cast_nonneg (Nat.cast_nonneg _)
  obtain ⟨y, hy⟩ := exists_toBps hxfin hnonneg (by rwa [hback])
  obtain ⟨hyfin, hyval⟩ := toBps_whole hn hxfin hxval hy
  exact ⟨x, y, hx, hxfin, hxval, hy, hyfin, hyval⟩

/-- A whole bonus that gives a rate within the limits has few digits. -/
theorem fitsDigits_of_whole (h₀ : 0 ≤ Context.standard.rounded (q / fullBps))
    (h : Context.standard.rounded (q / fullBps) * fullBps < 10 ^ (6 : ℤ)) (hq : FitsPlaces 0 q) :
    FitsDigits 28 q := by
  obtain ⟨k, hk⟩ := hq
  obtain rfl : q = k := by rwa [pow_zero, mul_one] at hk
  have hhigh : (k : ℚ) / fullBps < 10 ^ (2 : ℤ) := by
    apply Context.lt_ten_zpow_of_rounded (c := Context.standard) (by decide)
    norm_num [fullBps] at h ⊢
    linarith
  have hlow : -1 < (k : ℚ) := by
    by_contra hneg
    have hle : (k : ℚ) / fullBps ≤ -(10 ^ (-4 : ℤ)) := by
      norm_num [fullBps] at hneg ⊢
      linarith
    have hmono := Context.rounded_mono (c := Context.standard) hle
    rw [Context.rounded_neg, Context.rounded_ten_zpow (by decide)] at hmono
    have := ten_zpow_pos (-4)
    linarith
  refine ⟨k, 0, ?_, by rw [zpow_zero, mul_one]⟩
  have hhigh' : (k : ℚ) < 10 ^ 6 := by
    norm_num [fullBps] at hhigh ⊢
    linarith
  have h₁ : k < 10 ^ 6 := by exact_mod_cast hhigh'
  have h₂ : -1 < k := by exact_mod_cast hlow
  rw [abs_lt]
  omega

/-- The bonus in basis points that is read back for a given one. -/
def BonusKept (given read : ℚ) : Prop :=
  (FitsDigits 28 given → read = round given) ∧ (FitsPlaces 0 given → read = given)

theorem bonusKept_of_wholeBps (hx : x.isFinite) (hy : ofBps x = .ok y) (h₀ : 0 ≤ y.toRat)
    (h : y.toRat * fullBps < 10 ^ (6 : ℤ)) : BonusKept x.toRat (wholeBps y.toRat) := by
  obtain ⟨-, hval⟩ := ofBps_ok hx hy
  rw [hval] at h₀ h ⊢
  refine ⟨fun hdigits => by rw [wholeBps_rounded hdigits], fun hwhole => ?_⟩
  rw [wholeBps_rounded (fitsDigits_of_whole h₀ h hwhole)]
  obtain ⟨k, hk⟩ := hwhole
  rw [pow_zero, mul_one] at hk
  rw [hk, round_intCast]

/-- The rates that a slot has room for. -/
structure IsBonusRange (low high : Decimal) : Prop where
  low_finite : low.isFinite
  high_finite : high.isFinite
  low_nonneg : 0 ≤ low.toRat
  low_le_high : low.toRat ≤ high.toRat
  high_le : wholeBps high.toRat ≤ maxBonusBps

theorem isFinite_of_bonusRange {low high p bps limit : Decimal} (hlimit : limit.isFinite)
    (hlow : low.ge .zero = .ok true) (hhigh : high.ge low = .ok true) (hp : toBps high = .ok p)
    (hbps : FixedPoint.roundNearest p = .ok bps) (hle : bps.le limit = .ok true) :
    low.isFinite ∧ high.isFinite := by
  obtain ⟨t, n, f, rfl⟩ := Decimal.exists_of_isFinite hlimit
  cases high with
  | finite s m e =>
    refine ⟨?_, rfl⟩
    cases low with
    | finite => rfl
    | nan => simp [Decimal.ge, Decimal.ordered, Decimal.compare?] at hlow
    | infinite u =>
      cases u <;>
        simp [Decimal.ge, Decimal.ordered, Decimal.compare?, Decimal.zero, Decimal.ofNat] at hlow hhigh
  | nan => simp [Decimal.ge, Decimal.ordered, Decimal.compare?] at hhigh
  | infinite s =>
    have hinf : bps = .infinite s := by
      obtain rfl : .infinite (s != false) = p := by
        simpa [toBps, Context.mul, Decimal.ofNat, fullBps] using hp
      simpa [FixedPoint.roundNearest, Context.toIntegral] using hbps.symm
    subst hinf
    cases s with
    | false => simp [Decimal.le, Decimal.ordered, Decimal.compare?] at hle
    | true =>
      -- A negative infinity is not above a rate that is not negative.
      cases low with
      | finite => simp [Decimal.ge, Decimal.ordered, Decimal.compare?] at hhigh
      | nan => simp [Decimal.ge, Decimal.ordered, Decimal.compare?] at hlow
      | infinite u =>
        cases u <;>
          simp [Decimal.ge, Decimal.ordered, Decimal.compare?, Decimal.zero, Decimal.ofNat] at hlow hhigh

theorem ofBonusRange_ok {min max : Given} {low high : Decimal}
    (h : ofBonusRange min max = .ok (low, high)) :
    ∃ x y, min.read = .ok x ∧ max.read = .ok y ∧ x.isFinite ∧ y.isFinite ∧
      ofBps x = .ok low ∧ ofBps y = .ok high ∧ IsBonusRange low high := by
  simp only [ofBonusRange, bind_eq_ok, liftM_eq_ok, check_eq_ok, pure_eq_ok, Except.ok.injEq,
    Prod.mk.injEq] at h
  obtain ⟨x, hx, low', hlow, y, hy, high', hhigh, b₁, hb₁, -, rfl, b₂, hb₂, -, rfl, p, hp, bps, hbps,
    b₃, hb₃, -, rfl, rfl, rfl⟩ := h
  obtain ⟨hlowfin, hhighfin⟩ :=
    isFinite_of_bonusRange (Decimal.isFinite_ofNat _) hb₁ hb₂ hp hbps hb₃
  have hnonneg : 0 ≤ low'.toRat := by
    rw [Decimal.ge_zero hlowfin] at hb₁
    simpa using hb₁
  have hle : low'.toRat ≤ high'.toRat := by
    rw [Decimal.ge_eq hhighfin hlowfin] at hb₂
    simpa using hb₂
  obtain ⟨bps', hbps', hbpsfin, hbpsval⟩ := exists_roundNearest hhighfin (hnonneg.trans hle) hp
  obtain rfl : bps' = bps := Except.ok.inj (hbps'.symm.trans hbps)
  have hlimit : wholeBps high'.toRat ≤ maxBonusBps := by
    rw [Decimal.le_eq hbpsfin (Decimal.isFinite_ofNat _), hbpsval, Decimal.toRat_ofNat,
      Except.ok.injEq, decide_eq_true_eq] at hb₃
    exact_mod_cast hb₃
  exact ⟨x, y, hx, hy, Decimal.isFinite_of_div rfl hlow hlowfin,
    Decimal.isFinite_of_div rfl hhigh hhighfin, hlow, hhigh, hlowfin, hhighfin, hnonneg, hle, hlimit⟩

/-- The rates of whole basis points that are displayed, and made into rates again. -/
theorem toBonusRange_ok {low high min max : Decimal} {m n : Nat}
    (hm : m ≤ maxBonusBps) (hn : n ≤ maxBonusBps)
    (hlow : low.isFinite ∧ low.toRat = m / fullBps) (hhigh : high.isFinite ∧ high.toRat = n / fullBps)
    (h : toBonusRange low high = .ok (min, max)) : min.isFinite ∧ max.isFinite ∧
      ∀ low' high', ofBonusRange min max = .ok (low', high') →
        (low'.isFinite ∧ low'.toRat = m / fullBps) ∧ high'.isFinite ∧ high'.toRat = n / fullBps := by
  simp only [toBonusRange, Given.read, bind_eq_ok, pure_eq_ok, Except.ok.injEq, Prod.mk.injEq,
    exists_eq_left'] at h
  obtain ⟨min', hmin, max', hmax, rfl, rfl⟩ := h
  obtain ⟨hminFin, hminVal⟩ := toBps_whole hm hlow.1 hlow.2 hmin
  obtain ⟨hmaxFin, hmaxVal⟩ := toBps_whole hn hhigh.1 hhigh.2 hmax
  refine ⟨hminFin, hmaxFin, fun low' high' hback => ?_⟩
  obtain ⟨x, y, hx, hy, -, -, hlow', hhigh', -⟩ := ofBonusRange_ok hback
  obtain rfl := Except.ok.inj hx
  obtain rfl := Except.ok.inj hy
  exact ⟨ofBps_whole hm hminFin hminVal hlow', ofBps_whole hn hmaxFin hmaxVal hhigh'⟩

end Rate

end LoanOrders
