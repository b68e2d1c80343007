import LoanOrders.Proofs.Decoded
import LoanOrders.Proofs.Distance
import LoanOrders.Proofs.Exchange

/-! The bonus of an execution. It is interpolated between the two rates of an order, which it leaves
only if the order is executed past liquidation, and it is capped so that the withdrawal takes no more
from the deposits than the debt leaves. -/

namespace LoanOrders

namespace Context

variable {c : Context} {q : ℚ}

theorem exists_int_rounded {k : ℤ} (h : 10 ^ k ≤ |q|) :
    ∃ n : ℤ, c.rounded q = n * 10 ^ (k - c.precision + 1) := by
  have hpos : 0 < |q| := (ten_zpow_pos k).trans_le h
  have hlog : k ≤ Int.log 10 |q| := by
    rw [← Int.zpow_le_iff_le_log (by norm_num) hpos]
    exact_mod_cast h
  have hle : k - c.precision + 1 ≤ c.lastPlace q := by
    simp only [lastPlace]
    omega
  refine ⟨nearestEven (q / 10 ^ c.lastPlace q) * 10 ^ (c.lastPlace q - (k - c.precision + 1)).toNat, ?_⟩
  rw [Int.cast_mul, ← ten_zpow_div hle, mul_assoc, div_mul_cancel₀ _ (ten_zpow_pos _).ne', rounded]

/-- A rounded number above a tenth is a multiple of the last place of a number below one. -/
theorem exists_int_of_tenth_lt (h : 1 / 10 < |standard.rounded q|) :
    ∃ n : ℤ, standard.rounded q = n * 10 ^ (-28 : ℤ) := by
  have hlow : (10 : ℚ) ^ (-1 : ℤ) ≤ |q| := by
    by_contra! hlt
    have habs := abs_rounded_le (c := standard) (by decide) hlt.le
    norm_num at habs
    linarith
  exact exists_int_rounded (c := standard) hlow

theorem rounded_one_sub_rounded (hlow : 1 / 10 < standard.rounded q) (hhigh : standard.rounded q < 2) :
    standard.rounded (1 - standard.rounded q) = 1 - standard.rounded q := by
  obtain ⟨n, hn⟩ := exists_int_of_tenth_lt (hlow.trans_le (le_abs_self _))
  have hdiff : 1 - standard.rounded q = ((10 ^ 28 - n : ℤ) : ℚ) * 10 ^ (-28 : ℤ) := by
    rw [hn]
    push_cast
    rw [sub_mul]
    norm_num
  have habs : |10 ^ 28 - n| < 10 ^ standard.precision := by
    have hlt : |((10 ^ 28 - n : ℤ) : ℚ) * 10 ^ (-28 : ℤ)| < 1 := by
      rw [← hdiff, abs_lt]
      constructor <;> linarith
    rw [abs_mul, abs_of_pos (ten_zpow_pos _), zpow_neg, ← div_eq_mul_inv,
      div_lt_one (ten_zpow_pos _)] at hlt
    exact_mod_cast hlt
  have hexact := rounded_eq_self_of_lt (c := standard) habs (by decide : _ ≤ (-28 : ℤ))
  rwa [← hdiff] at hexact

theorem le_abs_one_add_rounded (h : 1 + standard.rounded q ≠ 0) :
    10 ^ (-28 : ℤ) ≤ |1 + standard.rounded q| := by
  rcases le_or_gt |standard.rounded q| (1 / 10) with hsmall | hlarge
  · have hone : (10 : ℚ) ^ (-28 : ℤ) ≤ 10 ^ (-1 : ℤ) := ten_zpow_le (by decide)
    have htriangle := abs_sub_abs_le_abs_sub 1 (-standard.rounded q)
    rw [abs_one, abs_neg, sub_neg_eq_add] at htriangle
    norm_num at hone ⊢
    linarith
  · obtain ⟨n, hn⟩ := exists_int_of_tenth_lt hlarge
    have hsum : 1 + standard.rounded q = ((10 ^ 28 + n : ℤ) : ℚ) * 10 ^ (-28 : ℤ) := by
      rw [hn]
      push_cast
      rw [add_mul]
      norm_num
    have hne : 10 ^ 28 + n ≠ 0 := by
      intro hzero
      rw [hsum, hzero, Int.cast_zero, zero_mul] at h
      exact h rfl
    have hone : (1 : ℚ) ≤ |((10 ^ 28 + n : ℤ) : ℚ)| := by exact_mod_cast Int.one_le_abs hne
    rw [hsum, abs_mul, abs_of_pos (ten_zpow_pos _)]
    exact le_mul_of_one_le_left (ten_zpow_pos _).le hone

end Context

namespace Order

variable {order : Order} {market : Market} {o : Obligation} {e : Execution} {d b x : Decimal}

/-- The bonus rate at a distance from the threshold, before it is capped. -/
def interpolated (order : Order) (distance : Decimal) : Except Signal Decimal := do
  let range ← Context.standard.sub order.maxRate order.minRate
  Context.standard.add order.minRate (← Context.standard.mul distance range)

theorem bonusRate_ok (ho : o.IsSound) (h : order.bonusRate d o = .ok b) :
    ∃ x ltv free, order.interpolated d = .ok x ∧ o.unweightedLtv = .ok ltv ∧
      Context.standard.sub .one ltv = .ok free ∧ x.smaller free = .ok b ∧ ltv.IsNonneg ∧
      ltv.toRat = Context.standard.rounded (o.stats.borrow.toRat / o.stats.deposit.toRat) ∧
      free.isFinite ∧ free.toRat = Context.standard.rounded (1 - ltv.toRat) := by
  simp only [bonusRate, bind_eq_ok] at h
  obtain ⟨range, hrange, scaled, hscaled, x, hx, ltv, hltv, free, hfree, hb⟩ := h
  obtain ⟨hltv₀, hltvval⟩ := Obligation.perDeposit_ok ho.stats ho.stats.borrow hltv
  obtain ⟨hfreefin, hfreeval⟩ := Context.sub_ok rfl hltv₀.1 hfree
  rw [Decimal.toRat_one] at hfreeval
  have hinterpolated : order.interpolated d = .ok x := by
    simp only [interpolated, hrange, hscaled, ok_bind, hx]
  exact ⟨x, ltv, free, hinterpolated, hltv, hfree, hb, hltv₀, hltvval, hfreefin, hfreeval⟩

theorem exists_rounded_of_bonusRate (ho : o.IsSound) (h : order.bonusRate d o = .ok b)
    (hb : b.isFinite) : ∃ q, b.toRat = Context.standard.rounded q := by
  obtain ⟨x, ltv, free, hx, -, -, hsmaller, -, -, -, hfreeval⟩ := bonusRate_ok ho h
  rcases Decimal.smaller_eq_or hsmaller with rfl | rfl
  · obtain ⟨range, -, hx⟩ := bind_eq_ok.mp hx
    obtain ⟨scaled, -, hx⟩ := bind_eq_ok.mp hx
    obtain ⟨hmin, hscaled⟩ := Decimal.isFinite_of_add hx hb
    exact ⟨_, (Context.add_ok hmin hscaled hx).2⟩
  · exact ⟨_, hfreeval⟩

/-- An order for which it makes no difference that the difference of its rates is rounded. -/
structure IsExact (order : Order) : Prop where
  min_nonneg : order.minRate.IsNonneg
  max_finite : order.maxRate.isFinite
  min_le_max : order.minRate.toRat ≤ order.maxRate.toRat
  min_kept : Context.standard.rounded order.minRate.toRat = order.minRate.toRat
  max_kept : Context.standard.rounded order.maxRate.toRat = order.maxRate.toRat
  range_kept : Context.standard.rounded (order.maxRate.toRat - order.minRate.toRat) =
    order.maxRate.toRat - order.minRate.toRat
  threshold : order.condition.threshold.IsNormal

theorem isExact_of_decode {s : SlotState} (hle : s.minBonusBps ≤ s.maxBonusBps)
    (hmax : s.maxBonusBps ≤ Rate.maxBonusBps) (h : decode s = .ok (some order)) : order.IsExact := by
  obtain ⟨-, hthreshold, -, ⟨hminfin, hminval⟩, ⟨hmaxfin, hmaxval⟩⟩ :=
    isDecoded_of_decode (hle.trans hmax) hmax h
  have hwhole {n : Nat} (hn : n ≤ Rate.maxBonusBps) :
      Context.standard.rounded (n / Rate.fullBps) = n / Rate.fullBps := by
    have hdiv : (n : ℚ) / Rate.fullBps = ((n : ℤ) : ℚ) * 10 ^ (-4 : ℤ) := by
      norm_num [Rate.fullBps]
      ring
    have habs : |(n : ℤ)| < 10 ^ Context.standard.precision := by
      have hlt : n < 10 ^ 28 := lt_of_le_of_lt hn (by decide)
      rw [abs_of_nonneg (by omega)]
      exact_mod_cast hlt
    rw [hdiv, Context.rounded_eq_self_of_lt habs (by decide)]
  refine ⟨⟨hminfin, hminval ▸ by positivity⟩, hmaxfin, ?_, hminval ▸ hwhole (hle.trans hmax),
    hmaxval ▸ hwhole hmax, ?_, ?_⟩
  · rw [hminval, hmaxval]
    exact div_le_div_of_nonneg_right (by exact_mod_cast hle) (by positivity)
  · rw [hminval, hmaxval, ← sub_div, ← Nat.cast_sub hle]
    exact hwhole (by omega)
  · obtain ⟨k, -, hk⟩ := hthreshold.places
    rcases Nat.eq_zero_or_pos k with rfl | hpos
    · exact .inl (by rw [hk, Nat.cast_zero, zero_div])
    · refine .inr ?_
      have hone : (1 : ℚ) ≤ k := by exact_mod_cast hpos
      have hplace : (10 : ℚ) ^ Context.minExponent ≤ 10 ^ (-18 : ℤ) := ten_zpow_le (by decide)
      rw [hk, abs_of_nonneg (by positivity), div_eq_mul_inv]
      norm_num at hplace ⊢
      linarith

theorem IsExact.interpolated_ok (horder : order.IsExact) (hd : d.isFinite)
    (h : order.interpolated d = .ok x) : x.isFinite ∧
      x.toRat = Context.standard.rounded (order.minRate.toRat +
        Context.standard.rounded (d.toRat * (order.maxRate.toRat - order.minRate.toRat))) := by
  obtain ⟨range, hrange, h⟩ := bind_eq_ok.mp h
  obtain ⟨scaled, hscaled, h⟩ := bind_eq_ok.mp h
  obtain ⟨hrangefin, hrangeval⟩ := Context.sub_ok horder.max_finite horder.min_nonneg.1 hrange
  obtain ⟨hscaledfin, hscaledval⟩ := Context.mul_ok hd hrangefin hscaled
  obtain ⟨hx, hval⟩ := Context.add_ok horder.min_nonneg.1 hscaledfin h
  rw [hscaledval, hrangeval, horder.range_kept] at hval
  exact ⟨hx, hval⟩

theorem IsExact.interpolated_range (horder : order.IsExact) {past normal : Prop}
    (hd : Condition.IsDistance d past normal) (hnormal : normal) (h : order.interpolated d = .ok x) :
    x.isFinite ∧ order.minRate.toRat ≤ x.toRat ∧ (¬past → x.toRat ≤ order.maxRate.toRat) ∧
      (past → order.maxRate.toRat ≤ x.toRat) := by
  obtain ⟨hx, hval⟩ := horder.interpolated_ok hd.finite h
  set range := order.maxRate.toRat - order.minRate.toRat with hrange
  have hrange₀ : 0 ≤ range := sub_nonneg.mpr horder.min_le_max
  have hmax : order.minRate.toRat + range = order.maxRate.toRat := by
    rw [hrange, add_sub_cancel]
  refine ⟨hx, ?_, fun hpast => ?_, fun hpast => ?_⟩
  · rw [hval]
    calc order.minRate.toRat = Context.standard.rounded order.minRate.toRat := horder.min_kept.symm
      _ ≤ _ := Context.rounded_mono
        (le_add_of_nonneg_right (Context.rounded_nonneg (mul_nonneg hd.nonneg hrange₀)))
  · have hle : Context.standard.rounded (d.toRat * range) ≤ range := by
      calc _ ≤ Context.standard.rounded range := Context.rounded_mono
            (mul_le_of_le_one_left hrange₀ (hd.le_one hnormal hpast))
        _ = range := horder.range_kept
    rw [hval]
    calc _ ≤ Context.standard.rounded order.maxRate.toRat :=
          Context.rounded_mono (by linarith)
      _ = order.maxRate.toRat := horder.max_kept
  · have hle : range ≤ Context.standard.rounded (d.toRat * range) := by
      calc range = Context.standard.rounded range := horder.range_kept.symm
        _ ≤ _ := Context.rounded_mono (le_mul_of_one_le_left hrange₀ (hd.one_le hpast))
    rw [hval]
    calc order.maxRate.toRat = Context.standard.rounded order.maxRate.toRat := horder.max_kept.symm
      _ ≤ _ := Context.rounded_mono (by linarith)

/-- The bonus lies between the smaller rate of an order, or the share that is free of debt if that is
less, and its larger rate. Past liquidation it does not fall below the larger rate, unless it is
capped. -/
theorem bonusRate_within (ho : o.IsSnapshot) (horder : order.IsExact)
    (h : order.execution market o = .ok (some e)) :
    ∃ ltv free, o.unweightedLtv = .ok ltv ∧ Context.standard.sub .one ltv = .ok free ∧
      free.isFinite ∧ e.bonusRate.isFinite ∧
      min order.minRate.toRat free.toRat ≤ e.bonusRate.toRat ∧
      (¬order.condition.IsPastLiquidation o → e.bonusRate.toRat ≤ order.maxRate.toRat) ∧
      (order.condition.IsPastLiquidation o →
        min order.maxRate.toRat free.toRat ≤ e.bonusRate.toRat) := by
  obtain ⟨x, hoffers⟩ := execution_eq_some.mp h
  have hdistance := Condition.evaluate_ok ho.isSound hoffers.distance
  obtain ⟨rate, ltv, free, hrate, hltv, hfree, hsmaller, -, -, hfreefin, -⟩ :=
    bonusRate_ok ho.isSound hoffers.bonus
  obtain ⟨hratefin, hlow, hhigh, hpast⟩ := horder.interpolated_range hdistance horder.threshold hrate
  obtain ⟨hfin, hval⟩ := Decimal.smaller_ok hratefin hfreefin hsmaller
  refine ⟨ltv, free, hltv, hfree, hfreefin, hfin, ?_, fun h => ?_, fun h => ?_⟩
  · rw [hval]
    exact min_le_min_right _ hlow
  · rw [hval]
    exact (min_le_left _ _).trans (hhigh h)
  · rw [hval]
    exact min_le_min_right _ (hpast h)

theorem bonusRate_within_half : ∃ e,
    (stopLossAbove (.finite false 4 (-1))).execution longPosition.market (leveraged 10 500) =
      .ok (some e) ∧ 1 / 200 ≤ e.bonusRate.toRat ∧ e.bonusRate.toRat ≤ 1 / 100 := by
  have hexact := isExact_of_decode (by decide) (by decide) decode_stopLossAbove
  obtain ⟨ltv, free, hltv, hfree, -, -, hlow, hhigh, -⟩ :=
    bonusRate_within isSnapshot_half hexact execution_half
  obtain rfl := Except.ok.inj (hltv.symm.trans unweightedLtv_half)
  have hfree' : Context.standard.sub .one (.finite false 5 (-1)) = .ok (.finite false 5 (-1)) := by
    decide +kernel
  obtain rfl := Except.ok.inj (hfree.symm.trans hfree')
  have hpast : ¬(Condition.ltvAbove (.finite false 4 (-1))).IsPastLiquidation (leveraged 10 500) := by
    rintro ⟨x, l, hx, hl, -, hlt⟩
    have hx' : (leveraged 10 500).loanToValue = .ok (.finite false 5 (-1)) := by decide +kernel
    have hl' : (leveraged 10 500).liquidationLtv = .ok (.finite false 85 (-2)) := by decide +kernel
    obtain rfl := Except.ok.inj (hx.symm.trans hx')
    obtain rfl := Except.ok.inj (hl.symm.trans hl')
    norm_num [Context.signed] at hlt
  refine ⟨_, execution_half, ?_, ?_⟩
  · refine le_trans ?_ hlow
    norm_num [stopLossAbove, Context.signed]
  · refine (hhigh hpast).trans ?_
    norm_num [stopLossAbove, Context.signed]

/-- Past liquidation a bonus of 1.1 percent is more than the larger rate. -/
theorem bonusRate_pastLiquidation :
    Obligation.build longPosition.market (.text "obligation") [solDeposit 10] [usdBorrow 900] none =
      .ok (leveraged 10 900) ∧
    (stopLossAbove (.finite false 6 (-1))).execution longPosition.market (leveraged 10 900) =
      .ok (some ⟨⟨"usdMint", .ofNat 900000000⟩, ⟨"solMint", .ofNat 9099000000⟩,
        .finite false 110 (-4)⟩) ∧
    (stopLossAbove (.finite false 6 (-1))).maxRate.lt (.finite false 110 (-4)) = .ok true :=
  ⟨by decide +kernel, execution_pastLiquidation, by decide +kernel⟩

/-- A withdrawal that is worth more by the free share does not take more than there is. Between a half
and two the free share is exact. Below and above that there is room for it to be rounded. -/
theorem free_mul_ltv_le {q : ℚ} (hq : 0 ≤ q) :
    (1 + Context.standard.rounded (1 - Context.standard.rounded q)) * Context.standard.rounded q ≤
      1 := by
  set x := Context.standard.rounded q with hx
  have hx₀ : 0 ≤ x := Context.rounded_nonneg hq
  have hone : Context.standard.rounded 1 = 1 := Condition.rounded_one
  rcases le_or_gt x (1 / 2) with hsmall | hsmall
  · have hle := Context.rounded_mono (c := .standard) (sub_le_self 1 hx₀)
    rw [hone] at hle
    calc _ ≤ 2 * x := mul_le_mul_of_nonneg_right (by linarith) hx₀
      _ ≤ 1 := by linarith
  · rcases le_or_gt 2 x with hlarge | hlarge
    · have hle := Context.rounded_mono (c := .standard) (show 1 - x ≤ -1 by linarith)
      rw [Context.rounded_neg, hone] at hle
      exact (mul_nonpos_of_nonpos_of_nonneg (by linarith) hx₀).trans zero_le_one
    · rw [hx, Context.rounded_one_sub_rounded (by linarith) hlarge, ← hx]
      linarith [sq_nonneg (1 - x)]

/-- An execution does not raise the loan to value: what is withdrawn for each dollar of debt is at most
what is deposited for it. A bonus that is no number lies below all of them. -/
theorem bonusRate_mul_ltv_le (ho : o.IsSnapshot) (h : order.execution market o = .ok (some e)) :
    ∃ ltv, o.unweightedLtv = .ok ltv ∧ ltv.isFinite ∧ 0 ≤ ltv.toRat ∧
      (e.bonusRate.isFinite → (1 + e.bonusRate.toRat) * ltv.toRat ≤ 1) ∧
      (¬e.bonusRate.isFinite → e.bonusRate = .infinite true) := by
  obtain ⟨x, hoffers⟩ := execution_eq_some.mp h
  obtain ⟨rate, ltv, free, -, hltv, -, hsmaller, ⟨hltvfin, hltv₀⟩, hltvval, hfreefin, hfreeval⟩ :=
    bonusRate_ok ho.isSound hoffers.bonus
  refine ⟨ltv, hltv, hltvfin, hltv₀, ?_, ?_⟩
  · intro hfin
    have hle : e.bonusRate.toRat ≤ free.toRat := by
      rcases Decimal.smaller_le hfreefin hsmaller with ⟨-, hle⟩ | hinfinite
      · exact hle
      · exact absurd hfin (by simp [hinfinite, Decimal.isFinite])
    have hratio : 0 ≤ o.stats.borrow.toRat / o.stats.deposit.toRat :=
      div_nonneg ho.isSound.stats.borrow.2 ho.isSound.stats.deposit.2
    have hfree := free_mul_ltv_le hratio
    rw [← hltvval, ← hfreeval] at hfree
    exact (mul_le_mul_of_nonneg_right (by linarith) hltv₀).trans hfree
  · intro hinfinite
    rcases Decimal.smaller_le hfreefin hsmaller with ⟨hfin, -⟩ | heq
    · exact absurd hfin hinfinite
    · exact heq

/-- With 90 percent borrowed a bonus of 1.1 percent takes 90.99 percent of the deposits. -/
theorem bonusRate_mul_ltv_le_pastLiquidation :
    (stopLossAbove (.finite false 6 (-1))).execution longPosition.market (leveraged 10 900) =
      .ok (some ⟨⟨"usdMint", .ofNat 900000000⟩, ⟨"solMint", .ofNat 9099000000⟩,
        .finite false 110 (-4)⟩) ∧
    ∃ ltv, (leveraged 10 900).unweightedLtv = .ok ltv ∧
      (1 + (Decimal.finite false 110 (-4)).toRat) * ltv.toRat ≤ 1 := by
  have hsnapshot : (leveraged 10 900).IsSnapshot :=
    isSnapshot_leveraged (by decide +kernel) (by decide +kernel) (by decide +kernel)
  obtain ⟨ltv, hltv, -, -, hle, -⟩ := bonusRate_mul_ltv_le hsnapshot execution_pastLiquidation
  exact ⟨execution_pastLiquidation, ltv, hltv, hle rfl⟩

end Order

end LoanOrders
