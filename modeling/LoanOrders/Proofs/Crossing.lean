import LoanOrders.Proofs.Distance
import LoanOrders.Proofs.Inactive
import LoanOrders.Proofs.PriceRoundTrip

/-! On which side of its price a trigger fires. A condition compares two rounded quotients, or one with
a price that is stored as it is. Rounding keeps their order, so a condition that holds has its price
crossed; two quotients that are far enough apart stay apart. -/

namespace LoanOrders

namespace Context

/-- Numbers that differ by more than the roundings are rounded to different ones. -/
theorem rounded_lt_rounded {p q : ℚ} (hq : 10 ^ (-20 : ℤ) ≤ q) (h : p * (1 + 1 / 10 ^ 26) < q) :
    standard.rounded p < standard.rounded q := by
  have hqlow := (abs_le.mp (Rate.abs_standard_rounded_sub_le ((ten_zpow_le (by decide)).trans hq))).1
  -- The error is relative to a number that is not too small; smaller ones are far from `q`.
  rcases le_or_gt (10 ^ (-30 : ℤ)) p with hp | hp
  · have hphigh := (abs_le.mp (Rate.abs_standard_rounded_sub_le hp)).2
    have hpos : 0 < p := (ten_zpow_pos _).trans_le hp
    linarith
  · have hmono := rounded_mono (c := standard) hp.le
    rw [rounded_ten_zpow (by decide)] at hmono
    norm_num at hq hmono
    linarith

end Context

/-- The number that a condition compares the ratio of a position with, for a trigger at a price. -/
def PositionType.ratio : PositionType → ℚ → ℚ
  | long, p => 1 / p
  | short, p => p

/-- A ratio lies past that of an order, by more than a margin. -/
def OrderType.IsPast (margin q r : ℚ) : OrderType → Prop
  | stopLoss => q * margin < r
  | takeProfit => r * margin < q

/-- The prices `c` of the collateral and `d` of the debt lie past the price `p` of a trigger, by more
than a margin. -/
def PriceTriggerType.IsPast (margin p c d : ℚ) : PriceTriggerType → Prop
  | longStopLoss => c * margin < p * d
  | longTakeProfit => p * d * margin < c
  | shortStopLoss => p * c * margin < d
  | shortTakeProfit => d * margin < p * c

namespace OrderType

theorem current_priceCondition (type : OrderType) (t : Decimal) (o : Obligation) :
    (type.priceCondition t).current o = o.priceRatio := by
  cases type <;> rfl

theorem not_isClear_priceCondition (type : OrderType) (t : Decimal) (q r : ℚ) :
    ¬(type.priceCondition t).IsClear q r ↔ type.IsPast 1 q r := by
  cases type <;> rw [IsPast, mul_one] <;> exact not_le

variable {type : OrderType} {q r : ℚ}

theorem isPast_of_rounded
    (h : type.IsPast 1 (Context.standard.rounded q) (Context.standard.rounded r)) :
    type.IsPast 1 q r := by
  cases type <;> simp only [IsPast, mul_one] at h ⊢ <;> contrapose! h <;> exact Context.rounded_mono h

theorem isPast_rounded (hq : 10 ^ (-20 : ℤ) ≤ q) (h : type.IsPast (1 + 1 / 10 ^ 26) q r) :
    type.IsPast 1 (Context.standard.rounded q) (Context.standard.rounded r) := by
  cases type with
  | stopLoss =>
    have hle : q ≤ q * (1 + 1 / 10 ^ 26) :=
      le_mul_of_one_le_right ((ten_zpow_pos _).le.trans hq) (by norm_num)
    rw [IsPast, mul_one]
    exact Context.rounded_lt_rounded (hq.trans (hle.trans h.le)) h
  | takeProfit =>
    rw [IsPast, mul_one]
    exact Context.rounded_lt_rounded hq h

end OrderType

theorem OrderType.isPast_priceTrigger {margin p c d : ℚ} (hp : 0 < p) (hc : 0 < c)
    (type : OrderType) (position : PositionType) :
    (type.priceTrigger position).IsPast margin p c d ↔
      type.IsPast margin (position.ratio p) (d / c) := by
  cases position <;> cases type <;>
    simp only [priceTrigger, PriceTriggerType.IsPast, IsPast, PositionType.ratio]
  · rw [one_div_mul_eq_div, div_lt_div_iff₀ hp hc, mul_comm c, mul_comm p]
  · rw [div_mul_eq_mul_div, div_lt_div_iff₀ hc hp, one_mul, mul_rotate p]
  · rw [lt_div_iff₀ hc, mul_right_comm]
  · rw [div_mul_eq_mul_div, div_lt_iff₀ hc]

namespace PriceFamily

variable {position : PositionType} {type : OrderType} {x t : Decimal}

theorem threshold_eq (hconvert : convert position x = .ok t)
    (hstorable : ∃ n, FixedPoint.encode t = .ok n ∧ 0 < n)
    (hdigits : position = .short → FitsDigits 28 x.toRat) :
    t.isFinite ∧ t.toRat = Context.standard.rounded (position.ratio x.toRat) ∧
      10 ^ (-20 : ℤ) ≤ position.ratio x.toRat ∧ 0 < x.toRat := by
  obtain ⟨n, hn, hpos⟩ := hstorable
  have hfin := FixedPoint.isFinite_of_encode hn
  have hlow : 10 ^ (-20 : ℤ) < t.toRat := by
    obtain ⟨hlow, -⟩ := FixedPoint.exists_encode_iff.mp ⟨n, hn, hpos⟩
    norm_num at hlow ⊢
    linarith
  cases position with
  | short =>
    obtain rfl : x = t := Except.ok.inj hconvert
    have hx : 0 < x.toRat := (ten_zpow_pos _).trans hlow
    refine ⟨hfin, ?_, hlow.le, hx⟩
    rw [PositionType.ratio, Context.rounded_eq_self_of_fits (c := Context.standard) (hdigits rfl)]
    rw [abs_of_pos hx]
    exact (ten_zpow_le (by decide)).trans hlow.le
  | long =>
    obtain ⟨-, hval⟩ := inverse_ok hconvert hfin ((ten_zpow_pos _).trans hlow).ne'
    have hratio : 10 ^ (-20 : ℤ) < 1 / x.toRat := by
      by_contra hsmall
      have hmono := Context.rounded_mono (c := Context.standard) (not_lt.mp hsmall)
      rw [Context.rounded_ten_zpow (by decide), ← hval] at hmono
      exact absurd hlow (not_lt.mpr hmono)
    exact ⟨hfin, hval, hratio.le, one_div_pos.mp ((ten_zpow_pos _).trans hratio)⟩

end PriceFamily

namespace PriceFamily

variable {position : PositionType} {type : OrderType} {trigger : PriceTriggerType}
  {p c d t : Decimal} {cond : Condition} {o : Obligation} {deposit borrow : Position}
  {hit : Option Decimal}

/-- A price trigger fires only if the exact prices lie past its own, and it does if they are further
past it than roundings can hide. -/
theorem hit_of_price
    (hcond : toCondition position type (.price (.make trigger p)) = .ok cond)
    (hstorable : cond.checkStorable = .ok ())
    (hdigits : trigger.position = .short → FitsDigits 28 p.toRat)
    (hdeposit : o.depositList = [deposit]) (hborrow : o.borrowList = [borrow])
    (hc : deposit.tokenPrice = .ok c) (hd : borrow.tokenPrice = .ok d)
    (hcpos : 0 < c.toRat) (hdpos : 0 < d.toRat) (hhit : cond.evaluate o = .ok hit) :
    (hit ≠ none → trigger.IsPast 1 p.toRat c.toRat d.toRat) ∧
      (trigger.IsPast (1 + 1 / 10 ^ 26) p.toRat c.toRat d.toRat → hit ≠ none) := by
  obtain ⟨x, t, htrigger, hconvert, rfl⟩ := toCondition_eq_ok.mp hcond
  obtain rfl : trigger = type.priceTrigger position := by
    simpa using congrArg PriceTrigger.type (Trigger.price.inj htrigger)
  obtain rfl : p = x := by simpa using congrArg PriceTrigger.price (Trigger.price.inj htrigger)
  rw [type.position_priceTrigger] at hdigits
  have hthreshold := Condition.checkStorable_ok hstorable
  rw [type.threshold_priceCondition] at hthreshold
  obtain ⟨ht, htval, hlow, hppos⟩ := threshold_eq hconvert hthreshold hdigits
  obtain ⟨id, -, hid⟩ := type.typeId?_priceCondition t
  obtain ⟨r, hr, hclear⟩ :=
    Condition.isClear_of_evaluate hid (by rwa [type.threshold_priceCondition]) hhit
  rw [type.current_priceCondition] at hr
  obtain ⟨hrfin, hrval⟩ := Obligation.priceRatio_ok hdeposit hborrow hc hd
    (Decimal.isFinite_of_toRat_ne hcpos.ne') (Decimal.isFinite_of_toRat_ne hdpos.ne') hr
  rw [ne_eq, hclear hrfin, type.threshold_priceCondition, type.not_isClear_priceCondition, htval, hrval,
    OrderType.isPast_priceTrigger hppos hcpos, OrderType.isPast_priceTrigger hppos hcpos]
  exact ⟨OrderType.isPast_of_rounded, OrderType.isPast_rounded hlow⟩

/-- At 100 dollars a stop-loss below 125 dollars fires. -/
theorem hit_of_price_longStopLoss : ∃ hit,
    (Condition.priceRatioAbove (.finite false 8 (-3))).evaluate longPosition.obligation = .ok hit ∧
    hit ≠ none := by
  have hcond : toCondition .long .stopLoss (.price (.make .longStopLoss (.ofNat 125))) =
      .ok (.priceRatioAbove (.finite false 8 (-3))) := rfl
  have hdeposit : longPosition.obligation.depositList =
      [⟨"sol", "solMint", .ofNat (10 ^ 9), .ofNat (10 ^ 10), .ofNat 1000⟩] := rfl
  have hborrow : longPosition.obligation.borrowList =
      [⟨"usd", "usdMint", .ofNat (10 ^ 6), .ofNat (5 * 10 ^ 8), .ofNat 500⟩] := rfl
  have hc : (⟨"sol", "solMint", .ofNat (10 ^ 9), .ofNat (10 ^ 10), .ofNat 1000⟩ : Position).tokenPrice =
      .ok (.ofNat 100) := rfl
  have hd : (⟨"usd", "usdMint", .ofNat (10 ^ 6), .ofNat (5 * 10 ^ 8), .ofNat 500⟩ : Position).tokenPrice =
      .ok .one := rfl
  have hhit : (Condition.priceRatioAbove (.finite false 8 (-3))).evaluate longPosition.obligation =
      .ok (some (.finite false 2222222222222222222222222222 (-28))) := rfl
  obtain ⟨-, hfires⟩ := hit_of_price hcond rfl (by simp [PriceTriggerType.position]) hdeposit hborrow hc
    hd (by norm_num) (by norm_num) hhit
  exact ⟨_, hhit, hfires (by norm_num [PriceTriggerType.IsPast])⟩

end PriceFamily

end LoanOrders
