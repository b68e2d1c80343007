import LoanOrders.Proofs.LtvRoundTrip
import LoanOrders.Proofs.PriceRoundTrip
import LoanOrders.Proofs.Restored

/-! An order that is displayed and saved again as it is displayed. What a trigger loses of the
threshold is less than a slot tells apart, for thresholds that are not too large, so that the order
stays the same however often this is done. -/

namespace LoanOrders

variable {Profile : Type} {family : Family Profile} {context : OrderContext} {typeName : String}
  {type : OrderType} {o : Order} {u : SlotUpdate}

/-- A family whose triggers, when read from a condition, give it back up to a part of its threshold
that a slot does not keep. -/
def Family.IsFaithful (family : Family Profile) : Prop :=
  ∀ profile type c trigger, FixedPoint.IsSlotNumber c.threshold → c.threshold.toRat ≤ 10 ^ 7 →
    family.toTrigger profile type c = .ok trigger →
    Specification.readTrigger family.kind trigger.toData = .valid trigger ∧
      ∀ d, family.toCondition profile type trigger = .ok d →
        ∃ y, d = c.withThreshold y ∧ |y.toRat - c.threshold.toRat| ≤ 2 / 10 ^ 20

namespace LtvFamily

variable {c : Condition} {trigger : Trigger} {t z y : Decimal}

theorem toTrigger_ok (h : toTrigger type c = .ok trigger) (hc : c.threshold.isFinite) :
    ∃ type' z, trigger = .ltv (.make type' z) ∧ Rate.toPercent c.threshold = .ok z ∧ z.isFinite ∧
      ∀ d, toCondition type trigger = .ok d →
        ∃ y, d = c.withThreshold y ∧ Rate.ofPercent z = .ok y := by
  unfold toTrigger at h
  split at h
  · obtain ⟨z, hz, h⟩ := bind_eq_ok.mp h
    have hz := liftM_eq_ok.mp hz
    obtain ⟨hfin, -⟩ := Context.mul_ok hc (Decimal.isFinite_ofNat _) hz
    rw [LtvTrigger.ofPercent_eq hfin] at h
    obtain rfl : .ltv (.stopLoss z) = trigger := Except.ok.inj h
    refine ⟨.stopLoss, z, rfl, hz, hfin, fun d hd => ?_⟩
    obtain ⟨y, hy, hd⟩ := bind_eq_ok.mp hd
    exact ⟨y, (Except.ok.inj hd).symm, liftM_eq_ok.mp hy⟩
  · obtain ⟨z, hz, h⟩ := bind_eq_ok.mp h
    have hz := liftM_eq_ok.mp hz
    obtain ⟨hfin, -⟩ := Context.mul_ok hc (Decimal.isFinite_ofNat _) hz
    rw [LtvTrigger.ofPercent_eq hfin] at h
    obtain rfl : .ltv (.takeProfit z) = trigger := Except.ok.inj h
    refine ⟨.takeProfit, z, rfl, hz, hfin, fun d hd => ?_⟩
    obtain ⟨y, hy, hd⟩ := bind_eq_ok.mp hd
    exact ⟨y, (Except.ok.inj hd).symm, liftM_eq_ok.mp hy⟩
  · simp at h

/-- A threshold has few enough digits for its percentage to be exact. -/
theorem toRat_ofPercent_toPercent (ht : FixedPoint.IsSlotNumber t) (hle : t.toRat ≤ 10 ^ 7)
    (hz : Rate.toPercent t = .ok z) (hy : Rate.ofPercent z = .ok y) : y.toRat = t.toRat := by
  obtain ⟨k, -, hk⟩ := ht.places
  have hhundred : (Decimal.ofNat Rate.fullPercent).toRat = 100 := by
    rw [Decimal.toRat_ofNat]
    rfl
  obtain ⟨hzfin, hzval⟩ := Context.mul_ok ht.finite (Decimal.isFinite_ofNat _) hz
  obtain ⟨-, -, hyval⟩ := Context.div_ok hzfin (Decimal.isFinite_ofNat _) hy
  rw [hhundred] at hzval hyval
  have hsize : |(k : ℤ)| < 10 ^ Context.standard.precision := by
    have hk' : (k : ℚ) ≤ 10 ^ 25 := by
      rw [hk, div_le_iff₀ (by positivity)] at hle
      norm_num at hle ⊢
      exact hle
    have hk'' : k ≤ 10 ^ 25 := by exact_mod_cast hk'
    have hprecision : Context.standard.precision = 28 := rfl
    rw [hprecision, abs_of_nonneg (by omega)]
    omega
  have hself (e : ℤ) (he : Context.standard.lowestPlace ≤ e) :
      Context.standard.rounded (k * 10 ^ e) = k * 10 ^ e := by
    exact_mod_cast Context.rounded_eq_self_of_lt hsize he
  have hpercent : t.toRat * 100 = k * 10 ^ (-16 : ℤ) := by
    rw [hk]
    norm_num
    ring
  have hrate : (k : ℚ) * 10 ^ (-16 : ℤ) / 100 = k * 10 ^ (-18 : ℤ) := by
    norm_num
    ring
  rw [hyval, hzval, hpercent, hself _ (by decide), hrate, hself _ (by decide), hk]
  norm_num
  ring

theorem isFaithful : ltvFamily.IsFaithful := by
  intro profile type c trigger hc hle htrigger
  obtain ⟨type', z, rfl, hz, hzfin, hback⟩ := toTrigger_ok htrigger hc.finite
  refine ⟨Specification.readTrigger_ltv hzfin type', fun d hd => ?_⟩
  obtain ⟨y, rfl, hy⟩ := hback d hd
  refine ⟨y, rfl, ?_⟩
  rw [toRat_ofPercent_toPercent hc hle hz hy, sub_self, abs_zero]
  positivity

end LtvFamily

namespace PriceFamily

variable {position : PositionType} {c : Condition} {trigger : Trigger} {t z y : Decimal}

/-- The trigger of a condition, if its threshold stands for a price. -/
theorem triggerOf_ok (h : triggerOf position type c = .ok trigger)
    (hz : convert position c.threshold = .ok z) (hfin : z.isFinite) (hpos : 0 < z.toRat) :
    ∃ type', trigger = .price (.make type' z) ∧ ∀ d, toCondition position type trigger = .ok d →
      ∃ y, d = c.withThreshold y ∧ convert position z = .ok y := by
  unfold triggerOf at h
  split at h
  · rw [convert, Condition.threshold] at hz
    simp only [hz, liftM_ok, ok_bind, PriceTrigger.ofPrice_eq hfin hpos] at h
    obtain rfl : .price (.longStopLoss z) = trigger := Except.ok.inj h
    refine ⟨.longStopLoss, rfl, fun d hd => ?_⟩
    obtain ⟨y, hy, hd⟩ := bind_eq_ok.mp hd
    exact ⟨y, (Except.ok.inj hd).symm, liftM_eq_ok.mp hy⟩
  · rw [convert, Condition.threshold] at hz
    simp only [hz, liftM_ok, ok_bind, PriceTrigger.ofPrice_eq hfin hpos] at h
    obtain rfl : .price (.longTakeProfit z) = trigger := Except.ok.inj h
    refine ⟨.longTakeProfit, rfl, fun d hd => ?_⟩
    obtain ⟨y, hy, hd⟩ := bind_eq_ok.mp hd
    exact ⟨y, (Except.ok.inj hd).symm, liftM_eq_ok.mp hy⟩
  · obtain rfl := Except.ok.inj hz
    rw [Condition.threshold] at hfin hpos
    simp only [PriceTrigger.ofPrice_eq hfin hpos, ok_bind] at h
    obtain rfl := Except.ok.inj h
    refine ⟨.shortStopLoss, rfl, fun d hd => ?_⟩
    exact ⟨_, (Except.ok.inj hd).symm, rfl⟩
  · obtain rfl := Except.ok.inj hz
    rw [Condition.threshold] at hfin hpos
    simp only [PriceTrigger.ofPrice_eq hfin hpos, ok_bind] at h
    obtain rfl := Except.ok.inj h
    refine ⟨.shortTakeProfit, rfl, fun d hd => ?_⟩
    exact ⟨_, (Except.ok.inj hd).symm, rfl⟩
  · simp at h

/-- A threshold that stands for a price comes back from it but for the last digits of two quotients,
which for a threshold that is not too large lie below the places of a slot. -/
theorem exists_price (position : PositionType) (ht : FixedPoint.IsSlotNumber t) (hpos : 0 < t.toRat)
    (hle : t.toRat ≤ 10 ^ 7) : ∃ z, convert position t = .ok z ∧ z.isFinite ∧ 0 < z.toRat ∧
      ∀ y, convert position z = .ok y → |y.toRat - t.toRat| ≤ 2 / 10 ^ 20 := by
  cases position with
  | short =>
    refine ⟨t, rfl, ht.finite, hpos, fun y hy => ?_⟩
    obtain rfl : t = y := Except.ok.inj hy
    rw [sub_self, abs_zero]
    positivity
  | long =>
    have hlow := ht.ten_zpow_le hpos
    obtain ⟨z, hz, hzfin, hzval, hzpos⟩ := exists_inverse (u := t.toRat) (y := t)
      (by norm_num at hlow ⊢; exact hlow) (by linarith) ht.finite rfl
    refine ⟨z, hz, hzfin, hzpos, fun y hy => ?_⟩
    obtain ⟨-, -, hyval⟩ := Context.div_ok (x := .one) rfl hzfin hy
    rw [Decimal.toRat_one] at hyval
    have hinv : 10 ^ (-30 : ℤ) ≤ 1 / t.toRat := by
      rw [le_div_iff₀ hpos]
      norm_num
      linarith
    have hprice := Rate.abs_standard_rounded_sub_le hinv
    rw [← hzval] at hprice
    have hback := Rate.abs_one_div_sub_le hpos hprice
    have hbackLow : 10 ^ (-30 : ℤ) ≤ 1 / z.toRat := by
      have hhalf : t.toRat / 2 ≤ 1 / z.toRat := by
        have := (abs_le.mp hback).1
        linarith
      calc (10 : ℚ) ^ (-30 : ℤ) ≤ 10 ^ (-18 : ℤ) / 2 := by norm_num
        _ ≤ t.toRat / 2 := div_le_div_of_nonneg_right hlow zero_le_two
        _ ≤ 1 / z.toRat := hhalf
    -- Together the quotients are off by 11 parts in `10 ^ 28` of the threshold.
    have hlast := Rate.abs_standard_rounded_sub_le hbackLow
    rw [← hyval] at hlast
    rw [abs_le] at hback hlast ⊢
    constructor <;> linarith

theorem isFaithful (stablecoins : List Token) : (priceFamily stablecoins).IsFaithful := by
  intro position type c trigger hc hle htrigger
  obtain ⟨positive, hpositive, htrigger⟩ := bind_eq_ok.mp htrigger
  rw [liftM_eq_ok, Decimal.gt_zero hc.finite] at hpositive
  obtain ⟨_, hcheck, htrigger⟩ := bind_eq_ok.mp htrigger
  have hpos : 0 < c.threshold.toRat := by
    rw [check_eq_ok.mp hcheck] at hpositive
    simpa using hpositive
  obtain ⟨z, hz, hzfin, hzpos, hnear⟩ := exists_price position hc hpos hle
  obtain ⟨type', rfl, hback⟩ := triggerOf_ok htrigger hz hzfin hzpos
  refine ⟨Specification.readTrigger_price hzfin hzpos type', fun d hd => ?_⟩
  obtain ⟨y, rfl, hy⟩ := hback d hd
  exact ⟨y, rfl, hnear y hy⟩

end PriceFamily

/-- What saving again preserves. -/
structure Order.IsSettledIn (o : Order) (s : SlotState) : Prop where
  held : o.IsHeldIn s
  bounded : s.IsBounded
  threshold_le : o.condition.threshold.toRat ≤ 10 ^ 7

namespace Family

/-- The order that is displayed for a type is created anew. -/
def Resaves (family : Family Profile) (context : OrderContext) (typeName : String) (u : SlotUpdate) :
    Prop :=
  ∃ s, family.read context typeName = .ok (some s) ∧ family.create context typeName (some s) = .ok u

/-- Saving again can be computed: without an order on display nothing is created. -/
theorem resaves_iff {i : Fin 2} {r : Order} : family.Resaves context typeName ⟨i, some r⟩ ↔
    (family.read context typeName >>= family.create context typeName) = .ok ⟨i, some r⟩ := by
  rw [bind_eq_ok]
  constructor
  · rintro ⟨s, hread, hcreate⟩
    exact ⟨some s, hread, hcreate⟩
  · rintro ⟨displayed, hread, hcreate⟩
    cases displayed with
    | none =>
      simp only [create, bind_eq_ok, pure_eq_ok, Except.ok.injEq, SlotUpdate.mk.injEq] at hcreate
      obtain ⟨_, _, _, _, _, hnone⟩ := hcreate
      cases hnone
    | some s => exact ⟨s, hread, hcreate⟩

theorem Resaves.index_eq (h : family.Resaves context typeName u)
    (htype : OrderType.ofName typeName = .ok type) : u.index = type.slot := by
  obtain ⟨s, -, hcreate⟩ := h
  obtain ⟨_, type', _, _, -, htype', -, -, -, rfl⟩ := create_ok hcreate
  obtain rfl : type = type' := Except.ok.inj (htype.symm.trans htype')
  rfl

theorem IsFaithful.exists_state (hfamily : family.IsFaithful) (h : family.Resaves context typeName u)
    (htype : OrderType.ofName typeName = .ok type)
    (ho : o.IsSettledIn (context.obligation.slots.get type.slot)) :
    ∃ t, u.state = .ok t ∧ o.IsSettledIn t := by
  obtain ⟨hheld, hbounded, hle⟩ := ho
  obtain ⟨s, hread, hcreate⟩ := h
  obtain ⟨profile, type', o', trigger, action, ⟨low, high⟩, hprofile, htype', hslot, htrigger,
    haction, hbonus, hentries⟩ := read_ok hread
  obtain rfl : type = type' := Except.ok.inj (htype.symm.trans htype')
  obtain rfl : o' = o :=
    Option.some.inj (Except.ok.inj (hslot.symm.trans (Order.decode_eq_some.mpr hheld)))
  have hdecoded := Order.isDecoded_of_decode hbounded.minBonus hbounded.maxBonus hslot
  obtain ⟨hvalid, hback⟩ := hfamily profile type _ trigger hdecoded.threshold hle htrigger
  obtain ⟨hreadable, hopp⟩ := Opportunity.toAction_ok haction
    (FixedPoint.isSlotNumber_of_decode hheld.parameter).finite
  obtain ⟨hlow, hhigh, hrates⟩ := Rate.toBonusRange_ok hbounded.minBonus hbounded.maxBonus
    hdecoded.minRate hdecoded.maxRate hbonus
  -- What is displayed is what was read, so that it can be followed into the order that is created.
  obtain rfl : ⟨trigger, action, (low, high)⟩ = s := by
    have hself : Specification.ofEntries family.kind
        (Specification.mk trigger action (low, high)).toEntries = .ok ⟨trigger, action, (low, high)⟩ :=
      Specification.ofEntries_toEntries hvalid hreadable hlow hhigh
    exact Except.ok.inj (hself.symm.trans hentries)
  obtain ⟨profile', type', d, r, hprofile', htype', hcondition, -, hr, rfl⟩ := create_ok hcreate
  obtain rfl : profile = profile' := Except.ok.inj (hprofile.symm.trans hprofile')
  obtain rfl : type = type' := Except.ok.inj (htype.symm.trans htype')
  obtain ⟨y, rfl, hnear⟩ := hback d hcondition
  obtain ⟨hmin, hmax⟩ := hrates _ _ hr.bonus
  obtain ⟨n, hn, -⟩ := hr.storable
  rw [Condition.threshold_withThreshold] at hn
  obtain ⟨p, -, -, ht, hheld'⟩ := hheld.exists_isStoredAs_of_near hbounded hr.condition_eq hn hnear
    (hopp _ _ hr.opportunity) hmin hmax
  exact ⟨_, Order.encode_eq_ok.mpr ht, hheld', ht.isBounded, hle⟩

end Family

/-- One of the families displays the order of a type, and creates it anew. -/
def OrderContext.Resaves (context : OrderContext) (typeName : String) (u : SlotUpdate) : Prop :=
  ltvFamily.Resaves context typeName u ∨
    ∃ stablecoins, (priceFamily stablecoins).Resaves context typeName u

namespace OrderContext.Resaves

theorem index_eq (h : context.Resaves typeName u) (htype : OrderType.ofName typeName = .ok type) :
    u.index = type.slot := by
  rcases h with h | ⟨stablecoins, h⟩
  · exact h.index_eq htype
  · exact h.index_eq htype

theorem exists_state (h : context.Resaves typeName u) (htype : OrderType.ofName typeName = .ok type)
    (ho : o.IsSettledIn (context.obligation.slots.get type.slot)) :
    ∃ t, u.state = .ok t ∧ o.IsSettledIn t := by
  rcases h with h | ⟨stablecoins, h⟩
  · exact LtvFamily.isFaithful.exists_state h htype ho
  · exact (PriceFamily.isFaithful stablecoins).exists_state h htype ho

end OrderContext.Resaves

namespace SlotState

variable {s t : SlotState}

/-- The state of a slot before and after its order is saved again, whatever else there is then. -/
def Resaved (typeName : String) (s t : SlotState) : Prop :=
  ∃ (context : OrderContext) (u : SlotUpdate), context.Resaves typeName u ∧
    context.obligation.slots.get u.index = s ∧ u.state = .ok t

abbrev ResavedOften (typeName : String) := Relation.ReflTransGen (Resaved typeName)

theorem Resaved.isSettledIn (h : Resaved typeName s t) (htype : OrderType.ofName typeName = .ok type)
    (ho : o.IsSettledIn s) : o.IsSettledIn t := by
  obtain ⟨context, u, hu, rfl, ht⟩ := h
  rw [hu.index_eq htype] at ho
  obtain ⟨t', ht', ho'⟩ := hu.exists_state htype ho
  obtain rfl : t' = t := Except.ok.inj (ht'.symm.trans ht)
  exact ho'

theorem ResavedOften.isSettledIn (h : ResavedOften typeName s t)
    (htype : OrderType.ofName typeName = .ok type) (ho : o.IsSettledIn s) : o.IsSettledIn t := by
  induction h with
  | refl => exact ho
  | tail _ hstep ih => exact hstep.isSettledIn htype ih

end SlotState

/-- However often a displayed order was saved again, it can be saved once more, in the same slot and
as the same order. -/
theorem decode_resaved {s t : SlotState} (htype : OrderType.ofName typeName = .ok type)
    (hbounded : s.IsBounded) (h : Order.decode s = .ok (some o))
    (hle : o.condition.threshold.toRat ≤ 10 ^ 7) (hrun : SlotState.ResavedOften typeName s t) :
    Order.decode t = .ok (some o) ∧ ∀ (context : OrderContext) (u : SlotUpdate),
      context.Resaves typeName u → context.obligation.slots.get type.slot = t →
        u.index = type.slot ∧ ∃ state, u.state = .ok state ∧ Order.decode state = .ok (some o) := by
  have ht := hrun.isSettledIn htype ⟨Order.decode_eq_some.mp h, hbounded, hle⟩
  refine ⟨Order.decode_eq_some.mpr ht.held, fun context u hu hslot => ⟨hu.index_eq htype, ?_⟩⟩
  rw [← hslot] at ht
  obtain ⟨state, hstate, hsettled⟩ := hu.exists_state htype ht
  exact ⟨state, hstate, Order.decode_eq_some.mpr hsettled.held⟩

/-- A long stop-loss at a ratio of 0.7. Its price of 1.428571428571428571428571429 dollars has the
inverse 0.6999999999999999999999999998, which is stored as 0.7. -/
def sevenTenths : SlotState := ⟨3, 807045053224792883, 1, FixedPoint.maxEncoded, 50, 100⟩

def displayedSevenTenths : Order :=
  ⟨.priceRatioAbove (.finite false 6999999999999999999999999998 (-28)), .allDebt,
    .finite false 5 (-3), .finite false 1 (-2)⟩

theorem resaves_sevenTenths :
    (longPosition.store 0 sevenTenths).Resaves "StopLoss" ⟨0, some displayedSevenTenths⟩ :=
  .inr ⟨[.symbol "USD"], Family.resaves_iff.mpr (by decide +kernel)⟩

theorem decode_resaved_sevenTenths : ∃ state,
    SlotUpdate.state ⟨0, some displayedSevenTenths⟩ = .ok state ∧
      Order.decode state = .ok (some ⟨.priceRatioAbove (.finite false 7 (-1)), .allDebt,
        .finite false 5 (-3), .finite false 1 (-2)⟩) := by
  have hdecode : Order.decode sevenTenths = .ok (some ⟨.priceRatioAbove (.finite false 7 (-1)),
      .allDebt, .finite false 5 (-3), .finite false 1 (-2)⟩) := by decide +kernel
  have hstate : SlotUpdate.state ⟨0, some displayedSevenTenths⟩ = .ok sevenTenths := by
    decide +kernel
  have hrun : SlotState.ResavedOften "StopLoss" sevenTenths sevenTenths :=
    .single ⟨_, _, resaves_sevenTenths, rfl, hstate⟩
  have hle : (Decimal.finite false 7 (-1)).toRat ≤ 10 ^ 7 := by
    rw [Decimal.toRat_finite]
    norm_num [Context.signed]
  have htype : OrderType.ofName "StopLoss" = .ok .stopLoss := rfl
  obtain ⟨-, hagain⟩ :=
    decode_resaved htype ⟨by decide, le_rfl, by decide, by decide⟩ hdecode hle hrun
  exact (hagain _ _ resaves_sevenTenths rfl).2

end LoanOrders
