import LoanOrders.Proofs.Failure
import LoanOrders.Proofs.LtvAcceptance

/-! How a request for an order ends with either family. The number of a trigger can be too large to be
converted into a threshold; from there on the families have everything in common. -/

namespace LoanOrders

open Decimal

namespace Result.Meets

variable {α β : Type} {E : Error → Prop}

theorem forM {f : α → Result Unit} (h : ∀ a, (f a).Meets E fun _ => True) (l : List α) :
    (l.forM f).Meets E fun _ => True := by
  induction l with
  | nil => exact trivial
  | cons a l ih => exact (h a).bind fun _ _ _ => ih

theorem foldlM {f : β → α → Result β} (h : ∀ b a, (f b a).Meets E fun _ => True) (l : List α) (b : β) :
    (l.foldlM f b).Meets E fun _ => True := by
  induction l generalizing b with
  | nil => exact trivial
  | cons a l ih =>
    rw [List.foldlM_cons]
    exact (h b a).bind fun c _ _ => ih c

end Result.Meets

namespace Market

variable {m : Market}

theorem meets_find (key : ReserveKey) (test : Reserve → Bool) :
    (m.find key test).Meets Error.IsModel fun _ => True := by
  unfold find
  cases m.reserves.find? test with
  | none => exact rfl
  | some r => exact trivial

theorem meets_addressesOf (tokens : List Token) :
    (m.addressesOf tokens).Meets Error.IsModel fun _ => True := by
  refine .foldlM (fun addresses token => ?_) tokens []
  have hreserve : (m.reserveOf token).Meets Error.IsModel fun _ => True := by
    cases token <;> exact meets_find _ _
  exact hreserve.bind fun r _ _ => trivial

end Market

namespace Family

variable {Profile : Type}

/-- The condition that a family makes of a trigger, once it is checked. -/
def condition (family : Family Profile) (profile : Profile) (type : OrderType) (trigger : Trigger) :
    Result Condition := do
  let c ← family.toCondition profile type trigger
  family.checkCondition c
  return c

/-- A family in which the arithmetic fails for a trigger exactly if its number is too large. -/
structure Converts (family : Family Profile) (exceeds : Profile → OrderType → Trigger → Prop) :
    Prop where
  profile (context : OrderContext) : (family.profile context).Meets Error.IsModel fun _ => True
  condition (profile : Profile) (type : OrderType) {trigger : Trigger} (h : trigger.IsSound) :
    (family.condition profile type trigger).SignalsIf (exceeds profile type trigger)
  finite {profile : Profile} {type : OrderType} {trigger : Trigger} {c : Condition}
    (h : trigger.IsSound) (hc : family.toCondition profile type trigger = .ok c) :
    c.threshold.isFinite
  range {profile : Profile} {type : OrderType} {trigger : Trigger} {c : Condition}
    (h : trigger.IsSound) (hc : family.toCondition profile type trigger = .ok c)
    (hnot : ¬exceeds profile type trigger) :
    family.checkCondition c = .ok () ∨
      ∃ e, family.checkCondition c = .error e ∧ e.kind = .precondition .range

variable {family : Family Profile} {exceeds : Profile → OrderType → Trigger → Prop}
  {context : OrderContext} {type : OrderType} {s : Specification}

theorem create_some : family.create context type.name (some s) = (do
    let profile ← family.profile context
    let c ← family.condition profile type s.trigger
    let o ← orderOf context c s
    return ⟨type.slot, some o⟩) := by
  have htype : OrderType.ofName type.name = .ok type := OrderType.ofName_eq_ok.mpr rfl
  simp only [create, htype, ok_bind, condition, bind_assoc, pure_eq_ok]

/-- A request fails in the arithmetic: in converting the number of the trigger, or for the order of
its condition. -/
def Signals (family : Family Profile) (exceeds : Profile → OrderType → Trigger → Prop)
    (context : OrderContext) (type : OrderType) (s : Specification) : Prop :=
  ∃ profile, family.profile context = .ok profile ∧ (exceeds profile type s.trigger ∨
    ∃ c, family.condition profile type s.trigger = .ok c ∧ OrderLacks context c s)

/-- How a request for an order ends. It fails with a signal exactly if the arithmetic does; else there
is a change of the slot or an error about the request, and always the one about a range for a threshold
that cannot be stored. -/
structure Answers (family : Family Profile) (exceeds : Profile → OrderType → Trigger → Prop)
    (context : OrderContext) (type : OrderType) (s : Specification) : Prop where
  signals : (family.create context type.name (some s)).SignalsIf
    (family.Signals exceeds context type s)
  range {profile : Profile} {c : Condition} (hnot : ¬family.Signals exceeds context type s)
    (hprofile : family.profile context = .ok profile)
    (hc : family.toCondition profile type s.trigger = .ok c)
    (h : ¬FixedPoint.IsStorable c.threshold.toRat) :
    ∃ e, family.create context type.name (some s) = .error e ∧ e.kind = .precondition .range

theorem condition_eq_ok {profile : Profile} {trigger : Trigger} {c : Condition} :
    family.condition profile type trigger = .ok c ↔
      family.toCondition profile type trigger = .ok c ∧ family.checkCondition c = .ok () := by
  simp only [condition, bind_eq_ok, pure_eq_ok, Except.ok.injEq]
  constructor
  · rintro ⟨c', hc, _, hcheck, rfl⟩
    exact ⟨hc, hcheck⟩
  · rintro ⟨hc, hcheck⟩
    exact ⟨c, hc, (), hcheck, rfl⟩

theorem Converts.answers (hfamily : family.Converts exceeds) (ho : context.obligation.IsSound)
    (hs : s.IsSound) : family.Answers exceeds context type s := by
  constructor
  · rw [create_some]
    exact .bind_right (.of_meets (hfamily.profile context)) fun profile _ =>
      .bind (hfamily.condition profile type hs.trigger) fun c hc =>
        .bind_left (signalsIf_orderOf (hfamily.finite hs.trigger (condition_eq_ok.mp hc).1) ho hs)
          fun o _ => .ok _
  · intro profile c hnot hprofile hc hstorable
    have hlacks : ¬exceeds profile type s.trigger := fun h => hnot ⟨profile, hprofile, .inl h⟩
    rw [create_some, hprofile, ok_bind]
    rcases hfamily.range hs.trigger hc hlacks with hcheck | ⟨e, hcheck, hkind⟩
    · have hcondition := condition_eq_ok.mpr ⟨hc, hcheck⟩
      have hlt : |c.threshold.toRat * FixedPoint.scale| < Context.wide.overflowBound := by
        by_contra! hge
        exact hnot ⟨profile, hprofile, .inr ⟨c, hcondition, .encoding hge⟩⟩
      obtain ⟨e, he, hkind⟩ :=
        Condition.checkStorable_eq_error (hfamily.finite hs.trigger hc) hstorable hlt
      exact ⟨e, by simp only [hcondition, orderOf, he, ok_bind, error_bind], hkind⟩
    · exact ⟨e, by simp only [Family.condition, hc, hcheck, ok_bind, error_bind], hkind⟩

theorem Converts.meets_create_none (hfamily : family.Converts exceeds) :
    (family.create context type.name none).Meets Error.IsModel (· = ⟨type.slot, none⟩) := by
  have htype : OrderType.ofName type.name = .ok type := OrderType.ofName_eq_ok.mpr rfl
  refine (hfamily.profile context).bind fun profile _ _ => ?_
  rw [htype]
  exact rfl

end Family

namespace LtvFamily

variable {type : OrderType} {trigger : Trigger} {c : Condition} {context : OrderContext}
  {x t : Decimal}

/-- The percentage that an order type takes is too large to be converted into a rate and back. -/
def Exceeds (type : OrderType) (trigger : Trigger) : Prop :=
  ∃ x, trigger = .ltv (type.ltvTrigger x) ∧ Context.standard.overflowBound ≤ |x.toRat|

theorem percent_ltvTrigger (type : OrderType) (x : Decimal) : (type.ltvTrigger x).percent = x := by
  cases type <;> rfl

theorem exceeds_ltvTrigger_iff :
    Exceeds type (.ltv (type.ltvTrigger x)) ↔ Context.standard.overflowBound ≤ |x.toRat| := by
  constructor
  · rintro ⟨y, heq, h⟩
    have hpercent := congrArg LtvTrigger.percent (Trigger.ltv.inj heq)
    rw [percent_ltvTrigger, percent_ltvTrigger] at hpercent
    rwa [hpercent]
  · exact fun h => ⟨x, rfl, h⟩

theorem isSound_ltvTrigger_iff : (Trigger.ltv (type.ltvTrigger x)).IsSound ↔ x.isFinite := by
  rw [Trigger.IsSound, percent_ltvTrigger]

theorem meets_profile : (profile context).Meets Error.IsModel fun _ => True := by
  refine .forM (fun entry => ?_) context.obligation.deposits
  exact (Market.meets_find _ _).bind fun reserve _ _ => meets_check _ rfl

theorem signalsIf_checkCondition (ht : c.threshold.isFinite) :
    (checkCondition c).SignalsIf
      (Context.standard.overflowBound ≤ |c.threshold.toRat * Rate.fullPercent|) := by
  have hpercent := (Context.exists_mul_ofNat_iff (c := Context.standard) ht Rate.fullPercent).trans
    not_le.symm
  rw [checkCondition_eq ht]
  exact .bind_left (.of_exists hpercent) fun given _ => .of_meets (meets_check _ rfl)

theorem isFinite_of_ofPercent (hx : x.isFinite) (ht : Rate.ofPercent x = .ok t) : t.isFinite :=
  (Context.div_ok hx (Decimal.isFinite_ofNat _) ht).2.1

/-- The way back from the rate of a percentage is open unless the percentage itself is too large. -/
theorem overflowBound_le_toPercent_iff (hx : x.isFinite) (ht : Rate.ofPercent x = .ok t) :
    Context.standard.overflowBound ≤ |t.toRat * Rate.fullPercent| ↔
      Context.standard.overflowBound ≤ |x.toRat| := by
  obtain ⟨-, -, htval⟩ := Context.div_ok hx (Decimal.isFinite_ofNat Rate.fullPercent) ht
  have hfull : (Rate.fullPercent : ℚ) = 10 ^ 2 := by norm_num [Rate.fullPercent]
  rw [Decimal.toRat_ofNat, hfull] at htval
  rw [← not_lt, ← not_lt, htval, hfull, Context.rounded_div_mul_lt_iff (by decide)]

theorem converts : ltvFamily.Converts fun _ => Exceeds where
  profile _ := meets_profile
  condition _ type trigger hsound := by
    rcases toCondition_cases type trigger with ⟨x, rfl, hcondition⟩ | ⟨hother, hcondition⟩
    · rw [isSound_ltvTrigger_iff] at hsound
      have hofPercent := (Context.exists_div_ofNat_iff (c := Context.standard) hsound
        (n := Rate.fullPercent) (by decide)).trans not_le.symm
      have hle : |x.toRat / Rate.fullPercent| ≤ |x.toRat| := by
        rw [abs_div]
        exact div_le_self (abs_nonneg _) (by norm_num [Rate.fullPercent])
      rw [exceeds_ltvTrigger_iff]
      -- A percentage that is too large fails on its way to a rate, or in the check on the way back.
      refine Result.SignalsIf.congr (?_ : Result.SignalsIf (Context.standard.overflowBound ≤
        |x.toRat / Rate.fullPercent| ∨ Context.standard.overflowBound ≤ |x.toRat|) _)
        (or_iff_right_of_imp hle.trans')
      simp only [Family.condition, ltvFamily, hcondition, bind_assoc, pure_eq_ok, ok_bind]
      refine .bind_liftM hofPercent fun t ht => ?_
      have htfin := isFinite_of_ofPercent hsound ht
      have hback := overflowBound_le_toPercent_iff hsound ht
      rw [← type.threshold_ltvCondition t] at htfin hback
      exact ((signalsIf_checkCondition htfin).congr hback).bind_left fun _ _ => .ok _
    · have hnot : ¬Exceeds type trigger := by
        rintro ⟨x, hx, -⟩
        exact hother x hx
      simp only [Family.condition, ltvFamily, hcondition, error_bind, hnot]
      exact .refused rfl
  finite hsound hc := by
    obtain ⟨x, t, rfl, ht, rfl⟩ := toCondition_eq_ok.mp hc
    rw [isSound_ltvTrigger_iff] at hsound
    rw [OrderType.threshold_ltvCondition]
    exact isFinite_of_ofPercent hsound ht
  range {_ type _ _} hsound hc hnot := by
    obtain ⟨x, t, rfl, ht, rfl⟩ := toCondition_eq_ok.mp hc
    rw [isSound_ltvTrigger_iff] at hsound
    have htfin := isFinite_of_ofPercent hsound ht
    rw [exceeds_ltvTrigger_iff, ← overflowBound_le_toPercent_iff hsound ht, not_le] at hnot
    obtain ⟨y, hy⟩ := (Context.exists_mul_ofNat_iff htfin Rate.fullPercent).mpr hnot
    rw [← type.threshold_ltvCondition t] at htfin hy
    rcases checkCondition_cases htfin hy with ⟨-, -, h⟩ | ⟨-, e, hkind, h⟩
    · exact .inl h
    · exact .inr ⟨e, h, hkind⟩

end LtvFamily

namespace PriceFamily

variable {position : PositionType} {type : OrderType} {trigger : Trigger} {context : OrderContext}
  {x t : Decimal}

/-- The price that an order type takes on a long position is so close to nothing that its inverse is too
large. -/
def Exceeds (position : PositionType) (type : OrderType) (trigger : Trigger) : Prop :=
  ∃ x, position = .long ∧ trigger = .price (.make (type.priceTrigger position) x) ∧
    Context.standard.overflowBound ≤ 1 / x.toRat

theorem exceeds_make_iff : Exceeds position type (.price (.make (type.priceTrigger position) x)) ↔
    position = .long ∧ Context.standard.overflowBound ≤ 1 / x.toRat := by
  constructor
  · rintro ⟨y, hlong, heq, h⟩
    have hprice := congrArg PriceTrigger.price (Trigger.price.inj heq)
    rw [PriceTrigger.price_make, PriceTrigger.price_make] at hprice
    exact ⟨hlong, hprice ▸ h⟩
  · rintro ⟨hlong, h⟩
    exact ⟨x, hlong, rfl, h⟩

theorem isSound_make_iff {kind : PriceTriggerType} :
    (Trigger.price (.make kind x)).IsSound ↔ x.IsPos := by
  rw [Trigger.IsSound, PriceTrigger.price_make]

theorem exists_convert_iff (hx : x.IsPos) : (∃ t, convert position x = .ok t) ↔
    ¬(position = .long ∧ Context.standard.overflowBound ≤ 1 / x.toRat) := by
  cases position with
  | long =>
    have hinverse := Context.exists_div_iff (c := Context.standard) (x := .one) rfl hx.1
    rw [Decimal.toRat_one, and_iff_right hx.2.ne', abs_of_pos (one_div_pos.mpr hx.2)] at hinverse
    rw [convert, Rate.inverse, hinverse]
    simp
  | short => simp [convert]

theorem isFinite_of_convert (hx : x.IsPos) (h : convert position x = .ok t) : t.isFinite := by
  cases position with
  | long => exact (Context.div_ok (x := .one) rfl hx.1 h).2.1
  | short => exact Except.ok.inj h ▸ hx.1

variable (stablecoins : List Token)

theorem meets_positionType :
    (positionType stablecoins context).Meets Error.IsModel fun _ => True := by
  refine (meets_single _ _).bind fun collateral _ _ => (meets_single _ _).bind fun debt _ _ =>
    (Market.meets_addressesOf stablecoins).bind fun stable _ _ => ?_
  split
  · exact .bind (meets_check _ rfl) fun _ _ _ => trivial
  · exact .bind (meets_check _ rfl) fun _ _ _ => trivial

theorem converts : (priceFamily stablecoins).Converts Exceeds where
  profile _ := meets_positionType stablecoins
  condition position type trigger hsound := by
    rcases toCondition_cases position type trigger with ⟨x, rfl, hcondition⟩ | ⟨hother, hcondition⟩
    · rw [isSound_make_iff] at hsound
      simp only [Family.condition, priceFamily, hcondition, bind_assoc, exceeds_make_iff]
      exact .bind_left (.of_exists (exists_convert_iff hsound)) fun t _ => .ok _
    · have hnot : ¬Exceeds position type trigger := by
        rintro ⟨x, -, hx, -⟩
        exact hother x hx
      simp only [Family.condition, priceFamily, hcondition, error_bind, hnot]
      exact .refused rfl
  finite hsound hc := by
    obtain ⟨x, t, rfl, ht, rfl⟩ := toCondition_eq_ok.mp hc
    rw [isSound_make_iff] at hsound
    rw [OrderType.threshold_priceCondition]
    exact isFinite_of_convert hsound ht
  range _ _ _ := .inl rfl

end PriceFamily

/-- A request for an order of either family ends with a change of the slot or with an error about the
request, unless the arithmetic fails. A request to empty the slot needs none. -/
theorem create_answers {context : OrderContext} (ho : context.obligation.IsSnapshot)
    (type : OrderType) :
    (∀ kind entries s, Specification.ofEntries kind entries = .ok s →
      ltvFamily.Answers (fun _ => LtvFamily.Exceeds) context type s ∧
      ∀ stablecoins, (priceFamily stablecoins).Answers PriceFamily.Exceeds context type s) ∧
    (ltvFamily.create context type.name none).Meets Error.IsModel (· = ⟨type.slot, none⟩) ∧
    ∀ stablecoins, ((priceFamily stablecoins).create context type.name none).Meets Error.IsModel
      (· = ⟨type.slot, none⟩) := by
  refine ⟨fun kind entries s hs => ?_, LtvFamily.converts.meets_create_none,
    fun stablecoins => (PriceFamily.converts stablecoins).meets_create_none⟩
  have hsound := Specification.isSound_of_ofEntries hs
  exact ⟨LtvFamily.converts.answers ho.isSound hsound,
    fun stablecoins => (PriceFamily.converts stablecoins).answers ho.isSound hsound⟩

/-- All debt is repaid once the price of the collateral falls below a limit. -/
def stopLossBelow (price : Decimal) : Specification :=
  ⟨.price (.longStopLoss price), .fullRepay, (.ofNat 50, .ofNat 100)⟩

theorem ofEntries_stopLossBelow {price : Decimal} (h : price.IsPos) :
    Specification.ofEntries .price (stopLossBelow price).toEntries = .ok (stopLossBelow price) :=
  Specification.ofEntries_toEntries (Specification.readTrigger_price h.1 h.2 .longStopLoss) trivial rfl
    rfl

/-- The inverse of a price of `10 ^ -30` is too large for a slot, and is refused for that. -/
theorem create_answers_stopLossBelow :
    ¬(priceFamily [.symbol "USD"]).Signals PriceFamily.Exceeds ⟨longPosition.market, leveraged 10 500⟩
      .stopLoss (stopLossBelow (.finite false 1 (-30))) ∧
    ∃ e, (priceFamily [.symbol "USD"]).create ⟨longPosition.market, leveraged 10 500⟩ "StopLoss"
      (some (stopLossBelow (.finite false 1 (-30)))) = .error e ∧ e.kind = .precondition .range := by
  have hprice : (Decimal.finite false 1 (-30)).IsPos := ⟨rfl, by norm_num [Context.signed]⟩
  have hsnapshot : (OrderContext.mk longPosition.market (leveraged 10 500)).obligation.IsSnapshot :=
    isSnapshot_half
  obtain ⟨hanswers, -⟩ := create_answers hsnapshot .stopLoss
  obtain ⟨-, hanswers⟩ := hanswers _ _ _ (ofEntries_stopLossBelow hprice)
  have hanswer := hanswers [.symbol "USD"]
  have hcreate : (priceFamily [.symbol "USD"]).create ⟨longPosition.market, leveraged 10 500⟩
      "StopLoss" (some (stopLossBelow (.finite false 1 (-30)))) =
        .error (.thresholdNotStorable (.notFraction "1E+30")) := by
    decide +kernel
  have hnot : ¬(priceFamily [.symbol "USD"]).Signals PriceFamily.Exceeds
      ⟨longPosition.market, leveraged 10 500⟩ .stopLoss (stopLossBelow (.finite false 1 (-30))) := by
    intro h
    obtain ⟨signal, hsignal⟩ := hanswer.signals.raised h
    exact absurd (hcreate.symm.trans hsignal) (by simp)
  have hprofile : (priceFamily [.symbol "USD"]).profile ⟨longPosition.market, leveraged 10 500⟩ =
      .ok .long := by
    decide +kernel
  refine ⟨hnot, hanswer.range (c := .priceRatioAbove (.finite false 1 30)) hnot hprofile rfl ?_⟩
  norm_num [FixedPoint.IsStorable, Condition.threshold, Context.signed]

/-- Numbers that are too large to be scaled are accepted in a specification, and a position without an
amount in an obligation. The arithmetic fails for either. -/
theorem create_signals :
    Obligation.build longPosition.market (.text "obligation") [solDeposit 10] [usdBorrow 500] none =
      .ok (leveraged 10 500) ∧
    (∃ entries, Specification.ofEntries .price entries =
      .ok (stopLossBelow (.finite false 1 (-999999)))) ∧
    (priceFamily [.symbol "USD"]).create ⟨longPosition.market, leveraged 10 500⟩ "StopLoss"
      (some (stopLossBelow (.finite false 1 (-999999)))) = .error (.signal .overflow) ∧
    (∃ entries, Specification.ofEntries .ltv entries =
      .ok (LtvFamily.fullRepayAt .stopLoss (.finite false 1 1000000) (.ofNat 50, .ofNat 100))) ∧
    ltvFamily.create ⟨longPosition.market, leveraged 10 500⟩ "StopLoss"
      (some (LtvFamily.fullRepayAt .stopLoss (.finite false 1 1000000) (.ofNat 50, .ofNat 100))) =
        .error (.signal .overflow) ∧
    Position.ofEntries (solDeposit 0).toEntries = .ok (solDeposit 0) ∧
    Obligation.build longPosition.market (.text "obligation") [solDeposit 0] [usdBorrow 500] none =
      .ok (leveraged 0 500) ∧
    (∃ entries, Specification.ofEntries .price entries = .ok (stopLossBelow (.ofNat 90))) ∧
    (priceFamily [.symbol "USD"]).create ⟨longPosition.market, leveraged 0 500⟩ "StopLoss"
      (some (stopLossBelow (.ofNat 90))) = .error (.signal .invalidOperation) := by
  have htiny : (Decimal.finite false 1 (-999999)).IsPos := by
    refine ⟨rfl, ?_⟩
    rw [Decimal.toRat_finite]
    exact mul_pos one_pos (ten_zpow_pos _)
  have hninety : (Decimal.ofNat 90).IsPos := ⟨rfl, by norm_num⟩
  have hltv (x : Decimal) (hx : x.isFinite) : ∃ entries, Specification.ofEntries .ltv entries =
      .ok (LtvFamily.fullRepayAt .stopLoss x (.ofNat 50, .ofNat 100)) :=
    ⟨_, Specification.ofEntries_toEntries (Specification.readTrigger_ltv hx .stopLoss) trivial rfl rfl⟩
  exact ⟨by decide +kernel, ⟨_, ofEntries_stopLossBelow htiny⟩, by decide +kernel, hltv _ rfl,
    by decide +kernel, by decide +kernel, by decide +kernel, ⟨_, ofEntries_stopLossBelow hninety⟩,
    by decide +kernel⟩

end LoanOrders
