import LoanOrders.Proofs.Order
import LoanOrders.Proofs.Specification
import LoanOrders.Service

/-! What is known of an order that was created: its threshold is stored as more than zero, its
condition does not hold yet, and its amount and its bonus lie within their limits. Reading it back
from its slot gives the action and the bonus of the specification, as far as a slot keeps them. -/

namespace LoanOrders

variable {context : OrderContext} {condition : Condition} {s : Specification} {o : Order}

namespace Action

theorem toOpportunity_ok {a : Action} {obligation : Obligation} {opp : Opportunity}
    (h : a.toOpportunity obligation = .ok opp) :
    a = .fullRepay ∧ opp = .allDebt ∨ ∃ x, a = .partialRepay x ∧ opp = .debtAmount x ∧
      x.gt .zero = .ok true ∧ ∃ borrow, obligation.borrowList = [borrow] ∧
        x.le borrow.amount = .ok true := by
  cases a with
  | fullRepay => exact .inl ⟨rfl, (Except.ok.inj h).symm⟩
  | partialRepay x =>
    simp only [toOpportunity, bind_eq_ok, liftM_eq_ok, check_eq_ok, single_eq_ok, pure_eq_ok,
      Except.ok.injEq] at h
    obtain ⟨b, hb, -, rfl, borrow, hborrow, b', hb', -, rfl, rfl⟩ := h
    exact .inr ⟨x, rfl, rfl, hb, borrow, hborrow, hb'⟩
  | foreign name => simp [toOpportunity] at h

theorem exists_toAction {a : Action} {obligation : Obligation} {opp : Opportunity} {p : Decimal}
    {n : Nat} (h : a.toOpportunity obligation = .ok opp)
    (hn : FixedPoint.encode opp.parameter = .ok n) (hp : p.isFinite)
    (hval : p.toRat = FixedPoint.unscaled n) :
    ∃ b, (opp.withParameter p).toAction = .ok b ∧ b.IsReadable ∧ a.Related FixedPoint.Kept b := by
  rcases toOpportunity_ok h with ⟨rfl, rfl⟩ | ⟨x, rfl, rfl, -⟩
  · exact ⟨.fullRepay, rfl, trivial, trivial⟩
  · refine ⟨.partialRepay p, ofAmount_eq hp, hp, FixedPoint.isFinite_of_encode hn, hp, ?_⟩
    rw [hval]
    exact FixedPoint.kept_of_encode hn

end Action

theorem Opportunity.toAction_ok {a : Action} {opp : Opportunity} (h : opp.toAction = .ok a)
    (hfin : opp.parameter.isFinite) : a.IsReadable ∧ ∀ obligation opp',
      a.toOpportunity obligation = .ok opp' → opp' = opp := by
  cases opp with
  | allDebt =>
    obtain rfl := Except.ok.inj h
    refine ⟨trivial, fun obligation opp' hopp => ?_⟩
    rcases Action.toOpportunity_ok hopp with ⟨-, rfl⟩ | ⟨x, hx, -⟩
    · rfl
    · simp at hx
  | debtAmount amount =>
    rw [Opportunity.toAction, Action.ofAmount_eq (x := amount) hfin] at h
    obtain rfl := Except.ok.inj h
    refine ⟨hfin, fun obligation opp' hopp => ?_⟩
    rcases Action.toOpportunity_ok hopp with ⟨hfull, -⟩ | ⟨x, hx, rfl, -⟩
    · simp at hfull
    · rw [Action.partialRepay.inj hx]
  | foreign => simp [Opportunity.toAction] at h

namespace Family

variable {Profile : Type} {family : Family Profile} {profile : Profile} {typeName : String}
  {type : OrderType} {u : SlotUpdate}

/-- What an accepted order is made of. -/
structure IsOrderOf (o : Order) (context : OrderContext) (condition : Condition) (s : Specification) :
    Prop where
  condition_eq : o.condition = condition
  storable : ∃ n, FixedPoint.encode condition.threshold = .ok n ∧ 0 < n
  inactive : condition.evaluate context.obligation = .ok none
  opportunity : s.action.toOpportunity context.obligation = .ok o.opportunity
  bonus : Rate.ofBonusRange s.bonusBps.1 s.bonusBps.2 = .ok (o.minRate, o.maxRate)

theorem orderOf_ok (h : orderOf context condition s = .ok o) : IsOrderOf o context condition s := by
  simp only [orderOf, bind_eq_ok, check_eq_ok, pure_eq_ok, Except.ok.injEq] at h
  obtain ⟨_, hstorable, distance, hinactive, -, hnone, opp, hopp, ⟨min, max⟩, hbonus, rfl⟩ := h
  obtain rfl : distance = none := by simpa using hnone
  exact ⟨rfl, Condition.checkStorable_ok hstorable, hinactive, hopp, hbonus⟩

theorem create_ok (h : family.create context typeName (some s) = .ok u) :
    ∃ profile type condition o, family.profile context = .ok profile ∧
      OrderType.ofName typeName = .ok type ∧
      family.toCondition profile type s.trigger = .ok condition ∧
      family.checkCondition condition = .ok () ∧ IsOrderOf o context condition s ∧
      u = ⟨type.slot, some o⟩ := by
  simp only [create, bind_eq_ok, pure_eq_ok, Except.ok.injEq] at h
  obtain ⟨profile, hprofile, type, htype, condition, hcondition, _, hcheck, o, ho, rfl⟩ := h
  exact ⟨profile, type, condition, o, hprofile, htype, hcondition, hcheck, orderOf_ok ho, rfl⟩

theorem IsOrderOf.encode_threshold {state : SlotState} (h : IsOrderOf o context condition s)
    (hstate : o.IsStoredAs state) :
    FixedPoint.encode condition.threshold = .ok state.threshold ∧ 0 < state.threshold := by
  obtain ⟨n, hn, hpos⟩ := h.storable
  have hthreshold := hstate.threshold
  rw [h.condition_eq] at hthreshold
  obtain rfl : n = state.threshold := Except.ok.inj (hn.symm.trans hthreshold)
  exact ⟨hn, hpos⟩

theorem IsOrderOf.bonusKept {state : SlotState} (h : IsOrderOf o context condition s)
    (hstate : o.IsStoredAs state) {min max : Decimal} (hmin : min.isFinite) (hmax : max.isFinite)
    (hminVal : min.toRat = state.minBonusBps) (hmaxVal : max.toRat = state.maxBonusBps) :
    Decimal.Related Rate.BonusKept s.bonusBps.1 min ∧
      Decimal.Related Rate.BonusKept s.bonusBps.2 max := by
  obtain ⟨x, y, hx, hy, hxfin, hyfin, hlow, hhigh, hrange⟩ := Rate.ofBonusRange_ok h.bonus
  obtain rfl : s.bonusBps.1 = x := Except.ok.inj hx
  obtain rfl : s.bonusBps.2 = y := Except.ok.inj hy
  obtain ⟨m, n, hm, hn, -, -, hmval, hnval⟩ := Order.exists_bonusBps hrange
  have hmeq : (state.minBonusBps : ℤ) = m := Except.ok.inj (hstate.minBonus.symm.trans hm)
  have hneq : (state.maxBonusBps : ℤ) = n := Except.ok.inj (hstate.maxBonus.symm.trans hn)
  have hbelow := Rate.lt_of_wholeBps_le hrange.high_le
  refine ⟨⟨hxfin, hmin, ?_⟩, hyfin, hmax, ?_⟩
  · have hkept := Rate.bonusKept_of_wholeBps hxfin hlow hrange.low_nonneg
      ((mul_le_mul_of_nonneg_right hrange.low_le_high (Nat.cast_nonneg _)).trans_lt hbelow)
    rw [hminVal]
    rw [← hmval, ← hmeq] at hkept
    exact_mod_cast hkept
  · have hkept := Rate.bonusKept_of_wholeBps hyfin hhigh
      (hrange.low_nonneg.trans hrange.low_le_high) hbelow
    rw [hmaxVal]
    rw [← hnval, ← hneq] at hkept
    exact_mod_cast hkept

theorem decode_store {index : Fin 2} (state : SlotState)
    (hother : ∀ i ≠ index, ∃ other, Order.decode (context.obligation.slots.get i) = .ok other) :
    (context.store index state).obligation.slots.get index = state ∧ ∀ i ≠ index, ∃ other,
      Order.decode ((context.store index state).obligation.slots.get i) = .ok other := by
  refine ⟨Slots.get_set_same _ _ _, fun i hi => ?_⟩
  rw [OrderContext.store, Slots.get_set_other _ (Ne.symm hi)]
  exact hother i hi

theorem read_eq {order : Order} {trigger : Trigger} {action : Action} {min max : Decimal}
    (hprofile : family.profile context = .ok profile) (htype : OrderType.ofName typeName = .ok type)
    (hslot : Order.decode (context.obligation.slots.get type.slot) = .ok (some order))
    (hother : ∀ i ≠ type.slot, ∃ other, Order.decode (context.obligation.slots.get i) = .ok other)
    (htrigger : family.toTrigger profile type order.condition = .ok trigger)
    (hread : Specification.readTrigger family.kind trigger.toData = .valid trigger)
    (haction : order.opportunity.toAction = .ok action) (hreadable : action.IsReadable)
    (hmin : Rate.toBps order.minRate = .ok min) (hmax : Rate.toBps order.maxRate = .ok max)
    (hminFin : min.isFinite) (hmaxFin : max.isFinite) :
    family.read context typeName = .ok (some ⟨trigger, action, (min, max)⟩) := by
  have hbonus : Rate.toBonusRange order.minRate order.maxRate = .ok (min, max) := by
    simp only [Rate.toBonusRange, Given.read, ok_bind, hmin, hmax, pure_eq_ok]
  have hslots : ∃ first second, Order.decode context.obligation.slots.first = .ok first ∧
      Order.decode context.obligation.slots.second = .ok second ∧
      (if type.slot = OrderType.stopLoss.slot then first else second) = some order := by
    have hzero : OrderType.stopLoss.slot = 0 := rfl
    rw [hzero]
    by_cases h : type.slot = 0
    · rw [h] at hslot hother
      obtain ⟨second, hsecond⟩ := hother 1 (by decide)
      exact ⟨_, second, hslot, hsecond, by rw [if_pos h]⟩
    · obtain ⟨first, hfirst⟩ := hother 0 (Ne.symm h)
      simp only [Slots.get, if_neg h] at hslot
      exact ⟨first, _, hfirst, hslot, by rw [if_neg h]⟩
  obtain ⟨first, second, hfirst, hsecond, hpick⟩ := hslots
  have hentries := Specification.ofEntries_toEntries (s := ⟨trigger, action, (min, max)⟩) hread
    hreadable hminFin hmaxFin
  rw [Specification.toEntries] at hentries
  simp only [read, hprofile, hfirst, hsecond, htype, ok_bind, hpick, htrigger, haction, hbonus,
    liftM_ok, hentries, pure_eq_ok]

/-- What is displayed is the order in the slot of the type. -/
theorem read_ok (h : family.read context typeName = .ok (some s)) :
    ∃ profile type o trigger action bonus, family.profile context = .ok profile ∧
      OrderType.ofName typeName = .ok type ∧
      Order.decode (context.obligation.slots.get type.slot) = .ok (some o) ∧
      family.toTrigger profile type o.condition = .ok trigger ∧
      o.opportunity.toAction = .ok action ∧ Rate.toBonusRange o.minRate o.maxRate = .ok bonus ∧
      Specification.ofEntries family.kind (Specification.mk trigger action bonus).toEntries = .ok s := by
  simp only [read, bind_eq_ok] at h
  obtain ⟨profile, hprofile, first, hfirst, second, hsecond, type, htype, h⟩ := h
  have hslot : Order.decode (context.obligation.slots.get type.slot) =
      .ok (if type.slot = OrderType.stopLoss.slot then first else second) := by
    have hzero : OrderType.stopLoss.slot = 0 := rfl
    rw [hzero, Slots.get]
    split_ifs
    · exact hfirst
    · exact hsecond
  cases horder : (if type.slot = OrderType.stopLoss.slot then first else second) with
  | none => simp [horder] at h
  | some o =>
    simp only [horder, bind_eq_ok, liftM_eq_ok, pure_eq_ok, Except.ok.injEq, Option.some.injEq] at h
    obtain ⟨trigger, htrigger, action, haction, bonus, hbonus, s', hs, rfl⟩ := h
    exact ⟨profile, type, o, trigger, action, bonus, hprofile, htype, hslot.trans (by rw [horder]),
      htrigger, haction, hbonus, hs⟩

/-- An order that was created and stored is read back. What becomes of its trigger is up to the
family, and is passed on as `P`. -/
theorem IsOrderOf.exists_read {state : SlotState} {P : Trigger → Prop}
    (h : IsOrderOf o context condition s) (hstate : o.encode = .ok state)
    (hother : ∀ i ≠ type.slot, ∃ other, Order.decode (context.obligation.slots.get i) = .ok other)
    (hprofile : family.profile (context.store type.slot state) = .ok profile)
    (htype : OrderType.ofName typeName = .ok type)
    (htrigger : ∀ y, y.isFinite → y.toRat = FixedPoint.unscaled state.threshold →
      ∃ trigger, family.toTrigger profile type (condition.withThreshold y) = .ok trigger ∧
        Specification.readTrigger family.kind trigger.toData = .valid trigger ∧ P trigger) :
    ∃ t, family.read (context.store type.slot state) typeName = .ok (some t) ∧ P t.trigger ∧
      s.action.Related FixedPoint.Kept t.action ∧
      Decimal.Related Rate.BonusKept s.bonusBps.1 t.bonusBps.1 ∧
      Decimal.Related Rate.BonusKept s.bonusBps.2 t.bonusBps.2 := by
  have hstored := Order.encode_eq_ok.mp hstate
  obtain ⟨r, hdecode, hr⟩ := Order.exists_decode hstate
  obtain ⟨y, hy, hyval, hcondition⟩ := hr.condition
  obtain ⟨p, hp, hpval, hopportunity⟩ := hr.opportunity
  obtain ⟨min, hmin, hminFin, hminVal⟩ := hr.minBonus
  obtain ⟨max, hmax, hmaxFin, hmaxVal⟩ := hr.maxBonus
  obtain ⟨trigger, hread, hvalid, hP⟩ := htrigger y hy hyval
  rw [← h.condition_eq, ← hcondition] at hread
  obtain ⟨b, hb, hreadable, haction⟩ :=
    Action.exists_toAction h.opportunity hstored.parameter hp hpval
  rw [← hopportunity] at hb
  obtain ⟨hminKept, hmaxKept⟩ := h.bonusKept hstored hminFin hmaxFin hminVal hmaxVal
  obtain ⟨hslot, hslots⟩ := decode_store state hother
  rw [← hslot] at hdecode
  exact ⟨⟨trigger, b, (min, max)⟩, read_eq hprofile htype hdecode hslots hread hvalid hb hreadable
    hmin hmax hminFin hmaxFin, hP, haction, hminKept, hmaxKept⟩

end Family

end LoanOrders
