import LoanOrders.Proofs.Family
import LoanOrders.Proofs.Snapshot

/-! Specifications that one of the two families accepts, and which of them a slot has room for. The
threshold and the bonus are checked against the limits of a slot when an order is created, the
amount to repay is not. -/

namespace LoanOrders

/-- One of the families creates an order of a specification. -/
def OrderContext.Accepts (context : OrderContext) (typeName : String) (s : Specification)
    (u : SlotUpdate) : Prop :=
  ltvFamily.create context typeName (some s) = .ok u ∨
    ∃ stablecoins, (priceFamily stablecoins).create context typeName (some s) = .ok u

/-- A foreign condition always holds. -/
theorem Condition.exists_typeId? {c : Condition} {o : Obligation} (h : c.evaluate o = .ok none) :
    ∃ id, c.typeId? = some id := by
  cases c with
  | ltvAbove => exact ⟨1, rfl⟩
  | ltvBelow => exact ⟨2, rfl⟩
  | priceRatioAbove => exact ⟨3, rfl⟩
  | priceRatioBelow => exact ⟨4, rfl⟩
  | foreign => simp [evaluate] at h

variable {context : OrderContext} {typeName : String} {s : Specification} {u : SlotUpdate}

theorem OrderContext.Accepts.exists_order (h : context.Accepts typeName s u) :
    ∃ o, u.order = some o ∧ Family.IsOrderOf o context o.condition s := by
  rcases h with h | ⟨stablecoins, h⟩
  · obtain ⟨_, _, c, o, -, -, -, -, ho, rfl⟩ := Family.create_ok h
    obtain rfl := ho.condition_eq
    exact ⟨o, rfl, ho⟩
  · obtain ⟨_, _, c, o, -, -, -, -, ho, rfl⟩ := Family.create_ok h
    obtain rfl := ho.condition_eq
    exact ⟨o, rfl, ho⟩

theorem Family.IsOrderOf.opportunity_typeId? {o : Order} {c : Condition}
    (h : Family.IsOrderOf o context c s) : ∃ id, o.opportunity.typeId? = some id := by
  rcases Action.toOpportunity_ok h.opportunity with ⟨-, ho⟩ | ⟨x, -, ho, -⟩
  · exact ⟨1, by rw [ho]; rfl⟩
  · exact ⟨0, by rw [ho]; rfl⟩

/-- The parameter of an accepted order, which is fixed unless an amount is given. -/
theorem Family.IsOrderOf.exists_parameter_iff {o : Order} {c : Condition}
    (h : Family.IsOrderOf o context c s) :
    (∃ n, FixedPoint.encode o.opportunity.parameter = .ok n ∧ 0 < n) ↔
      ∀ a ∈ s.action.amount?, FixedPoint.IsStorable a.toRat := by
  rcases Action.toOpportunity_ok h.opportunity with ⟨ha, ho⟩ | ⟨x, ha, ho, -⟩
  · rw [ha, ho]
    constructor
    · intro _ a hnone
      cases hnone
    · intro _
      exact ⟨_, FixedPoint.encode_maxValue, by decide⟩
  · rw [ha, ho]
    simp only [Action.amount?, Option.mem_some_iff, forall_eq', Opportunity.parameter]
    exact FixedPoint.exists_encode_iff

/-- An accepted order is storable exactly if its amount is. -/
theorem exists_state_iff (h : context.Accepts typeName s u) :
    (∃ state, u.state = .ok state ∧ 1 ≤ state.threshold ∧ state.threshold ≤ 2 ^ 128 - 1 ∧
      1 ≤ state.parameter ∧ state.parameter ≤ 2 ^ 128 - 1 ∧
      state.minBonusBps ≤ state.maxBonusBps ∧ state.maxBonusBps ≤ 65535) ↔
    ∀ a ∈ s.action.amount?, FixedPoint.IsStorable a.toRat := by
  obtain ⟨o, ho, horder⟩ := h.exists_order
  obtain ⟨conditionType, hcondition⟩ := Condition.exists_typeId? horder.inactive
  have hstate : u.state = o.encode := by rw [SlotUpdate.state, ho]
  rw [hstate, ← horder.exists_parameter_iff]
  constructor
  · rintro ⟨state, hencode, -, -, hpos, -⟩
    exact ⟨state.parameter, (Order.encode_eq_ok.mp hencode).parameter, hpos⟩
  · rintro ⟨parameter, hparameter, hparameterPos⟩
    obtain ⟨threshold, hthreshold, hthresholdPos⟩ := horder.storable
    obtain ⟨-, -, hthresholdMax⟩ := FixedPoint.encode_ok hthreshold
    obtain ⟨-, -, hparameterMax⟩ := FixedPoint.encode_ok hparameter
    obtain ⟨opportunityType, hopportunity⟩ := horder.opportunity_typeId?
    obtain ⟨_, _, -, -, -, -, -, -, hrange⟩ := Rate.ofBonusRange_ok horder.bonus
    obtain ⟨min, max, hmin, hmax, hle, hlimit, -, -⟩ := Order.exists_bonusBps hrange
    refine ⟨⟨conditionType, threshold, opportunityType, parameter, min, max⟩,
      Order.encode_eq_ok.mpr ⟨hcondition, hopportunity, hthreshold, hparameter, hmin, hmax,
        hle.trans hlimit, hlimit⟩, hthresholdPos, hthresholdMax, hparameterPos, hparameterMax, hle,
      hlimit⟩

/-- A repayment of 100 lamports is stored. -/
theorem exists_state_iff_hundred : ∃ state,
    Order.encode ⟨.ltvAbove (.finite false 6 (-1)), .debtAmount (.ofNat 100), .finite false 5 (-3),
      .finite false 1 (-2)⟩ = .ok state ∧ 1 ≤ state.parameter := by
  have hcreate : ltvFamily.create longPosition "StopLoss"
      (some ⟨.ltv (.stopLoss (.ofNat 60)), .partialRepay (.ofNat 100), (.ofNat 50, .ofNat 100)⟩) =
      .ok ⟨0, some ⟨.ltvAbove (.finite false 6 (-1)), .debtAmount (.ofNat 100),
        .finite false 5 (-3), .finite false 1 (-2)⟩⟩ := by decide +kernel
  have hamount : FixedPoint.IsStorable (Decimal.ofNat 100).toRat := by
    rw [Decimal.toRat_ofNat]
    norm_num [FixedPoint.IsStorable]
  obtain ⟨state, hstate, -, -, hpos, -⟩ := (exists_state_iff (.inl hcreate)).mpr fun a ha => by
    obtain rfl : Decimal.ofNat 100 = a := by simpa [Action.amount?] using ha
    exact hamount
  exact ⟨state, hstate, hpos⟩

/-- An amount that is too small to be stored is accepted, and stored as nothing. -/
theorem state_of_tiny_amount :
    ltvFamily.create longPosition "StopLoss"
      (some ⟨.ltv (.stopLoss (.ofNat 60)), .partialRepay (.finite false 1 (-20)),
        (.ofNat 50, .ofNat 100)⟩) =
      .ok ⟨0, some ⟨.ltvAbove (.finite false 6 (-1)), .debtAmount (.finite false 1 (-20)),
        .finite false 5 (-3), .finite false 1 (-2)⟩⟩ ∧
    Order.encode ⟨.ltvAbove (.finite false 6 (-1)), .debtAmount (.finite false 1 (-20)),
      .finite false 5 (-3), .finite false 1 (-2)⟩ =
      .ok ⟨1, 691752902764108186, 0, 0, 50, 100⟩ := by
  decide +kernel

end LoanOrders
