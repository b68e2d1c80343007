import LoanOrders.Proofs.Decodable
import LoanOrders.Proofs.Family
import LoanOrders.Proofs.Mapping
import LoanOrders.Proofs.Snapshot

/-! Requests that follow each other on one obligation. Whatever fails on the way, each slot ends up
with what the last accepted request for its order type stored there, which is nothing or an order of
that type that can be decoded. -/

namespace LoanOrders

/-- A slot with an order of a type, as it was created. -/
structure SlotState.HoldsOrder (s : SlotState) (type : OrderType) : Prop where
  condition : s.conditionType ∈ type.conditionTypes
  threshold_pos : 1 ≤ s.threshold
  threshold_le : s.threshold ≤ FixedPoint.maxEncoded
  opportunity : s.opportunityType = 0 ∨
    s.opportunityType = 1 ∧ s.parameter = FixedPoint.maxEncoded
  parameter_le : s.parameter ≤ FixedPoint.maxEncoded
  bonus_le : s.minBonusBps ≤ s.maxBonusBps
  maxBonus_le : s.maxBonusBps ≤ Rate.maxBonusBps

namespace SlotState

variable {s : SlotState} {type : OrderType}

theorem HoldsOrder.hasKnownTypes (h : s.HoldsOrder type) : s.HasKnownTypes := by
  constructor
  · have hid := h.condition
    cases type <;>
      simp only [OrderType.conditionTypes, List.mem_cons, List.not_mem_nil, or_false] at hid <;>
      omega
  · rcases h.opportunity with hamount | ⟨hall, -⟩ <;> omega

theorem HoldsOrder.exists_decode (h : s.HoldsOrder type) : ∃ o, Order.decode s = .ok (some o) := by
  have houtcome := Order.outcome_decode (h.bonus_le.trans h.maxBonus_le) h.maxBonus_le
  generalize Order.decode s = result at houtcome ⊢
  cases houtcome with
  | empty hempty =>
    have := h.hasKnownTypes.condition
    omega
  | unknown _ htypes => exact absurd h.hasKnownTypes htypes
  | undecodable _ hnumbers =>
    exact absurd ⟨FixedPoint.isDecodable_of_le h.threshold_le,
      FixedPoint.isDecodable_of_le h.parameter_le⟩ hnumbers
  | otherDebt _ _ hall hdebt =>
    rcases h.opportunity with hamount | ⟨-, hmax⟩
    · omega
    · exact absurd hmax hdebt
  | held => exact ⟨_, rfl⟩

end SlotState

theorem Family.IsOrderOf.holdsOrder {context : OrderContext} {condition : Condition}
    {s : Specification} {o : Order} {state : SlotState} {type : OrderType}
    (h : IsOrderOf o context condition s) (hstored : o.IsStoredAs state)
    (htype : ∃ id ∈ type.conditionTypes, condition.typeId? = some id) : state.HoldsOrder type := by
  have hcondition := h.condition_eq
  subst hcondition
  obtain ⟨id, hid, htypeId⟩ := htype
  obtain rfl : state.conditionType = id := by simpa [hstored.conditionType] using htypeId
  obtain ⟨hn, hpos⟩ := h.encode_threshold hstored
  obtain ⟨-, -, -, -, -, -, -, -, hrange⟩ := Rate.ofBonusRange_ok h.bonus
  obtain ⟨min, max, hmin, hmax, hle, -, -, -⟩ := Order.exists_bonusBps hrange
  have hminEq : (state.minBonusBps : ℤ) = min := Except.ok.inj (hstored.minBonus.symm.trans hmin)
  have hmaxEq : (state.maxBonusBps : ℤ) = max := Except.ok.inj (hstored.maxBonus.symm.trans hmax)
  refine ⟨hid, hpos, (FixedPoint.encode_ok hn).2.2, ?_, (FixedPoint.encode_ok hstored.parameter).2.2,
    by omega, hstored.maxBonus_le⟩
  have hopportunity := hstored.opportunityType
  have hparameter := hstored.parameter
  rcases Action.toOpportunity_ok h.opportunity with ⟨-, hall⟩ | ⟨x, -, hamount, -⟩
  · rw [hall] at hopportunity hparameter
    exact .inr ⟨(Option.some.inj hopportunity).symm,
      Except.ok.inj (hparameter.symm.trans FixedPoint.encode_maxValue)⟩
  · rw [hamount] at hopportunity
    exact .inl (Option.some.inj hopportunity).symm

namespace Slots

def AreTyped (slots : Slots) : Prop :=
  ∀ type : OrderType, (slots.get type.slot).isEmpty ∨ (slots.get type.slot).HoldsOrder type

variable {slots : Slots} {type : OrderType} {state : SlotState}

theorem AreTyped.set (h : slots.AreTyped) (hstate : state.isEmpty ∨ state.HoldsOrder type) :
    (slots.set type.slot state).AreTyped := by
  intro other
  by_cases hsame : type = other
  · subst hsame
    rwa [get_set_same]
  · rw [get_set_other _ (OrderType.slot_injective.ne hsame)]
    exact h other

theorem AreTyped.exists_decode (h : slots.AreTyped) (type : OrderType) :
    ∃ order, Order.decode (slots.get type.slot) = .ok order := by
  rcases h type with hempty | hholds
  · exact ⟨none, by rw [Order.decode, if_pos hempty]⟩
  · obtain ⟨o, ho⟩ := hholds.exists_decode
    exact ⟨some o, ho⟩

theorem AreTyped.exists_orders (h : slots.AreTyped) : ∃ orders, slots.orders = .ok orders := by
  obtain ⟨first, hfirst⟩ := h.exists_decode .stopLoss
  obtain ⟨second, hsecond⟩ := h.exists_decode .takeProfit
  have hfirst : Order.decode slots.first = .ok first := hfirst
  have hsecond : Order.decode slots.second = .ok second := hsecond
  refine ⟨[first, second], ?_⟩
  simp only [orders, toList, List.mapM_cons, List.mapM_nil, hfirst, hsecond, ok_bind, pure_eq_ok]

end Slots

namespace Request

def typeName : Request → String
  | setLtv typeName _ | setPrice typeName _ _ | cancel typeName => typeName

def specification? : Request → Option Specification
  | setLtv _ s | setPrice _ s _ => s
  | cancel _ => none

end Request

/-- What a request for a type of orders has stored. -/
inductive SlotState.IsStoredFor (type : OrderType) : Option Specification → SlotState → Prop
  | emptied : IsStoredFor type none .empty
  | held {s : Specification} {state : SlotState} (h : state.HoldsOrder type) :
      IsStoredFor type (some s) state

theorem SlotState.IsStoredFor.isEmpty_or_holdsOrder {type : OrderType} {s : Option Specification}
    {state : SlotState} (h : IsStoredFor type s state) : state.isEmpty ∨ state.HoldsOrder type := by
  cases h with
  | emptied => exact .inl rfl
  | held h => exact .inr h

section Accepted

variable {Profile : Type} {family : Family Profile} {context : OrderContext} {typeName : String}
  {s : Option Specification} {u : SlotUpdate} {state : SlotState}

theorem Family.IsTyped.isStoredFor (hfamily : family.IsTyped)
    (h : family.create context typeName s = .ok u) (hstate : u.state = .ok state) :
    ∃ type : OrderType, typeName = type.name ∧ u.index = type.slot ∧ state.IsStoredFor type s := by
  cases s with
  | none =>
    simp only [create, bind_eq_ok, pure_eq_ok, Except.ok.injEq] at h
    obtain ⟨_, -, type, htype, rfl⟩ := h
    obtain rfl := Except.ok.inj hstate
    exact ⟨type, OrderType.ofName_eq_ok.mp htype, rfl, .emptied⟩
  | some s =>
    obtain ⟨profile, type, condition, o, -, htype, hcondition, -, ho, rfl⟩ := create_ok h
    have hstored : o.encode = .ok state := hstate
    have hid := hfamily profile type s.trigger condition hcondition
    exact ⟨type, OrderType.ofName_eq_ok.mp htype, rfl,
      .held (ho.holdsOrder (Order.encode_eq_ok.mp hstored) hid)⟩

theorem Request.isStoredFor {request : Request} {service : Service}
    (h : request.update service context = .ok u) (hstate : u.state = .ok state) :
    ∃ type : OrderType, request.typeName = type.name ∧ u.index = type.slot ∧
      state.IsStoredFor type request.specification? := by
  cases request with
  | setLtv typeName s => exact LtvFamily.isTyped.isStoredFor h hstate
  | setPrice typeName s named =>
    exact (PriceFamily.isTyped (service.stablecoins context.market named)).isStoredFor h hstate
  | cancel typeName =>
    obtain ⟨type, htype, hu⟩ := bind_eq_ok.mp h
    obtain rfl := Except.ok.inj hu
    obtain rfl := Except.ok.inj hstate
    exact ⟨type, OrderType.ofName_eq_ok.mp htype, rfl, .emptied⟩

end Accepted

/-- A request with the settings and the market that it is made under. -/
structure Call where
  service : Service
  market : Market
  request : Request

namespace Call

def advance (call : Call) (o : Obligation) : Result (OrderContext × SlotUpdate × SlotState) :=
  OrderContext.advance ⟨call.market, o⟩ call.service call.request

def apply (call : Call) (o : Obligation) : Obligation :=
  (OrderContext.apply call.service ⟨call.market, o⟩ call.request).obligation

/-- The state that a request stores, if it succeeds. -/
def stored? (call : Call) (o : Obligation) : Option SlotState :=
  match call.advance o with
  | .ok (_, _, state) => some state
  | .error _ => none

variable {call : Call} {o : Obligation} {state : SlotState}

theorem apply_of_none (h : call.stored? o = none) : call.apply o = o := by
  cases hadvance : OrderContext.advance ⟨call.market, o⟩ call.service call.request with
  | error e => simp [apply, OrderContext.apply, hadvance]
  | ok after => simp [stored?, advance, hadvance] at h

/-- All that a successful request does. -/
theorem apply_of_some (h : call.stored? o = some state) :
    ∃ type : OrderType, call.request.typeName = type.name ∧
      call.apply o = { o with slots := o.slots.set type.slot state } ∧
      state.IsStoredFor type call.request.specification? := by
  cases hadvance : OrderContext.advance ⟨call.market, o⟩ call.service call.request with
  | error e => simp [stored?, advance, hadvance] at h
  | ok after =>
    have hsteps := hadvance
    simp only [OrderContext.advance, bind_eq_ok, pure_eq_ok, Except.ok.injEq] at hsteps
    obtain ⟨u, hu, state', hstate, rfl⟩ := hsteps
    obtain rfl : state' = state := by simpa [stored?, advance, hadvance] using h
    obtain ⟨type, hname, hindex, hstored⟩ := Request.isStoredFor hu hstate
    refine ⟨type, hname, ?_, hstored⟩
    simp only [apply, OrderContext.apply, hadvance, OrderContext.store, hindex]

def storedFor? (call : Call) (type : OrderType) (o : Obligation) : Option SlotState :=
  if call.request.typeName = type.name then call.stored? o else none

theorem get_apply (call : Call) (o : Obligation) (type : OrderType) :
    (call.apply o).slots.get type.slot = (call.storedFor? type o).getD (o.slots.get type.slot) := by
  cases hstored : call.stored? o with
  | none => rw [apply_of_none hstored, storedFor?, hstored, ite_self, Option.getD_none]
  | some state =>
    obtain ⟨own, hname, hafter, -⟩ := apply_of_some hstored
    rw [hafter, storedFor?, hstored, hname]
    by_cases hsame : own = type
    · subst hsame
      rw [if_pos rfl, Slots.get_set_same, Option.getD_some]
    · rw [if_neg (OrderType.name_injective.ne hsame),
        Slots.get_set_other _ (OrderType.slot_injective.ne hsame), Option.getD_none]

theorem areTyped_apply (call : Call) (h : o.slots.AreTyped) : (call.apply o).slots.AreTyped := by
  cases hstored : call.stored? o with
  | none => rwa [apply_of_none hstored]
  | some state =>
    obtain ⟨type, -, hafter, hstate⟩ := apply_of_some hstored
    rw [hafter]
    exact h.set hstate.isEmpty_or_holdsOrder

end Call

namespace Obligation

def run (o : Obligation) (calls : List Call) : Obligation :=
  calls.foldl (fun o call => call.apply o) o

/-- The states that a run stores in the slot of a type, one after the other. -/
def stored (type : OrderType) : Obligation → List Call → List SlotState
  | _, [] => []
  | o, call :: calls => (call.storedFor? type o).toList ++ stored type (call.apply o) calls

variable {o : Obligation}

theorem areTyped_run (h : o.slots.AreTyped) (calls : List Call) : (o.run calls).slots.AreTyped := by
  induction calls generalizing o with
  | nil => exact h
  | cons call calls ih => exact ih (call.areTyped_apply h)

theorem get_run (type : OrderType) (o : Obligation) (calls : List Call) :
    (o.run calls).slots.get type.slot = (o.stored type calls).getLastD (o.slots.get type.slot) := by
  induction calls generalizing o with
  | nil => rfl
  | cons call calls ih =>
    have htail : (o.run (call :: calls)).slots.get type.slot =
        (stored type (call.apply o) calls).getLastD ((call.apply o).slots.get type.slot) := ih _
    rw [htail, call.get_apply, stored]
    -- What the first call stores is what the rest of the run starts from.
    cases call.storedFor? type o with
    | none => rfl
    | some state => exact List.getLastD_cons.symm

/-- After any requests to an obligation without orders, each slot holds what the last accepted one for
its type has stored: nothing, or an order of that type that can be decoded. Another request changes
at most the slot of its own type, and nothing if it fails. -/
theorem slots_run (hempty : ∀ type : OrderType, (o.slots.get type.slot).isEmpty) (calls : List Call) :
    (∀ type : OrderType,
      (((o.run calls).slots.get type.slot).isEmpty ∨
        ((o.run calls).slots.get type.slot).HoldsOrder type) ∧
      (o.run calls).slots.get type.slot = (o.stored type calls).getLastD (o.slots.get type.slot)) ∧
    (∃ orders, (o.run calls).orders = .ok orders) ∧
    ∀ call : Call,
      (call.stored? (o.run calls) = none → o.run (calls ++ [call]) = o.run calls) ∧
      ∀ type : OrderType,
        (call.request.typeName ≠ type.name →
          (o.run (calls ++ [call])).slots.get type.slot = (o.run calls).slots.get type.slot) ∧
        (call.request.typeName = type.name → ∀ state, call.stored? (o.run calls) = some state →
          (o.run (calls ++ [call])).slots.get type.slot = state ∧
          state.IsStoredFor type call.request.specification?) := by
  have htyped : (o.run calls).slots.AreTyped := areTyped_run (fun type => .inl (hempty type)) calls
  refine ⟨fun type => ⟨htyped type, get_run type o calls⟩, htyped.exists_orders, fun call => ?_⟩
  have hlast : o.run (calls ++ [call]) = call.apply (o.run calls) := by simp [run]
  rw [hlast]
  refine ⟨Call.apply_of_none, fun type => ⟨fun hother => ?_, fun hname state hstate => ?_⟩⟩
  · rw [call.get_apply, Call.storedFor?, if_neg hother, Option.getD_none]
  · obtain ⟨own, hown, -, hstored⟩ := Call.apply_of_some hstate
    obtain rfl : own = type := OrderType.name_injective (hown.symm.trans hname)
    exact ⟨by rw [call.get_apply, Call.storedFor?, if_pos hname, hstate, Option.getD_some], hstored⟩

/-- A stop-loss by the loan to value is stored and cancelled, while a take-profit by the price stays. -/
theorem slots_run_longPosition :
    let service : Service := ⟨["USD"], [], .list [.int 50, .int 100]⟩
    let call (request : Request) : Call := ⟨service, longPosition.market, request⟩
    let bonus : Decimal × Decimal := (.ofNat 50, .ofNat 100)
    let calls := [
      call (.setLtv "StopLoss" (some ⟨.ltv (.stopLoss (.ofNat 60)), .fullRepay, bonus⟩)),
      call (.setPrice "TakeProfit"
        (some ⟨.price (.longTakeProfit (.ofNat 125)), .fullRepay, bonus⟩) none),
      call (.cancel "StopLoss")]
    let after := longPosition.obligation.run calls
    longPosition.obligation.stored .stopLoss calls =
      [⟨1, 691752902764108186, 1, FixedPoint.maxEncoded, 50, 100⟩, .empty] ∧
    after.slots.get OrderType.stopLoss.slot = .empty ∧
    (after.slots.get OrderType.takeProfit.slot).HoldsOrder .takeProfit := by
  intro service call bonus calls after
  have hempty (type : OrderType) : (longPosition.obligation.slots.get type.slot).isEmpty := by
    cases type <;> rfl
  obtain ⟨hslots, -⟩ := slots_run hempty calls
  have hstored : longPosition.obligation.stored .stopLoss calls =
      [⟨1, 691752902764108186, 1, FixedPoint.maxEncoded, 50, 100⟩, .empty] := by decide +kernel
  have hfull : (after.slots.get OrderType.takeProfit.slot).isEmpty = false := by decide +kernel
  refine ⟨hstored, ?_, ?_⟩
  · rw [(hslots .stopLoss).2, hstored]
    rfl
  · rcases (hslots .takeProfit).1 with hnone | hholds
    · exact absurd (hfull.symm.trans hnone) Bool.false_ne_true
    · exact hholds

end Obligation

theorem OrderContext.market_apply (service : Service) (context : OrderContext) (request : Request) :
    (context.apply service request).market = context.market := by
  rw [apply]
  cases hadvance : context.advance service request with
  | error e => rfl
  | ok after =>
    simp only [advance, bind_eq_ok, pure_eq_ok, Except.ok.injEq] at hadvance
    obtain ⟨_, -, _, -, rfl⟩ := hadvance
    rfl

/-- The requests of a session are calls under the same settings and in the same market. -/
theorem OrderContext.obligation_run (service : Service) (context : OrderContext)
    (requests : List Request) : (context.run service requests).obligation =
      context.obligation.run (requests.map fun request => ⟨service, context.market, request⟩) := by
  induction requests generalizing context with
  | nil => rfl
  | cons request requests ih =>
    have htail := ih (context.apply service request)
    rw [market_apply] at htail
    exact htail

end LoanOrders
