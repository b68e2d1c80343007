import LoanOrders.Proofs.Mapping
import LoanOrders.Proofs.Snapshot
import LoanOrders.Proofs.Specification
import LoanOrders.Service

/-! Reading an order, and what stands in the slot of the other type. Both slots are decoded before one
of them is looked at. Whether the other one is refused, and why, is all that can be seen of it. -/

namespace LoanOrders

/-- Why a state cannot be decoded, if it cannot. -/
def Order.refusal? (s : SlotState) : Option Error :=
  match decode s with
  | .ok _ => none
  | .error e => some e

theorem Order.refusal?_eq_none {s : SlotState} :
    refusal? s = none ↔ ∃ order, decode s = .ok order := by
  unfold refusal?
  cases decode s <;> simp

theorem Order.refusal?_eq_some {s : SlotState} {e : Error} :
    refusal? s = some e ↔ decode s = .error e := by
  unfold refusal?
  cases decode s <;> simp

theorem Order.decode_cases {s t : SlotState} (h : refusal? s = refusal? t) :
    (∃ e, decode s = .error e ∧ decode t = .error e) ∨
      ∃ a b, decode s = .ok a ∧ decode t = .ok b := by
  cases hs : refusal? s with
  | none =>
    obtain ⟨a, ha⟩ := refusal?_eq_none.mp hs
    obtain ⟨b, hb⟩ := refusal?_eq_none.mp (h ▸ hs)
    exact .inr ⟨a, b, ha, hb⟩
  | some e => exact .inl ⟨e, refusal?_eq_some.mp hs, refusal?_eq_some.mp (h ▸ hs)⟩

namespace OrderType

theorem slot_cases {type : OrderType} {i : Fin 2} (h : i ≠ type.slot) :
    type = stopLoss ∧ i = 1 ∨ type = takeProfit ∧ i = 0 := by
  cases type with
  | stopLoss =>
    have hzero : stopLoss.slot = 0 := rfl
    rw [hzero] at h
    exact .inl ⟨rfl, by omega⟩
  | takeProfit =>
    have hone : takeProfit.slot = 1 := rfl
    rw [hone] at h
    exact .inr ⟨rfl, by omega⟩

end OrderType

namespace Family

variable {Profile : Type} {family : Family Profile} {context : OrderContext} {type : OrderType}
  {i : Fin 2}

/-- A family in which slots do not count for the profile of an obligation. -/
def IgnoresSlots (family : Family Profile) : Prop :=
  ∀ context i state, family.profile (context.store i state) = family.profile context

theorem ignoresSlots_ltv : ltvFamily.IgnoresSlots := fun _ _ _ => rfl

theorem ignoresSlots_price (stablecoins : List Token) : (priceFamily stablecoins).IgnoresSlots :=
  fun _ _ _ => rfl

/-- What reading an order can tell of a state in another slot. -/
structure SeesRefusal (family : Family Profile) (context : OrderContext) (type : OrderType) (i : Fin 2)
    (state : SlotState) : Prop where
  same : Order.refusal? state = Order.refusal? (context.obligation.slots.get i) →
    family.read (context.store i state) type.name = family.read context type.name
  refused : ∀ e profile, Order.refusal? state = some e →
    Order.refusal? (context.obligation.slots.get type.slot) = none →
    family.profile context = .ok profile →
    family.read (context.store i state) type.name = .error e

theorem IgnoresSlots.seesRefusal (hfamily : family.IgnoresSlots) (hi : i ≠ type.slot)
    (state : SlotState) : family.SeesRefusal context type i state := by
  have hname : OrderType.ofName type.name = .ok type := OrderType.ofName_eq_ok.mpr rfl
  -- The first slot is decoded before the second, so the two types do not read alike.
  rcases OrderType.slot_cases hi with ⟨rfl, rfl⟩ | ⟨rfl, rfl⟩
  · have hfirst : (context.store 1 state).obligation.slots.first = context.obligation.slots.first := rfl
    have hsecond : (context.store 1 state).obligation.slots.second = state := rfl
    constructor
    · intro h
      simp only [read, hfamily context 1 state, hfirst, hsecond, hname, ok_bind, if_true]
      rcases Order.decode_cases h with ⟨e, ha, hb⟩ | ⟨a, b, ha, hb⟩
      · have hb : Order.decode context.obligation.slots.second = .error e := hb
        simp only [ha, hb, error_bind]
      · have hb : Order.decode context.obligation.slots.second = .ok b := hb
        simp only [ha, hb, ok_bind]
    · intro e profile he hown hprofile
      obtain ⟨order, horder⟩ := Order.refusal?_eq_none.mp hown
      have horder : Order.decode context.obligation.slots.first = .ok order := horder
      simp only [read, hfamily context 1 state, hprofile, hfirst, hsecond, horder,
        Order.refusal?_eq_some.mp he, ok_bind, error_bind]
  · have hfirst : (context.store 0 state).obligation.slots.first = state := rfl
    have hsecond : (context.store 0 state).obligation.slots.second =
      context.obligation.slots.second := rfl
    have hzero : OrderType.takeProfit.slot ≠ OrderType.stopLoss.slot := by decide
    constructor
    · intro h
      simp only [read, hfamily context 0 state, hfirst, hsecond, hname, ok_bind, if_neg hzero]
      rcases Order.decode_cases h with ⟨e, ha, hb⟩ | ⟨a, b, ha, hb⟩
      · have hb : Order.decode context.obligation.slots.first = .error e := hb
        simp only [ha, hb, error_bind]
      · have hb : Order.decode context.obligation.slots.first = .ok b := hb
        simp only [ha, hb, ok_bind]
    · intro e profile he hown hprofile
      simp only [read, hfamily context 0 state, hprofile, hfirst, Order.refusal?_eq_some.mp he, ok_bind,
        error_bind]

/-- Reading an order gives the same for any two states in the slot of the other type that are both
decoded or refused with one error. A refused one is reported once the obligation fits the family and
the slot of the type itself is decoded. -/
theorem read_other_slot (context : OrderContext) (type : OrderType) {i : Fin 2} (hi : i ≠ type.slot)
    (state : SlotState) : ltvFamily.SeesRefusal context type i state ∧
      ∀ stablecoins, (priceFamily stablecoins).SeesRefusal context type i state :=
  ⟨ignoresSlots_ltv.seesRefusal hi state, fun stablecoins =>
    (ignoresSlots_price stablecoins).seesRefusal hi state⟩

/-- The long position with a stop-loss at 60 percent in its slot. -/
def stopLossPosition : OrderContext :=
  longPosition.store OrderType.stopLoss.slot ⟨1, 691752902764108186, 1, FixedPoint.maxEncoded, 50, 100⟩

/-- The stop-loss is read the same beside a take-profit, but not beside a state that is refused. -/
theorem read_other_slot_takeProfit :
    ∃ s, ltvFamily.read stopLossPosition "StopLoss" = .ok (some s) ∧
      s.trigger.number? = some (.finite false 600 (-1)) ∧
      ltvFamily.read (stopLossPosition.store 1 ⟨2, 2 ^ 58, 1, FixedPoint.maxEncoded, 50, 100⟩)
        "StopLoss" = .ok (some s) ∧
      ltvFamily.read (stopLossPosition.store 1 ⟨9, 0, 0, 0, 0, 0⟩) "StopLoss" =
        .error (.unknownConditionId 9) := by
  have hnumber : (ltvFamily.read stopLossPosition "StopLoss").map
      (fun t => t.bind fun s => s.trigger.number?) = .ok (some (.finite false 600 (-1))) := by
    decide +kernel
  obtain ⟨read, hread, hbind⟩ := map_eq_ok.mp hnumber
  obtain ⟨s, rfl, hs⟩ := Option.bind_eq_some_iff.mp hbind
  have hother : (1 : Fin 2) ≠ OrderType.stopLoss.slot := by decide
  have hdecoded : Order.refusal? ⟨2, 2 ^ 58, 1, FixedPoint.maxEncoded, 50, 100⟩ =
      Order.refusal? (stopLossPosition.obligation.slots.get 1) := by decide +kernel
  have hrefused : Order.refusal? ⟨9, 0, 0, 0, 0, 0⟩ = some (.unknownConditionId 9) := by
    decide +kernel
  have hown : Order.refusal? (stopLossPosition.obligation.slots.get OrderType.stopLoss.slot) = none := by
    decide +kernel
  obtain ⟨htakeProfit, -⟩ := read_other_slot stopLossPosition .stopLoss hother
    ⟨2, 2 ^ 58, 1, FixedPoint.maxEncoded, 50, 100⟩
  obtain ⟨hunknown, -⟩ := read_other_slot stopLossPosition .stopLoss hother ⟨9, 0, 0, 0, 0, 0⟩
  exact ⟨s, hread, hs, (htakeProfit.same hdecoded).trans hread, hunknown.refused _ () hrefused hown rfl⟩

/-- There is no stop-loss to read in an empty slot, unless the other slot cannot be decoded. -/
theorem read_of_unknown_condition :
    ltvFamily.read longPosition "StopLoss" = .ok none ∧
    ltvFamily.read (longPosition.store 1 ⟨9, 0, 0, 0, 0, 0⟩) "StopLoss" =
      .error (.unknownConditionId 9) ∧
    ¬∀ context type i state, i ≠ OrderType.slot type →
      ltvFamily.read (context.store i state) type.name = ltvFamily.read context type.name := by
  have hempty : ltvFamily.read longPosition "StopLoss" = .ok none := rfl
  have hunknown : ltvFamily.read (longPosition.store 1 ⟨9, 0, 0, 0, 0, 0⟩) "StopLoss" =
      .error (.unknownConditionId 9) := rfl
  refine ⟨hempty, hunknown, fun h => ?_⟩
  have hsame := h longPosition .stopLoss 1 ⟨9, 0, 0, 0, 0, 0⟩ (by decide)
  rw [OrderType.name, hempty, hunknown] at hsame
  cases hsame

end Family

end LoanOrders
