import LoanOrders.Family.Ltv
import LoanOrders.Family.Price
import LoanOrders.Proofs.Outcome

/-! Which condition a family makes of a trigger. The order type alone decides whether it is one above
or below its threshold, and so which ids it can have in a slot. -/

namespace LoanOrders

def PriceTriggerType.position : PriceTriggerType → PositionType
  | .longStopLoss | .longTakeProfit => .long
  | .shortStopLoss | .shortTakeProfit => .short

/-- The threshold that a price stands for on a position, and back. -/
def PriceFamily.convert : PositionType → Decimal → Except Signal Decimal
  | .long, x => Rate.inverse x
  | .short, x => .ok x

namespace OrderType

/-- The ids of the conditions that orders of a type can have. -/
def conditionTypes : OrderType → List Nat
  | stopLoss => [1, 3]
  | takeProfit => [2, 4]

def ltvTrigger : OrderType → Decimal → LtvTrigger
  | stopLoss => .stopLoss
  | takeProfit => .takeProfit

def ltvCondition : OrderType → Decimal → Condition
  | stopLoss => .ltvAbove
  | takeProfit => .ltvBelow

def priceTrigger : OrderType → PositionType → PriceTriggerType
  | stopLoss, .long => .longStopLoss
  | takeProfit, .long => .longTakeProfit
  | stopLoss, .short => .shortStopLoss
  | takeProfit, .short => .shortTakeProfit

def priceCondition : OrderType → Decimal → Condition
  | stopLoss => .priceRatioAbove
  | takeProfit => .priceRatioBelow

variable {type : OrderType} {typeName : String}

theorem ofName_eq_ok : ofName typeName = .ok type ↔ typeName = type.name := by
  constructor
  · intro h
    unfold ofName at h
    cases hname : ofName? typeName with
    | none => simp [hname] at h
    | some t =>
      obtain rfl : t = type := by simpa [hname] using h
      unfold ofName? at hname
      split at hname
      · obtain rfl := Option.some.inj hname
        rfl
      · obtain rfl := Option.some.inj hname
        rfl
      · simp at hname
  · rintro rfl
    rw [ofName, ofName?_name]

theorem name_injective : Function.Injective name := by
  intro a b h
  have hread : ofName? a.name = ofName? b.name := by rw [h]
  rw [ofName?_name, ofName?_name] at hread
  exact Option.some.inj hread

theorem slot_injective : Function.Injective slot := by
  intro a b h
  cases a <;> cases b <;> first | rfl | cases h

theorem typeId?_ltvCondition (type : OrderType) (t : Decimal) :
    ∃ id ∈ type.conditionTypes, (type.ltvCondition t).typeId? = some id := by
  cases type
  · exact ⟨1, by decide, rfl⟩
  · exact ⟨2, by decide, rfl⟩

theorem typeId?_priceCondition (type : OrderType) (t : Decimal) :
    ∃ id ∈ type.conditionTypes, (type.priceCondition t).typeId? = some id := by
  cases type
  · exact ⟨3, by decide, rfl⟩
  · exact ⟨4, by decide, rfl⟩

@[simp] theorem position_priceTrigger (type : OrderType) (position : PositionType) :
    (type.priceTrigger position).position = position := by
  cases position <;> cases type <;> rfl

@[simp] theorem threshold_ltvCondition (type : OrderType) (t : Decimal) :
    (type.ltvCondition t).threshold = t := by
  cases type <;> rfl

@[simp] theorem threshold_priceCondition (type : OrderType) (t : Decimal) :
    (type.priceCondition t).threshold = t := by
  cases type <;> rfl

end OrderType

variable {type : OrderType} {trigger : Trigger} {c : Condition}

/-- An order type takes the triggers of one kind and refuses all others. -/
theorem LtvFamily.toCondition_cases (type : OrderType) (trigger : Trigger) :
    (∃ x, trigger = .ltv (type.ltvTrigger x) ∧
      toCondition type trigger = do return type.ltvCondition (← Rate.ofPercent x)) ∨
    (∀ x, trigger ≠ .ltv (type.ltvTrigger x)) ∧
      toCondition type trigger = .error (.ltvTriggerMismatch type trigger.name) := by
  cases type <;> rcases trigger with (x | x) | t | d
  case stopLoss.ltv.stopLoss | takeProfit.ltv.takeProfit => exact .inl ⟨x, rfl, rfl⟩
  all_goals exact .inr ⟨nofun, rfl⟩

theorem LtvFamily.toCondition_eq_ok : toCondition type trigger = .ok c ↔
    ∃ x t, trigger = .ltv (type.ltvTrigger x) ∧ Rate.ofPercent x = .ok t ∧ c = type.ltvCondition t := by
  constructor
  · intro h
    rcases toCondition_cases type trigger with ⟨x, rfl, hx⟩ | ⟨-, hx⟩
    · obtain ⟨t, ht, hc⟩ := bind_eq_ok.mp (hx.symm.trans h)
      exact ⟨x, t, rfl, liftM_eq_ok.mp ht, (Except.ok.inj hc).symm⟩
    · exact absurd (hx.symm.trans h) (by simp)
  · rintro ⟨x, t, rfl, ht, rfl⟩
    cases type <;>
      simp only [toCondition, OrderType.ltvTrigger, OrderType.ltvCondition, ht, liftM_ok, ok_bind,
        pure_eq_ok]

theorem PriceFamily.toCondition_cases (position : PositionType) (type : OrderType)
    (trigger : Trigger) :
    (∃ x, trigger = .price (.make (type.priceTrigger position) x) ∧
      toCondition position type trigger = do return type.priceCondition (← convert position x)) ∨
    (∀ x, trigger ≠ .price (.make (type.priceTrigger position) x)) ∧
      toCondition position type trigger = .error (.priceTriggerMismatch type position trigger.name) := by
  cases position <;> cases type <;> rcases trigger with t | (x | x | x | x) | d
  case long.stopLoss.price.longStopLoss | long.takeProfit.price.longTakeProfit |
    short.stopLoss.price.shortStopLoss | short.takeProfit.price.shortTakeProfit =>
    exact .inl ⟨x, rfl, rfl⟩
  all_goals exact .inr ⟨nofun, rfl⟩

theorem PriceFamily.toCondition_eq_ok {position : PositionType} :
    toCondition position type trigger = .ok c ↔
      ∃ x t, trigger = .price (.make (type.priceTrigger position) x) ∧
        convert position x = .ok t ∧ c = type.priceCondition t := by
  constructor
  · intro h
    rcases toCondition_cases position type trigger with ⟨x, rfl, hx⟩ | ⟨-, hx⟩
    · obtain ⟨t, ht, hc⟩ := bind_eq_ok.mp (hx.symm.trans h)
      exact ⟨x, t, rfl, liftM_eq_ok.mp ht, (Except.ok.inj hc).symm⟩
    · exact absurd (hx.symm.trans h) (by simp)
  · rintro ⟨x, t, rfl, ht, rfl⟩
    cases position with
    | short =>
      obtain rfl := Except.ok.inj ht
      cases type <;> rfl
    | long =>
      have ht : Rate.inverse x = .ok t := ht
      cases type <;>
        simp only [toCondition, OrderType.priceTrigger, PriceTrigger.make, OrderType.priceCondition, ht,
          liftM_ok, ok_bind, pure_eq_ok]

/-- A family in which the order type decides what id a condition has. -/
def Family.IsTyped {Profile : Type} (family : Family Profile) : Prop :=
  ∀ profile type trigger c, family.toCondition profile type trigger = .ok c →
    ∃ id ∈ type.conditionTypes, c.typeId? = some id

theorem LtvFamily.isTyped : ltvFamily.IsTyped := by
  intro profile type trigger c h
  obtain ⟨_, t, -, -, rfl⟩ := toCondition_eq_ok.mp h
  exact type.typeId?_ltvCondition t

theorem PriceFamily.isTyped (stablecoins : List Token) : (priceFamily stablecoins).IsTyped := by
  intro position type trigger c h
  obtain ⟨_, t, -, -, rfl⟩ := toCondition_eq_ok.mp h
  exact type.typeId?_priceCondition t

end LoanOrders
