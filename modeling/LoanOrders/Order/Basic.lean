import LoanOrders.Decimal.Order
import LoanOrders.Order.State

/-!
Orders on an obligation: a condition that says when an order may be executed, an opportunity that
says what may then be repaid, and the range of the bonus for doing so. `Order.encode` gives the
state that a slot stores and `Order.decode` reads it back.
-/

namespace LoanOrders

/-- When an order may be executed. Above and below are meant strictly. A foreign condition is one
that this library does not store; it always holds. -/
inductive Condition
  | ltvAbove (threshold : Decimal)
  | ltvBelow (threshold : Decimal)
  | priceRatioAbove (threshold : Decimal)
  | priceRatioBelow (threshold : Decimal)
  | foreign (name : String) (threshold : Decimal)
deriving DecidableEq

namespace Condition

def threshold : Condition → Decimal
  | ltvAbove t | ltvBelow t | priceRatioAbove t | priceRatioBelow t | foreign _ t => t

def name : Condition → String
  | ltvAbove _ => "UserLtvAbove"
  | ltvBelow _ => "UserLtvBelow"
  | priceRatioAbove _ => "DebtCollPriceRatioAbove"
  | priceRatioBelow _ => "DebtCollPriceRatioBelow"
  | foreign name _ => name

def typeId? : Condition → Option Nat
  | ltvAbove _ => some 1
  | ltvBelow _ => some 2
  | priceRatioAbove _ => some 3
  | priceRatioBelow _ => some 4
  | foreign .. => none

def ofTypeId? : Nat → Option (Decimal → Condition)
  | 1 => some ltvAbove
  | 2 => some ltvBelow
  | 3 => some priceRatioAbove
  | 4 => some priceRatioBelow
  | _ => none

def ofName? : String → Option (Decimal → Condition)
  | "UserLtvAbove" => some ltvAbove
  | "UserLtvBelow" => some ltvBelow
  | "DebtCollPriceRatioAbove" => some priceRatioAbove
  | "DebtCollPriceRatioBelow" => some priceRatioBelow
  | _ => none

end Condition

/-- What may be repaid: up to an amount of the only borrow, or all of the most valuable borrow. A
foreign opportunity is one that this library does not store. -/
inductive Opportunity
  | debtAmount (amount : Decimal)
  | allDebt
  | foreign (name mint : String) (amount : Decimal)
deriving DecidableEq

namespace Opportunity

def parameter : Opportunity → Decimal
  | debtAmount amount => amount
  | allDebt => FixedPoint.maxValue
  | foreign _ _ amount => amount

def name : Opportunity → String
  | debtAmount _ => "DeleverageDebtAmount"
  | allDebt => "DeleverageAllDebt"
  | foreign name _ _ => name

/-- All debt, with a parameter that has to be the largest value that a slot stores. -/
def ofAllDebtParameter (given : Decimal) : Result Opportunity := do
  if ← given.same FixedPoint.maxValue then return allDebt
  else throw (.allDebtParameter given FixedPoint.maxValue)

def typeId? : Opportunity → Option Nat
  | debtAmount _ => some 0
  | allDebt => some 1
  | foreign .. => none

def ofTypeId? : Nat → Option (Decimal → Result Opportunity)
  | 0 => some fun amount => .ok (debtAmount amount)
  | 1 => some ofAllDebtParameter
  | _ => none

end Opportunity

/-- The bonus is `minRate` when the threshold is barely crossed and `maxRate` when it is exceeded
as far as can be. -/
structure Order where
  condition : Condition
  opportunity : Opportunity
  minRate : Decimal
  maxRate : Decimal
deriving DecidableEq

namespace Order

def bonusBps (rate : Decimal) : Result Int := do
  FixedPoint.toInteger (← FixedPoint.roundNearest (← Rate.toBps rate))

def encode (o : Order) : Result SlotState := do
  let some conditionType := o.condition.typeId? | throw (.unknownCondition o.condition.name)
  let some opportunityType := o.opportunity.typeId? | throw (.unknownOpportunity o.opportunity.name)
  let threshold ← FixedPoint.encode o.condition.threshold
  let parameter ← FixedPoint.encode o.opportunity.parameter
  let min ← bonusBps o.minRate
  let max ← bonusBps o.maxRate
  SlotState.withBonuses conditionType threshold opportunityType parameter min max

def ofState (s : SlotState) : Result Order := do
  let some condition := Condition.ofTypeId? s.conditionType
    | throw (.unknownConditionId s.conditionType)
  let some opportunity := Opportunity.ofTypeId? s.opportunityType
    | throw (.unknownOpportunityId s.opportunityType)
  let threshold ← FixedPoint.decode s.threshold
  let parameter ← FixedPoint.decode s.parameter
  let opportunity ← opportunity parameter
  let minRate ← Rate.ofBps (.ofNat s.minBonusBps)
  let maxRate ← Rate.ofBps (.ofNat s.maxBonusBps)
  return ⟨condition threshold, opportunity, minRate, maxRate⟩

/-- The order that a slot holds, if it holds one. -/
def decode (s : SlotState) : Result (Option Order) :=
  if s.isEmpty then .ok none else some <$> ofState s

end Order

/-- A change of one slot: the order to store in it, or none to empty it. -/
structure SlotUpdate where
  index : Fin 2
  order : Option Order
deriving DecidableEq

def SlotUpdate.state (u : SlotUpdate) : Result SlotState :=
  match u.order with
  | some o => o.encode
  | none => .ok .empty

/-- The orders of both slots. A slot that cannot be decoded fails for both. -/
def Slots.orders (s : Slots) : Result (List (Option Order)) := s.toList.mapM Order.decode

end LoanOrders
