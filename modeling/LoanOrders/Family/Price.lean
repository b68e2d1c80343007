import LoanOrders.Family.Basic

/-!
Orders that are triggered by a price. They fit an obligation with one deposit and one borrow of
which one is a stablecoin. Conditions are about the price of the debt in collateral; a long position
states its trigger by the price of the collateral, which is the inverse.
-/

namespace LoanOrders.PriceFamily

/-- The direction of an obligation, from which of its two tokens is among the stablecoins. -/
def positionType (stablecoins : List Token) (context : OrderContext) : Result PositionType := do
  let collateral ← single "deposit" (context.obligation.deposits.map Prod.fst)
  let debt ← single "borrow" (context.obligation.borrows.map Prod.fst)
  let stable ← context.market.addressesOf stablecoins
  if stable.contains collateral then
    check (!stable.contains debt) .allStablecoins
    return .short
  else
    check (stable.contains debt) .noStablecoins
    return .long

def toCondition (position : PositionType) (type : OrderType) (trigger : Trigger) :
    Result Condition := do
  match position, type, trigger with
  | .long, .stopLoss, .price (.longStopLoss x) => return .priceRatioAbove (← Rate.inverse x)
  | .long, .takeProfit, .price (.longTakeProfit x) => return .priceRatioBelow (← Rate.inverse x)
  | .short, .stopLoss, .price (.shortStopLoss x) => return .priceRatioAbove x
  | .short, .takeProfit, .price (.shortTakeProfit x) => return .priceRatioBelow x
  | position, type, trigger => throw (.priceTriggerMismatch type position trigger.name)

/-- The trigger of a condition on a position, whatever the threshold. -/
def triggerOf (position : PositionType) (type : OrderType) (condition : Condition) :
    Result Trigger := do
  match position, type, condition with
  | .long, .stopLoss, .priceRatioAbove t =>
    return .price (← PriceTrigger.ofPrice .longStopLoss (← Rate.inverse t))
  | .long, .takeProfit, .priceRatioBelow t =>
    return .price (← PriceTrigger.ofPrice .longTakeProfit (← Rate.inverse t))
  | .short, .stopLoss, .priceRatioAbove t =>
    return .price (← PriceTrigger.ofPrice .shortStopLoss t)
  | .short, .takeProfit, .priceRatioBelow t =>
    return .price (← PriceTrigger.ofPrice .shortTakeProfit t)
  | position, type, condition => throw (.priceConditionMismatch type position condition.name)

def toTrigger (position : PositionType) (type : OrderType) (condition : Condition) :
    Result Trigger := do
  check (← condition.threshold.gt .zero) (.nonPositiveThreshold type condition.threshold)
  triggerOf position type condition

/-- The trigger of a condition, for a position and an order type that are given by name. The name of
the position is looked at last. -/
def toTriggerNamed (position type : String) (condition : Condition) : Result Trigger := do
  let positive ← condition.threshold.gt .zero
  let type ← OrderType.ofName type
  check positive (.nonPositiveThreshold type condition.threshold)
  triggerOf (← PositionType.ofName position) type condition

end PriceFamily

/-- The family of triggers by price, where some tokens are taken for stablecoins. -/
def priceFamily (stablecoins : List Token) : Family PositionType where
  kind := .price
  profile := PriceFamily.positionType stablecoins
  toCondition := PriceFamily.toCondition
  toTrigger := PriceFamily.toTrigger
  checkCondition := fun _ => .ok ()

end LoanOrders
