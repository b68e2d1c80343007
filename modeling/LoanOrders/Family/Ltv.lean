import LoanOrders.Family.Basic

/-!
Orders that are triggered by the loan to value. They do not fit a deposit that secures no loan: it
counts in the loan to value as it is stored, but not in the one that users see.
-/

namespace LoanOrders.LtvFamily

def lowest : Decimal := .finite false 1 (-2)

def highest : Decimal := .finite false 99 (-2)

def profile (context : OrderContext) : Result Unit :=
  context.obligation.deposits.forM fun entry => do
    let reserve ← context.market.reserveAt entry.1
    check (reserve.loanToValuePct != 0) (.zeroLtvCollateral reserve.symbol)

def toCondition (type : OrderType) (trigger : Trigger) : Result Condition := do
  match type, trigger with
  | .stopLoss, .ltv (.stopLoss x) => return .ltvAbove (← Rate.ofPercent x)
  | .takeProfit, .ltv (.takeProfit x) => return .ltvBelow (← Rate.ofPercent x)
  | type, trigger => throw (.ltvTriggerMismatch type trigger.name)

def toTrigger (type : OrderType) (condition : Condition) : Result Trigger := do
  match type, condition with
  | .stopLoss, .ltvAbove t => return .ltv (← LtvTrigger.ofPercent .stopLoss (← Rate.toPercent t))
  | .takeProfit, .ltvBelow t =>
    return .ltv (← LtvTrigger.ofPercent .takeProfit (← Rate.toPercent t))
  | type, condition => throw (.ltvConditionMismatch type condition.name)

def checkCondition (condition : Condition) : Result Unit := do
  let above ← lowest.le condition.threshold
  let inside ← if above then condition.threshold.le highest else pure false
  let low ← Context.standard.normalize (← Rate.toPercent lowest)
  let high ← Context.standard.normalize (← Rate.toPercent highest)
  let given ← Rate.toPercent condition.threshold
  check inside (.ltvOutOfRange low high given)

end LtvFamily

def ltvFamily : Family Unit where
  kind := .ltv
  profile := LtvFamily.profile
  toCondition := fun _ => LtvFamily.toCondition
  toTrigger := fun _ => LtvFamily.toTrigger
  checkCondition := LtvFamily.checkCondition

end LoanOrders
