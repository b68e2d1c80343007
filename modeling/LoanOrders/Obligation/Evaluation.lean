import LoanOrders.Obligation.Basic

/-!
Whether the condition of an order holds for an obligation, and how far its threshold is crossed: `0`
at the threshold and `1` at the most extreme value, which is where liquidation starts for a
stop-loss and zero for a take-profit.
-/

namespace LoanOrders

namespace Condition

/-- The distance by which a value lies above a threshold, on the way from there to liquidation. A
threshold that lies past liquidation is crossed by all the distance there is. -/
def distanceAbove (current threshold liquidation : Decimal) : Except Signal (Option Decimal) := do
  if ← current.le threshold then return none
  if ← threshold.ge liquidation then return some .one
  let crossed ← Context.standard.sub current threshold
  let whole ← Context.standard.sub liquidation threshold
  return some (← Context.standard.div crossed whole)

/-- The distance by which a value lies below a threshold, on the way from there to zero. -/
def distanceBelow (current threshold : Decimal) : Except Signal (Option Decimal) := do
  if ← current.ge threshold then return none
  let crossed ← Context.standard.sub threshold current
  return some (← Context.standard.div crossed threshold)

end Condition

namespace Obligation

/-- The price of the debt token in the collateral token. There must be one borrow and one
deposit. -/
def priceRatio (o : Obligation) : Result Decimal := do
  let borrow ← single "borrow" o.borrowList
  let deposit ← single "deposit" o.depositList
  let debtPrice ← borrow.tokenPrice
  let collateralPrice ← deposit.tokenPrice
  return ← Context.standard.div debtPrice collateralPrice

/-- The price ratio at which the obligation may be liquidated. The loan to value is proportional to
the ratio, which is therefore scaled like the debt. -/
def liquidationRatio (o : Obligation) (ratio : Decimal) : Except Signal Decimal := do
  let scaled ← Context.standard.mul ratio o.stats.liquidationLimit
  Context.standard.div scaled o.stats.weightedBorrow

end Obligation

/-- How far the threshold of a condition is crossed, if the condition holds. -/
def Condition.evaluate (condition : Condition) (o : Obligation) : Result (Option Decimal) := do
  match condition with
  | .ltvAbove t =>
    let ltv ← o.loanToValue
    let liquidation ← o.liquidationLtv
    return ← distanceAbove ltv t liquidation
  | .ltvBelow t =>
    let ltv ← o.loanToValue
    return ← distanceBelow ltv t
  | .priceRatioAbove t =>
    let ratio ← o.priceRatio
    let liquidation ← o.liquidationRatio ratio
    return ← distanceAbove ratio t liquidation
  | .priceRatioBelow t =>
    let ratio ← o.priceRatio
    return ← distanceBelow ratio t
  | .foreign .. => return some .one

end LoanOrders
