import LoanOrders.Obligation.Evaluation

/-!
The exchange that an order offers: a repayment of debt against a withdrawal of collateral that is
worth more by the bonus. Collateral is taken from the deposits with the lowest liquidation loan to
value above zero; of those the one that gives the most value is chosen, by mint if several do.
-/

namespace LoanOrders

/-- An amount of a token in smallest units. -/
structure TokenAmount where
  mint : String
  amount : Decimal
deriving DecidableEq

/-- The withdrawal includes the bonus. -/
structure Execution where
  repay : TokenAmount
  withdraw : TokenAmount
  bonusRate : Decimal
deriving DecidableEq

/-- The first of the items that are most by a comparison which says whether its first argument is
more than its second. -/
def firstMax (more : α → α → Result Bool) (first : α) (rest : List α) : Result α :=
  rest.foldlM (fun best a => do if ← more a best then return a else return best) first

def Opportunity.maxRepay (opportunity : Opportunity) (borrows : List Position) :
    Result TokenAmount := do
  match opportunity with
  | .debtAmount amount =>
    let borrow ← single "borrow" borrows
    return ⟨borrow.mint, ← borrow.amount.smaller amount⟩
  | .allDebt =>
    match borrows with
    | [] => throw .noBorrows
    | first :: rest =>
      let borrow ← firstMax (fun a b => a.value.gt b.value) first rest
      return ⟨borrow.mint, borrow.amount⟩
  | .foreign _ mint amount => return ⟨mint, amount⟩

namespace Position

/-- The value of an amount of the token of a position. -/
def valueOf (p : Position) (t : TokenAmount) : Result Decimal := do
  check (t.mint == p.mint) (.mintMismatch t.mint t.amount p.mint)
  let product ← Context.standard.mul t.amount p.value
  return ← Context.standard.div product p.amount

/-- The amount of the token of a position that is worth a value, in whole smallest units. -/
def amountWorth (p : Position) (value : Decimal) : Result TokenAmount := do
  let product ← Context.standard.mul value p.amount
  let amount ← Context.standard.div product p.value
  return ⟨p.mint, ← FixedPoint.roundNearest amount⟩

end Position

/-- A deposit that may be withdrawn from, with its liquidation loan to value. -/
abbrev Liquidatable := Decimal × Position

namespace Liquidatable

def ofDeposits (market : Market) : List Position → Result (List Liquidatable)
  | [] => .ok []
  | deposit :: rest => do
    let (_, ltv) ← Obligation.reserveLimits market deposit.reserve
    let liquidatable ← ltv.gt .zero
    let others ← ofDeposits market rest
    return if liquidatable then (ltv, deposit) :: others else others

def lowestLtv (first : Liquidatable) (rest : List Liquidatable) : Except Signal Decimal :=
  rest.foldlM (fun lowest deposit => lowest.smaller deposit.1) first.1

end Liquidatable

/-- A deposit with the value that may be withdrawn from it. -/
abbrev Candidate := Decimal × Position

namespace Candidate

/-- The value to withdraw from each deposit of one loan to value. -/
def ofLtv (ltv value : Decimal) : List Liquidatable → Except Signal (List Candidate)
  | [] => .ok []
  | (depositLtv, deposit) :: rest => do
    if ← depositLtv.same ltv then
      let withdrawn ← deposit.value.smaller value
      return (withdrawn, deposit) :: (← ofLtv ltv value rest)
    else ofLtv ltv value rest

/-- The value to withdraw from each deposit of the lowest loan to value, of which there is at least
one if there is a deposit at all. -/
def ofLowest (value : Decimal) : List Liquidatable → Except Signal (List Candidate)
  | [] => .ok []
  | first :: rest => do ofLtv (← Liquidatable.lowestLtv first rest) value (first :: rest)

/-- Whether one candidate is preferred to another: for more value, then for the greater mint. -/
def preferred (a b : Candidate) : Result Bool := do
  if ← a.1.same b.1 then return decide (b.2.mint < a.2.mint)
  else return ← a.1.gt b.1

end Candidate

namespace Order

/-- The bonus rate at a distance from the threshold, up to the share of the deposits that is not
borrowed against. A higher bonus would take more than the debt leaves. -/
def bonusRate (o : Order) (distance : Decimal) (obligation : Obligation) :
    Except Signal Decimal := do
  let range ← Context.standard.sub o.maxRate o.minRate
  let interpolated ← Context.standard.add o.minRate (← Context.standard.mul distance range)
  let free ← Context.standard.sub .one (← obligation.unweightedLtv)
  interpolated.smaller free

/-- The deposit to withdraw from and the value to take, when up to `value` may be withdrawn. -/
def withdrawal (market : Market) (obligation : Obligation) (value : Decimal) :
    Result Candidate := do
  let deposits ← Liquidatable.ofDeposits market obligation.depositList
  match ← Candidate.ofLowest value deposits with
  | [] => throw (.noLiquidatableDeposits obligation.address)
  | first :: rest => firstMax Candidate.preferred first rest

/-- The most valuable exchange that an order offers, if its condition holds. -/
def execution (o : Order) (market : Market) (obligation : Obligation) :
    Result (Option Execution) := do
  match ← o.condition.evaluate obligation with
  | none => return none
  | some distance =>
    let maxRepay ← o.opportunity.maxRepay obligation.borrowList
    let some borrow := obligation.borrowOfMint? maxRepay.mint
      | throw (.noBorrowOfMint maxRepay.mint)
    let repayValue ← borrow.valueOf maxRepay
    let bonus ← o.bonusRate distance obligation
    let factor ← Context.standard.add .one bonus
    let maxWithdraw ← Context.standard.mul repayValue factor
    let (withdrawn, deposit) ← withdrawal market obligation maxWithdraw
    let repaid ← Context.standard.div withdrawn factor
    let repay ← borrow.amountWorth repaid
    let withdraw ← deposit.amountWorth withdrawn
    return some ⟨repay, withdraw, bonus⟩

end Order

/-- The executions that the orders of an obligation offer, with the slots of the orders. -/
def Obligation.executions (obligation : Obligation) (market : Market) :
    Result (List (Nat × Execution)) := do
  let orders ← obligation.orders
  let offers ← orders.mapIdx (fun i order => (i, order)) |>.mapM fun (i, order) => do
    match order with
    | none => return none
    | some order => return (← order.execution market obligation).map (i, ·)
  return offers.filterMap id

end LoanOrders
