import LoanOrders.Obligation.Evaluation
import LoanOrders.Specification

/-!
Creating an order from a specification, and reading the specification of a stored order back. A
family says which obligations it fits, and how its triggers and conditions correspond; the order of
the checks is the same for every family, and so is all that does not concern the trigger.
-/

namespace LoanOrders

/-- What an order is created for: an obligation and the market that it belongs to. -/
structure OrderContext where
  market : Market
  obligation : Obligation

def OrderType.slot : OrderType → Fin 2
  | .stopLoss => ⟨0, Nat.two_pos⟩
  | .takeProfit => ⟨1, Nat.one_lt_two⟩

namespace Condition

/-- Fails unless the threshold is stored as an integer above zero. -/
def checkStorable (c : Condition) : Result Unit := do
  let encoded ← match FixedPoint.encode c.threshold with
    | .error e => .error (if e.kind = .value then .thresholdNotStorable e else e)
    | .ok n => .ok n
  check (0 < encoded) (.thresholdTooSmall c.threshold)

end Condition

namespace Action

/-- The opportunity of an action. A part of the debt must be positive and at most all of it. -/
def toOpportunity (a : Action) (o : Obligation) : Result Opportunity := do
  match a with
  | fullRepay => return .allDebt
  | partialRepay amount =>
    check (← amount.gt .zero) (.repayNotPositive amount)
    let debt := (← single "borrow" o.borrowList).amount
    check (← amount.le debt) (.repayAboveDebt amount debt)
    return .debtAmount amount
  | foreign name => throw (.unsupportedAction name)

end Action

def Opportunity.toAction : Opportunity → Result Action
  | .allDebt => .ok .fullRepay
  | .debtAmount amount => Action.ofAmount amount
  | .foreign name _ _ => .error (.incompatibleOpportunity name)

namespace Rate

/-- The rates of a bonus range in basis points: not negative, in order, and within the limit once
they are rounded. -/
def ofBonusRange (min max : Given) : Result (Decimal × Decimal) := do
  let min ← ofBps (← min.read)
  let max ← ofBps (← max.read)
  check (← min.ge .zero) (.negativeBonus min)
  check (← max.ge min) (.bonusRangeReversed max min)
  let bps ← FixedPoint.roundNearest (← toBps max)
  check (← bps.le (.ofNat maxBonusBps)) (.bonusAboveLimit bps maxBonusBps)
  return (min, max)

/-- The rates of a bonus range that is given as a list. -/
def ofBonusList : List Given → Result (Decimal × Decimal)
  | [min, max] => ofBonusRange min max
  | range => .error (.bonusRangeLength range.length)

def toBonusRange (min max : Given) : Except Signal (Decimal × Decimal) := do
  let min ← toBps (← min.read)
  return (min, ← toBps (← max.read))

end Rate

/-- A family of triggers. What its obligations have in common is their profile. -/
structure Family (Profile : Type) where
  kind : SpecificationKind
  profile : OrderContext → Result Profile
  toCondition : Profile → OrderType → Trigger → Result Condition
  toTrigger : Profile → OrderType → Condition → Result Trigger
  checkCondition : Condition → Result Unit

namespace Family

/-- The order of a condition and the rest of a specification. The condition may not hold yet. -/
def orderOf (context : OrderContext) (condition : Condition) (s : Specification) :
    Result Order := do
  condition.checkStorable
  check (← condition.evaluate context.obligation).isNone .immediatelyTriggered
  let opportunity ← s.action.toOpportunity context.obligation
  let (min, max) ← Rate.ofBonusRange s.bonusBps.1 s.bonusBps.2
  return ⟨condition, opportunity, min, max⟩

/-- The change that stores the order of a specification in the slot of its type, or empties the slot
if there is none. -/
def create (family : Family Profile) (context : OrderContext) (typeName : String)
    (specification : Option Specification) : Result SlotUpdate := do
  let profile ← family.profile context
  let type ← OrderType.ofName typeName
  match specification with
  | none => return ⟨type.slot, none⟩
  | some s =>
    let condition ← family.toCondition profile type s.trigger
    family.checkCondition condition
    return ⟨type.slot, some (← orderOf context condition s)⟩

/-- The specification of the order in the slot of a type, if there is one. -/
def read (family : Family Profile) (context : OrderContext) (typeName : String) :
    Result (Option Specification) := do
  let profile ← family.profile context
  let first ← Order.decode context.obligation.slots.first
  let second ← Order.decode context.obligation.slots.second
  let type ← OrderType.ofName typeName
  match if type.slot = OrderType.stopLoss.slot then first else second with
  | none => return none
  | some order =>
    let trigger ← family.toTrigger profile type order.condition
    let action ← order.opportunity.toAction
    let (min, max) ← Rate.toBonusRange order.minRate order.maxRate
    let s ← Specification.ofEntries family.kind
      [(.text "trigger", trigger.toData),
        (.text "action", .object action.toEntries),
        (.text "execution_bonus_bps_range", .list [.decimal min, .decimal max])]
    return some s

end Family

end LoanOrders
