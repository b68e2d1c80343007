/-!
The closed lists of names that orders are described with: the two order types, the two directions
of a position, and the names of actions and triggers.
-/

namespace LoanOrders

/-- Which of the two orders of an obligation. -/
inductive OrderType
  | stopLoss
  | takeProfit
deriving DecidableEq

/-- The direction of an obligation with one deposit and one borrow: long if the collateral is the
traded token, short if the debt is. -/
inductive PositionType
  | long
  | short
deriving DecidableEq

/-- What an executed order does to the debt. -/
inductive ActionType
  | fullRepay
  | partialRepay
deriving DecidableEq

inductive LtvTriggerType
  | stopLoss
  | takeProfit
deriving DecidableEq

inductive PriceTriggerType
  | longStopLoss
  | longTakeProfit
  | shortStopLoss
  | shortTakeProfit
deriving DecidableEq

namespace OrderType

def name : OrderType → String
  | stopLoss => "StopLoss"
  | takeProfit => "TakeProfit"

def ofName? : String → Option OrderType
  | "StopLoss" => some stopLoss
  | "TakeProfit" => some takeProfit
  | _ => none

theorem ofName?_name (t : OrderType) : ofName? t.name = some t := by
  cases t <;> rfl

end OrderType

namespace PositionType

def name : PositionType → String
  | long => "Long"
  | short => "Short"

def ofName? : String → Option PositionType
  | "Long" => some long
  | "Short" => some short
  | _ => none

theorem ofName?_name (t : PositionType) : ofName? t.name = some t := by
  cases t <;> rfl

end PositionType

namespace ActionType

def name : ActionType → String
  | fullRepay => "FullRepay"
  | partialRepay => "PartialRepay"

def ofName? : String → Option ActionType
  | "FullRepay" => some fullRepay
  | "PartialRepay" => some partialRepay
  | _ => none

theorem ofName?_name (t : ActionType) : ofName? t.name = some t := by
  cases t <;> rfl

end ActionType

namespace LtvTriggerType

def name : LtvTriggerType → String
  | stopLoss => "StopLoss"
  | takeProfit => "TakeProfit"

def ofName? : String → Option LtvTriggerType
  | "StopLoss" => some stopLoss
  | "TakeProfit" => some takeProfit
  | _ => none

theorem ofName?_name (t : LtvTriggerType) : ofName? t.name = some t := by
  cases t <;> rfl

end LtvTriggerType

namespace PriceTriggerType

def name : PriceTriggerType → String
  | longStopLoss => "LongStopLoss"
  | longTakeProfit => "LongTakeProfit"
  | shortStopLoss => "ShortStopLoss"
  | shortTakeProfit => "ShortTakeProfit"

def ofName? : String → Option PriceTriggerType
  | "LongStopLoss" => some longStopLoss
  | "LongTakeProfit" => some longTakeProfit
  | "ShortStopLoss" => some shortStopLoss
  | "ShortTakeProfit" => some shortTakeProfit
  | _ => none

theorem ofName?_name (t : PriceTriggerType) : ofName? t.name = some t := by
  cases t <;> rfl

end PriceTriggerType

/-- The lists of names themselves. -/
inductive Choice
  | orderType
  | positionType
  | actionType
  | ltvTriggerType
  | priceTriggerType
deriving DecidableEq

namespace Choice

/-- How a list of names is called in a message. -/
def label : Choice → String
  | orderType => "OrderType"
  | positionType => "PositionType"
  | actionType => "OrderActionType"
  | ltvTriggerType => "LtvBasedOrderTriggerType"
  | priceTriggerType => "PriceBasedOrderTriggerType"

/-- The name on the list that a text is, if it is one. -/
def find? (choice : Choice) (text : String) : Option String :=
  match choice with
  | orderType => (OrderType.ofName? text).map OrderType.name
  | positionType => (PositionType.ofName? text).map PositionType.name
  | actionType => (ActionType.ofName? text).map ActionType.name
  | ltvTriggerType => (LtvTriggerType.ofName? text).map LtvTriggerType.name
  | priceTriggerType => (PriceTriggerType.ofName? text).map PriceTriggerType.name

end Choice

end LoanOrders
