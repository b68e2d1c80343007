import LoanOrders.Choice
import LoanOrders.Error
import LoanOrders.Record.Field

/-!
What a user asks for: a trigger, an action and the range of the bonus in basis points. There are two
families of triggers, by the loan to value and by the price of a token.
-/

namespace LoanOrders

/-- A trigger by the loan to value, in percent. -/
inductive LtvTrigger
  | stopLoss (above : Decimal)
  | takeProfit (below : Decimal)
deriving DecidableEq

/-- A trigger by the price of the traded token in the other one: the collateral of a long position,
the debt of a short one. -/
inductive PriceTrigger
  | longStopLoss (below : Decimal)
  | longTakeProfit (above : Decimal)
  | shortStopLoss (above : Decimal)
  | shortTakeProfit (below : Decimal)
deriving DecidableEq

/-- A trigger of either family. Other data may stand in the place of a trigger too; no family takes
them. -/
inductive Trigger
  | ltv (trigger : LtvTrigger)
  | price (trigger : PriceTrigger)
  | other (data : Data)

/-- What an executed order does. A foreign action is one that this library does not know. -/
inductive Action
  | fullRepay
  | partialRepay (amount : Decimal)
  | foreign (name : String)
deriving DecidableEq

namespace LtvTrigger

def type : LtvTrigger → LtvTriggerType
  | stopLoss _ => .stopLoss
  | takeProfit _ => .takeProfit

def read (type : LtvTriggerType) (entries : Entries) : Validated LtvTrigger :=
  let tag := Entries.optional entries "type" () (Data.asTag type.name)
  match type with
  | .stopLoss =>
    (fun _ x => stopLoss x) <$> tag
      <*> Entries.required entries "when_ltv_pct_above" (Data.asDecimal .any)
  | .takeProfit =>
    (fun _ x => takeProfit x) <$> tag
      <*> Entries.required entries "when_ltv_pct_below" (Data.asDecimal .any)

def record : LtvTriggerType → Record
  | .stopLoss => .ltvStopLoss
  | .takeProfit => .ltvTakeProfit

def ofEntries (type : LtvTriggerType) (entries : Entries) : Result LtvTrigger :=
  (read type entries).result (record type)

def toEntries (t : LtvTrigger) : Entries :=
  (.text "type", .text t.type.name) :: match t with
    | stopLoss x => [(.text "when_ltv_pct_above", .decimal x)]
    | takeProfit x => [(.text "when_ltv_pct_below", .decimal x)]

/-- A trigger of a type at a percentage, which has to be a finite number. -/
def ofPercent (type : LtvTriggerType) (percent : Decimal) : Result LtvTrigger :=
  ofEntries type (toEntries (match type with
    | .stopLoss => stopLoss percent
    | .takeProfit => takeProfit percent))

end LtvTrigger

namespace PriceTrigger

def type : PriceTrigger → PriceTriggerType
  | longStopLoss _ => .longStopLoss
  | longTakeProfit _ => .longTakeProfit
  | shortStopLoss _ => .shortStopLoss
  | shortTakeProfit _ => .shortTakeProfit

def price : PriceTrigger → Decimal
  | longStopLoss x | longTakeProfit x | shortStopLoss x | shortTakeProfit x => x

/-- The trigger of a type with some price, whatever it is. -/
def make : PriceTriggerType → Decimal → PriceTrigger
  | .longStopLoss => longStopLoss
  | .longTakeProfit => longTakeProfit
  | .shortStopLoss => shortStopLoss
  | .shortTakeProfit => shortTakeProfit

def field : PriceTriggerType → String
  | .longStopLoss => "when_collateral_price_below"
  | .longTakeProfit => "when_collateral_price_above"
  | .shortStopLoss => "when_debt_price_above"
  | .shortTakeProfit => "when_debt_price_below"

def read (type : PriceTriggerType) (entries : Entries) : Validated PriceTrigger :=
  (fun _ x => make type x)
    <$> Entries.optional entries "type" () (Data.asTag type.name)
    <*> Entries.required entries (field type) (Data.asDecimal .positive)

def record : PriceTriggerType → Record
  | .longStopLoss => .longStopLoss
  | .longTakeProfit => .longTakeProfit
  | .shortStopLoss => .shortStopLoss
  | .shortTakeProfit => .shortTakeProfit

def ofEntries (type : PriceTriggerType) (entries : Entries) : Result PriceTrigger :=
  (read type entries).result (record type)

def toEntries (t : PriceTrigger) : Entries :=
  [(.text "type", .text t.type.name), (.text (field t.type), .decimal t.price)]

/-- A trigger of a type at a price, which has to be a finite number above zero. -/
def ofPrice (type : PriceTriggerType) (price : Decimal) : Result PriceTrigger :=
  ofEntries type (toEntries (make type price))

end PriceTrigger

namespace Trigger

/-- The name of a trigger in messages: its type, or what kind of data stand in its place. -/
def name : Trigger → String
  | ltv t => t.type.name
  | price t => t.type.name
  | other d => d.kindName

def toData : Trigger → Data
  | ltv t => .object t.toEntries
  | price t => .object t.toEntries
  | other d => d

def ofEntries? (typeName : String) (entries : Entries) : Option (Result Trigger) :=
  match LtvTriggerType.ofName? typeName, PriceTriggerType.ofName? typeName with
  | some type, _ => some (ltv <$> LtvTrigger.ofEntries type entries)
  | none, some type => some (price <$> PriceTrigger.ofEntries type entries)
  | none, none => none

end Trigger

namespace Action

def read (type : ActionType) (entries : Entries) : Validated Action :=
  let tag := Entries.optional entries "type" () (Data.asTag type.name)
  match type with
  | .fullRepay => (fun _ => fullRepay) <$> tag
  | .partialRepay =>
    (fun _ x => partialRepay x) <$> tag
      <*> Entries.required entries "repay_debt_amount_lamports" (Data.asDecimal .any)

def record : ActionType → Record
  | .fullRepay => .fullRepay
  | .partialRepay => .partialRepay

def ofEntries (type : ActionType) (entries : Entries) : Result Action :=
  (read type entries).result (record type)

/-- The entries of an action; a foreign one has no type among them. -/
def toEntries : Action → Entries
  | fullRepay => [(.text "type", .text ActionType.fullRepay.name)]
  | partialRepay x =>
    [(.text "type", .text ActionType.partialRepay.name),
      (.text "repay_debt_amount_lamports", .decimal x)]
  | foreign _ => []

/-- Repaying a part of the debt, an amount that has to be a finite number. -/
def ofAmount (amount : Decimal) : Result Action :=
  ofEntries .partialRepay (toEntries (partialRepay amount))

end Action

/-- The families of specifications. The general one leaves the trigger unread. -/
inductive SpecificationKind
  | general
  | ltv
  | price
deriving DecidableEq

structure Specification where
  trigger : Trigger
  action : Action
  bonusBps : Decimal × Decimal

namespace Specification

def readTrigger : SpecificationKind → Data → Validated Trigger
  | .general, d => .valid (.other d)
  | .ltv, d => Trigger.ltv <$> d.asTagged fun tag =>
      (LtvTriggerType.ofName? tag).map LtvTrigger.read
  | .price, d => Trigger.price <$> d.asTagged fun tag =>
      (PriceTriggerType.ofName? tag).map PriceTrigger.read

def readAction (d : Data) : Validated Action :=
  d.asTagged fun tag => (ActionType.ofName? tag).map Action.read

def readBonus (d : Data) : Validated (Decimal × Decimal) := d.asPairOf (Data.asDecimal .any)

def read (kind : SpecificationKind) (entries : Entries) : Validated Specification :=
  Specification.mk
    <$> Entries.required entries "trigger" (readTrigger kind)
    <*> Entries.required entries "action" readAction
    <*> Entries.required entries "execution_bonus_bps_range" readBonus

def record : SpecificationKind → Record
  | .general => .specification
  | .ltv => .ltvSpecification
  | .price => .priceSpecification

def ofEntries (kind : SpecificationKind) (entries : Entries) : Result Specification :=
  (read kind entries).result (record kind)

def toEntries (s : Specification) : Entries :=
  [(.text "trigger", s.trigger.toData),
    (.text "action", .object s.action.toEntries),
    (.text "execution_bonus_bps_range", .list [.decimal s.bonusBps.1, .decimal s.bonusBps.2])]

/-- The family that a trigger belongs to; data in its place are taken for a price trigger. -/
def kindOf : Trigger → SpecificationKind
  | .ltv _ => .ltv
  | _ => .price

/-- The specification of a trigger and an action with a bonus range, which is read from data. -/
def ofParts (trigger : Trigger) (action : Action) (bonus : Data) : Result Specification :=
  ofEntries (kindOf trigger)
    [(.text "trigger", trigger.toData),
      (.text "action", .object action.toEntries),
      (.text "execution_bonus_bps_range", bonus)]

end Specification

end LoanOrders
