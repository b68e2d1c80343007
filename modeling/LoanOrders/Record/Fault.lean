/-!
What is wrong with the fields of a record. A fault has a code and the path to the value at fault; a
reading gathers all of them, in the order of the fields.
-/

namespace LoanOrders

/-- The records that are read from data. -/
inductive Record
  | reserve
  | market
  | position
  | stats
  | obligation
  | slotState
  | fullRepay
  | partialRepay
  | ltvStopLoss
  | ltvTakeProfit
  | longStopLoss
  | longTakeProfit
  | shortStopLoss
  | shortTakeProfit
  | specification
  | ltvSpecification
  | priceSpecification
deriving DecidableEq

/-- A rule that ties several values of a record together, with what breaks it. -/
inductive RecordRule
  | uniqueReserves (key : String)
  | twoSlots (count : Nat)
  | keyedByReserve (side key reserve : String)
deriving DecidableEq

def RecordRule.message : RecordRule → String
  | .uniqueReserves key => "duplicate reserve " ++ key ++ " in market"
  | .twoSlots count =>
    "an obligation has exactly 2 order slots, got " ++ String.ofList (Nat.toDigits 10 count)
  | .keyedByReserve side key reserve =>
    side ++ " entry " ++ key ++ " holds a position of reserve " ++ reserve

inductive FaultCode
  | missing
  | notText
  | emptyText
  | notNumber
  | notNumeral
  | numeralTooLong
  | fraction
  | notFinite
  | notDecimal
  | notDecimalText
  | notAbove
  | notAtLeast
  | notAtMost
  | otherName
  | notRecord
  | notList
  | notObject
  | notTuple
  | tooManyItems
  | notTagged
  | tagMissing
  | tagUnknown
  | broken (rule : RecordRule)
deriving DecidableEq

def FaultCode.label : FaultCode → String
  | .missing => "missing"
  | .notText => "string_type"
  | .emptyText => "string_too_short"
  | .notNumber => "int_type"
  | .notNumeral => "int_parsing"
  | .numeralTooLong => "int_parsing_size"
  | .fraction => "int_from_float"
  | .notFinite => "finite_number"
  | .notDecimal => "decimal_type"
  | .notDecimalText => "decimal_parsing"
  | .notAbove => "greater_than"
  | .notAtLeast => "greater_than_equal"
  | .notAtMost => "less_than_equal"
  | .otherName => "literal_error"
  | .notRecord => "model_type"
  | .notList => "list_type"
  | .notObject => "dict_type"
  | .notTuple => "tuple_type"
  | .tooManyItems => "too_long"
  | .notTagged => "model_attributes_type"
  | .tagMissing => "union_tag_not_found"
  | .tagUnknown => "union_tag_invalid"
  | .broken _ => "value_error"

/-- The message that comes with a code, for a broken rule alone. -/
def FaultCode.message? : FaultCode → Option String
  | .broken rule => some ("Value error, " ++ rule.message)
  | _ => none

/-- A step from a value to one of its parts. -/
inductive Step
  | field (name : String)
  | item (index : Nat)
deriving DecidableEq

structure Fault where
  code : FaultCode
  path : List Step
deriving DecidableEq

/-- A fault of a part, as a fault of the whole. -/
def Fault.under (step : Step) (fault : Fault) : Fault := { fault with path := step :: fault.path }

end LoanOrders
