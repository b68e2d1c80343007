import LoanOrders.Choice
import LoanOrders.Decimal.Text
import LoanOrders.Record.Validated
import LoanOrders.Text.Quoted
import LoanOrders.Yaml.Fault

/-!
Why a request is refused. Each error names its cause; `Error.message?` has the wording and
`Error.kind` the class that callers tell errors apart by.
-/

namespace LoanOrders

/-- The classes of unmet preconditions of an order. -/
inductive Precondition
  | general
  | obligationShape
  | range
  | classification
  | compatibility
  | immediateTrigger
deriving DecidableEq

/-- The classes of errors. -/
inductive ErrorKind
  | model
  | validation
  | notFound
  | precondition (of : Precondition)
  | fields
  | value
  | types
  | attributes
  | integerOverflow
  | arithmetic (signal : Signal)
deriving DecidableEq

/-- What a reserve is looked up by. -/
inductive ReserveKey
  | address (text : String)
  | symbol (text : String)
  | mint (text : String)
deriving DecidableEq

inductive Error
  | signal (signal : Signal)
  | infiniteInteger
  | nanInteger
  | notFraction (shown : String)
  | notMember (choice : Choice) (text : String)
  | bonusRangeLength (length : Nat)
  | notCollection
  | notPair
  | notMapping
  | unreadableScalar (fault : Yaml.ScalarFault)
  | tooLongToShow
  | invalid (record : Record) (faults : List Fault)
  | reserveNotFound (key : ReserveKey) (market : String)
  | unknownConditionId (id : Nat)
  | unknownOpportunityId (id : Nat)
  | unknownCondition (name : String)
  | unknownOpportunity (name : String)
  | allDebtParameter (given expected : Decimal)
  | unmet (kind : ErrorKind) (message : String)
  | noElement (item : String)
  | severalElements (item : String)
  | noBorrows
  | noBorrowOfMint (mint : String)
  | noLiquidatableDeposits (obligation : String)
  | mintMismatch (mint : String) (amount : Decimal) (position : String)
  | thresholdNotStorable (cause : Error)
  | thresholdTooSmall (threshold : Decimal)
  | immediatelyTriggered
  | repayNotPositive (amount : Decimal)
  | repayAboveDebt (amount debt : Decimal)
  | unsupportedAction (name : String)
  | incompatibleOpportunity (name : String)
  | negativeBonus (rate : Decimal)
  | bonusRangeReversed (max min : Decimal)
  | bonusAboveLimit (bps : Decimal) (limit : Nat)
  | zeroLtvCollateral (symbol : String)
  | ltvTriggerMismatch (type : OrderType) (trigger : String)
  | ltvConditionMismatch (type : OrderType) (condition : String)
  | ltvOutOfRange (low high given : Decimal)
  | priceTriggerMismatch (type : OrderType) (position : PositionType) (trigger : String)
  | priceConditionMismatch (type : OrderType) (position : PositionType) (condition : String)
  | nonPositiveThreshold (type : OrderType) (threshold : Decimal)
  | allStablecoins
  | noStablecoins

namespace Error

def kind : Error → ErrorKind
  | signal s => .arithmetic s
  | infiniteInteger => .integerOverflow
  | nanInteger | notFraction _ | notMember .. | bonusRangeLength _ | notPair
  | tooLongToShow => .value
  | unreadableScalar fault => if fault.isOverflow then .integerOverflow else .value
  | notCollection => .types
  | notMapping => .attributes
  | invalid .. => .fields
  | reserveNotFound .. => .notFound
  | unknownConditionId _ | unknownOpportunityId _ | unknownCondition _ | unknownOpportunity _
  | allDebtParameter .. => .validation
  | unmet kind _ => kind
  | noElement _ | severalElements _ => .precondition .obligationShape
  | thresholdNotStorable _ | thresholdTooSmall _ | repayNotPositive _ | repayAboveDebt ..
  | negativeBonus _ | bonusRangeReversed .. | bonusAboveLimit .. | ltvOutOfRange .. =>
    .precondition .range
  | allStablecoins | noStablecoins => .precondition .classification
  | immediatelyTriggered => .precondition .immediateTrigger
  | noBorrows | noBorrowOfMint _ | noLiquidatableDeposits _ | mintMismatch .. | unsupportedAction _
  | incompatibleOpportunity _ | zeroLtvCollateral _ | ltvTriggerMismatch ..
  | ltvConditionMismatch .. | priceTriggerMismatch .. | priceConditionMismatch ..
  | nonPositiveThreshold .. => .precondition .compatibility

def number (n : Nat) : String := String.ofList (Nat.toDigits 10 n)

def reserveMessage : ReserveKey → String
  | .address text => "reserve " ++ text
  | .symbol text => "reserve for symbol " ++ text
  | .mint text => "reserve for mint " ++ text

/-- The wording of an error. Signals, faults of fields and errors about the shape of data have
none. -/
def message? : Error → Option String
  | signal _ | infiniteInteger | notCollection | notPair | notMapping | invalid .. => none
  | nanInteger => "cannot convert NaN to integer"
  | notFraction shown => "value " ++ shown ++ " cannot be represented as an on-chain fraction"
  | notMember choice text => Text.quoted text ++ " is not a valid " ++ choice.label
  | bonusRangeLength length =>
    if length < 2 then
      "not enough values to unpack (expected 2, got " ++ number length ++ ")"
    else "too many values to unpack (expected 2)"
  | unreadableScalar fault => fault.message?
  | tooLongToShow =>
    "Exceeds the limit (" ++ number Text.maxNumeralDigits ++
      " digits) for integer string conversion; " ++
      "use sys.set_int_max_str_digits() to increase the limit"
  | reserveNotFound key market => reserveMessage key ++ " not found in market " ++ market
  | unknownConditionId id => "unknown condition type " ++ number id
  | unknownOpportunityId id => "unknown opportunity type " ++ number id
  | unknownCondition name => "unknown condition " ++ name
  | unknownOpportunity name => "unknown opportunity " ++ name
  | allDebtParameter given expected =>
    "invalid DeleverageAllDebt parameter: " ++ given.text ++
      " (if given, must be FRACTION_MAX = " ++ expected.text ++ ")"
  | unmet _ message => message
  | noElement item => "expected exactly one " ++ item ++ ", got none"
  | severalElements item => "expected exactly one " ++ item ++ ", got more"
  | noBorrows => "opportunity type not valid on obligation with no borrows"
  | noBorrowOfMint mint => "no borrow of mint " ++ mint ++ " on obligation"
  | noLiquidatableDeposits obligation =>
    "obligation " ++ obligation ++ " has no liquidatable deposits"
  | mintMismatch mint amount position =>
    "value of TokenAmount(mint=" ++ Text.quoted mint ++ ", amount=Decimal(" ++
      Text.quoted amount.text ++ ")) cannot be computed using a position of mint " ++ position
  | thresholdNotStorable cause =>
    "trigger threshold cannot be stored on-chain: " ++ cause.message?.getD ""
  | thresholdTooSmall threshold =>
    "trigger threshold " ++ threshold.text ++ " is too small to be stored on-chain"
  | immediatelyTriggered => "cannot create an immediately-triggered order"
  | repayNotPositive amount => "repay amount must be positive; got " ++ amount.text
  | repayAboveDebt amount debt =>
    "partial repay amount " ++ amount.text ++ " cannot exceed the borrowed amount " ++ debt.text
  | unsupportedAction name => "unsupported order action " ++ name
  | incompatibleOpportunity name => "incompatible on-chain opportunity " ++ name
  | negativeBonus rate => "execution bonus rate cannot be negative: " ++ rate.text
  | bonusRangeReversed max min =>
    "max execution bonus rate " ++ max.text ++ " cannot be lower than min " ++ min.text
  | bonusAboveLimit bps limit =>
    "max execution bonus " ++ bps.text ++ " bps exceeds the on-chain limit of " ++ number limit ++
      " bps"
  | zeroLtvCollateral symbol =>
    "LTV-based orders cannot be used with a 0-LTV collateral: " ++ symbol
  | ltvTriggerMismatch type trigger =>
    "an LTV-based " ++ type.name ++ " order cannot use " ++ trigger ++ " condition"
  | ltvConditionMismatch type condition =>
    "an LTV-based " ++ type.name ++ " order has an incompatible on-chain condition " ++ condition
  | ltvOutOfRange low high given =>
    "LTV-based trigger outside valid range [" ++ low.text ++ "%; " ++ high.text ++ "%]: " ++
      given.text ++ "%"
  | priceTriggerMismatch type position trigger =>
    "a price-based " ++ type.name ++ " order on a " ++ position.name ++ " position cannot use " ++
      trigger ++ " condition"
  | priceConditionMismatch type position condition =>
    "a price-based " ++ type.name ++ " order on a " ++ position.name ++
      " position has an incompatible on-chain condition " ++ condition
  | nonPositiveThreshold type threshold =>
    "a price-based " ++ type.name ++ " order has a non-positive on-chain threshold " ++
      threshold.text
  | allStablecoins => "cannot resolve long vs short position from all-stablecoins obligation"
  | noStablecoins => "cannot resolve long vs short position from no-stablecoins obligation"

end Error

abbrev Result := Except Error

/-- A signal of the arithmetic is an error of the request that it serves. -/
instance : MonadLift (Except Signal) Result where
  monadLift x := x.mapError .signal

/-- The record that was read, or an error with its faults. -/
def Validated.result (record : Record) : Validated α → Result α
  | .valid a => .ok a
  | .faulty faults => .error (.invalid record faults)

def check (condition : Bool) (error : Error) : Result Unit :=
  if condition then .ok () else .error error

def single (item : String) : List α → Result α
  | [] => .error (.noElement item)
  | [a] => .ok a
  | _ => .error (.severalElements item)

/-- The member of a list of names that a text is. -/
def Choice.pick (choice : Choice) (text : String) : Result String :=
  match choice.find? text with
  | some name => .ok name
  | none => .error (.notMember choice text)

def OrderType.ofName (text : String) : Result OrderType :=
  match OrderType.ofName? text with
  | some t => .ok t
  | none => .error (.notMember .orderType text)

def PositionType.ofName (text : String) : Result PositionType :=
  match PositionType.ofName? text with
  | some t => .ok t
  | none => .error (.notMember .positionType text)

end LoanOrders
