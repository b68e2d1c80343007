import LoanOrders.Decimal.Given
import LoanOrders.Reserve

/-!
A deposit or a borrow of an obligation.
-/

namespace LoanOrders

/-- The amount is in smallest units, of which `unit` make one token; the value is in dollars. -/
structure Position where
  reserve : String
  mint : String
  unit : Decimal
  amount : Decimal
  value : Decimal
deriving DecidableEq

namespace Position

def read (entries : Entries) : Validated Position :=
  Position.mk
    <$> Entries.required entries "reserve_address" Data.asName
    <*> Entries.required entries "mint_address" Data.asName
    <*> Entries.required entries "mint_factor" (Data.asDecimal .positive)
    <*> Entries.required entries "amount" (Data.asDecimal .nonnegative)
    <*> Entries.required entries "market_value_refreshed" (Data.asDecimal .nonnegative)

def ofEntries (entries : Entries) : Result Position := (read entries).result .position

def toEntries (p : Position) : Entries :=
  [(.text "reserve_address", .text p.reserve),
    (.text "mint_address", .text p.mint),
    (.text "mint_factor", .decimal p.unit),
    (.text "amount", .decimal p.amount),
    (.text "market_value_refreshed", .decimal p.value)]

/-- A number of whole tokens of a reserve at a price in dollars for each. -/
def ofTokens (reserve : Reserve) (tokens price : Given) : Result Position := do
  let tokens ← tokens.read
  let amount ← Context.standard.mul tokens reserve.unit
  let value ← Context.standard.mul tokens (← price.read)
  ofEntries (toEntries ⟨reserve.address, reserve.mint, reserve.unit, amount, value⟩)

def tokenPrice (p : Position) : Except Signal Decimal := do
  Context.standard.div (← Context.standard.mul p.value p.unit) p.amount

end Position

end LoanOrders
