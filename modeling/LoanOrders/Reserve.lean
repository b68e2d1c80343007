import LoanOrders.Decimal.Arithmetic
import LoanOrders.Error
import LoanOrders.Power
import LoanOrders.Record.Field
import LoanOrders.Text.Upper

/-!
A reserve: the market of one token, with the limits on loans that use it.
-/

namespace LoanOrders

open Power

/-- Percentages are whole numbers. The symbol is in upper case. -/
structure Reserve where
  address : String
  symbol : String
  mint : String
  decimals : Nat
  loanToValuePct : Nat
  liquidationThresholdPct : Nat
  borrowFactorPct : Nat
deriving DecidableEq

namespace Reserve

def read (entries : Entries) : Validated Reserve :=
  Reserve.mk
    <$> Entries.required entries "address" Data.asName
    <*> Entries.required entries "symbol" (fun d => Text.upper <$> d.asName)
    <*> Entries.required entries "mint_address" Data.asName
    <*> Entries.optional entries "mint_decimals" 6 (Data.asNatUpTo (some 30))
    <*> Entries.required entries "loan_to_value_pct" (Data.asNatUpTo (some 100))
    <*> Entries.required entries "liquidation_threshold_pct" (Data.asNatUpTo (some 100))
    <*> Entries.optional entries "borrow_factor_pct" 100 (fun d =>
      (d.asWholeBetween 100 none).map Int.toNat)

def ofEntries (entries : Entries) : Result Reserve := (read entries).result .reserve

def toEntries (r : Reserve) : Entries :=
  [(.text "address", .text r.address),
    (.text "symbol", .text r.symbol),
    (.text "mint_address", .text r.mint),
    (.text "mint_decimals", .int r.decimals),
    (.text "loan_to_value_pct", .int r.loanToValuePct),
    (.text "liquidation_threshold_pct", .int r.liquidationThresholdPct),
    (.text "borrow_factor_pct", .int r.borrowFactorPct)]

/-- The number of smallest units in one token: a power of ten, to the precision of amounts. -/
def unit (r : Reserve) : Decimal :=
  if r.decimals < 28 then .ofNat (10 ^ r.decimals)
  else .finite false (10 ^ (27 : Nat)) (r.decimals - 27)

def rate (percent : Nat) : Except Signal Decimal :=
  Context.standard.div (.ofNat percent) (.ofNat 100)

/-- Up to which share of its value a deposit may be borrowed against. -/
def maxLtv (r : Reserve) : Except Signal Decimal := rate r.loanToValuePct

/-- The share of its value at which a loan on a deposit may be liquidated. -/
def liquidationLtv (r : Reserve) : Except Signal Decimal := rate r.liquidationThresholdPct

/-- The weight of a borrow among the debts of an obligation. -/
def borrowFactor (r : Reserve) : Except Signal Decimal := rate r.borrowFactorPct

end Reserve

end LoanOrders
