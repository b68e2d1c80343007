import LoanOrders.Market
import LoanOrders.Order.Basic
import LoanOrders.Position

/-!
An obligation: what one borrower has deposited and borrowed in a market, the totals of both, and the
two order slots. Positions are keyed by the address of their reserve.
-/

namespace LoanOrders

/-- Totals in dollars. Each debt counts in `weightedBorrow` with the borrow factor of its reserve,
each deposit in `liquidationLimit` with the liquidation threshold of its reserve. -/
structure Stats where
  deposit : Decimal
  borrow : Decimal
  weightedBorrow : Decimal
  liquidationLimit : Decimal
deriving DecidableEq

namespace Stats

def zero : Stats := ⟨.zero, .zero, .zero, .zero⟩

def read (entries : Entries) : Validated Stats :=
  Stats.mk
    <$> Entries.optional entries "user_total_deposit" .zero (Data.asDecimal .nonnegative)
    <*> Entries.optional entries "user_total_borrow" .zero (Data.asDecimal .nonnegative)
    <*> Entries.optional entries "user_total_borrow_borrow_factor_adjusted" .zero
      (Data.asDecimal .nonnegative)
    <*> Entries.optional entries "borrow_liquidation_limit" .zero (Data.asDecimal .nonnegative)

def ofEntries (entries : Entries) : Result Stats := (read entries).result .stats

def toEntries (s : Stats) : Entries :=
  [(.text "user_total_deposit", .decimal s.deposit),
    (.text "user_total_borrow", .decimal s.borrow),
    (.text "user_total_borrow_borrow_factor_adjusted", .decimal s.weightedBorrow),
    (.text "borrow_liquidation_limit", .decimal s.liquidationLimit)]

/-- Adds the value of a position to a total, and its value times a weight to another. -/
def accumulate (market : Market) (weight : Reserve → Except Signal Decimal)
    (totals : Decimal × Decimal) (p : Position) : Result (Decimal × Decimal) := do
  let reserve ← market.reserveAt p.reserve
  let total ← Context.standard.add totals.1 p.value
  let weighted ← Context.standard.mul p.value (← weight reserve)
  return (total, ← Context.standard.add totals.2 weighted)

def compute (market : Market) (deposits borrows : List Position) : Result Stats := do
  let (deposit, limit) ← deposits.foldlM (accumulate market Reserve.liquidationLtv) (.zero, .zero)
  let (borrow, weighted) ← borrows.foldlM (accumulate market Reserve.borrowFactor) (.zero, .zero)
  ofEntries (toEntries ⟨deposit, borrow, weighted, limit⟩)

end Stats

structure Obligation where
  address : String
  market : String
  deposits : List (String × Position)
  borrows : List (String × Position)
  stats : Stats
  slots : Slots
deriving DecidableEq

namespace Obligation

def depositList (o : Obligation) : List Position := o.deposits.map Prod.snd

def borrowList (o : Obligation) : List Position := o.borrows.map Prod.snd

/-- The first entry that is not keyed by the reserve of its position. -/
def misplaced? (side : String) (positions : List (String × Position)) : Option RecordRule :=
  (positions.find? fun entry => entry.1 != entry.2.reserve).map fun entry =>
    .keyedByReserve side entry.1 entry.2.reserve

def checkKeys (o : Obligation) : Validated Obligation :=
  match misplaced? "deposits" o.deposits <|> misplaced? "borrows" o.borrows with
  | some rule => .fault (.broken rule)
  | none => .valid o

def readSlots (d : Data) : Validated Slots :=
  (d.asListOf (Data.asRecord SlotState.read)).andThen Slots.ofList

def read (entries : Entries) : Validated Obligation :=
  (Obligation.mk
    <$> Entries.required entries "address" Data.asName
    <*> Entries.required entries "market_address" Data.asName
    <*> Entries.optional entries "deposits" [] (Data.asMapOf (Data.asRecord Position.read))
    <*> Entries.optional entries "borrows" [] (Data.asMapOf (Data.asRecord Position.read))
    <*> Entries.optional entries "refreshed_stats" .zero (Data.asRecord Stats.read)
    <*> Entries.optional entries "orders" .empty readSlots).andThen checkKeys

def ofEntries (entries : Entries) : Result Obligation := (read entries).result .obligation

def positionsToData (positions : List (String × Position)) : Data :=
  .object (positions.map fun entry => (.text entry.1, .object entry.2.toEntries))

def toEntries (o : Obligation) : Entries :=
  [(.text "address", .text o.address),
    (.text "market_address", .text o.market),
    (.text "deposits", positionsToData o.deposits),
    (.text "borrows", positionsToData o.borrows),
    (.text "refreshed_stats", .object o.stats.toEntries),
    (.text "orders", .list (o.slots.toList.map fun s => .object s.toEntries))]

/-- Positions keyed by their reserves. Of two in one reserve the later one is kept. -/
def keyed (positions : List Position) : List (String × Position) :=
  Assoc.ofList (· == ·) (positions.map fun p => (p.reserve, p))

/-- An obligation with the totals of its positions. All positions that are listed count in them.
Without states the slots are empty. -/
def build (market : Market) (address : Data) (deposits borrows : List Position)
    (states : Option (List SlotState)) : Result Obligation := do
  let stats ← Stats.compute market deposits borrows
  let slots := match states with
    | some states => (Slots.ofList states).under (.field "orders")
    | none => .valid .empty
  ((Obligation.mk · market.address (keyed deposits) (keyed borrows) stats ·)
    <$> address.asName.under (.field "address")
    <*> slots).result .obligation

def borrowOfMint? (o : Obligation) (mint : String) : Option Position :=
  o.borrowList.find? (·.mint == mint)

def orders (o : Obligation) : Result (List (Option Order)) := o.slots.orders

def activeOrders (o : Obligation) : Result (List Order) := do
  return (← o.orders).filterMap id

/-- A total over the value of all deposits, zero if there is no such value. -/
def perDeposit (o : Obligation) (total : Decimal) : Except Signal Decimal :=
  if o.stats.deposit.isZero then .ok .zero else Context.standard.div total o.stats.deposit

/-- The weighted debt over the value of all deposits, also of those that secure no loan. -/
def loanToValue (o : Obligation) : Except Signal Decimal := o.perDeposit o.stats.weightedBorrow

/-- The loan to value at which the obligation may be liquidated. -/
def liquidationLtv (o : Obligation) : Except Signal Decimal := o.perDeposit o.stats.liquidationLimit

/-- The debt without weights over the value of all deposits. -/
def unweightedLtv (o : Obligation) : Except Signal Decimal := o.perDeposit o.stats.borrow

def reserveLimits (market : Market) (reserve : String) : Result (Decimal × Decimal) := do
  let r ← market.reserveAt reserve
  return (← r.maxLtv, ← r.liquidationLtv)

end Obligation

end LoanOrders
