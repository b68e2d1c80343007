import LoanOrders.Address
import LoanOrders.Reserve

/-!
A lending market with its reserves, no two of which share an address, a symbol or a mint. Each of
the three therefore names at most one reserve.
-/

namespace LoanOrders

structure Market where
  address : String
  reserves : List Reserve
deriving DecidableEq

/-- A token that a caller names: by symbol, or by the address of its mint. -/
inductive Token
  | symbol (text : String)
  | mint (address : Address)
deriving DecidableEq

namespace Market

def repeats (names : List String) : Bool := !decide names.Nodup

def duplicate? (reserves : List Reserve) : Option RecordRule :=
  if repeats (reserves.map Reserve.address) then some (.uniqueReserves "address")
  else if repeats (reserves.map Reserve.symbol) then some (.uniqueReserves "symbol")
  else if repeats (reserves.map Reserve.mint) then some (.uniqueReserves "mint_address")
  else none

def read (entries : Entries) : Validated Market :=
  (Market.mk
    <$> Entries.required entries "address" Data.asName
    <*> Entries.optional entries "reserves" []
      (Data.asListOf (Data.asRecord Reserve.read))).andThen fun market =>
    match duplicate? market.reserves with
    | some rule => .fault (.broken rule)
    | none => .valid market

def ofEntries (entries : Entries) : Result Market := (read entries).result .market

def toEntries (m : Market) : Entries :=
  [(.text "address", .text m.address),
    (.text "reserves", .list (m.reserves.map fun r => .object r.toEntries))]

/-- The reserve that a test singles out, or an error that names the key. -/
def find (m : Market) (key : ReserveKey) (test : Reserve → Bool) : Result Reserve :=
  match m.reserves.find? test with
  | some r => .ok r
  | none => .error (.reserveNotFound key m.address)

def reserveAt (m : Market) (address : String) : Result Reserve :=
  m.find (.address address) (·.address == address)

/-- The reserve of a symbol, in any case and with blanks around it. -/
def reserveOfSymbol (m : Market) (symbol : String) : Result Reserve :=
  m.find (.symbol symbol) (·.symbol == Text.upper (Text.trimSpacing symbol))

def reserveOfMint (m : Market) (mint : String) : Result Reserve :=
  m.find (.mint mint) (·.mint == mint)

def reserveOf (m : Market) : Token → Result Reserve
  | .symbol s => m.reserveOfSymbol s
  | .mint a => m.reserveOfMint a.value

/-- Puts an address where it belongs in an ordered list, unless it is there already. -/
def insertAddress (address : String) : List String → List String
  | [] => [address]
  | a :: rest =>
    if address < a then address :: a :: rest
    else if address = a then a :: rest
    else a :: insertAddress address rest

/-- The addresses of the reserves of some tokens, in order and each once. -/
def addressesOf (m : Market) (tokens : List Token) : Result (List String) :=
  tokens.foldlM (fun addresses token => do
    return insertAddress (← m.reserveOf token).address addresses) []

end Market

end LoanOrders
