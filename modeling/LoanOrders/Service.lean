import LoanOrders.Family.Ltv
import LoanOrders.Family.Price
import LoanOrders.Obligation.Execution
import LoanOrders.Settings.Basic

/-!
Orders under given settings: the stablecoins and the bonus range that stand in where a request names
none. A session applies the changes of requests to the slots of an obligation; a request that fails
changes nothing.
-/

namespace LoanOrders

structure Service where
  stablecoinSymbols : List String
  stablecoinMints : List String
  defaultBonus : Data

namespace Service

def ofSettings (s : Settings) : Service where
  stablecoinSymbols := s.stablecoinSymbols
  stablecoinMints := s.stablecoinMints
  defaultBonus := .list [.int s.defaultBonusBps.1, .int s.defaultBonusBps.2]

def configuredStablecoins (service : Service) (market : Market) : List Token :=
  (service.stablecoinSymbols.filter fun s =>
      market.reserves.any (·.symbol == Text.upper s)).map .symbol ++
    (service.stablecoinMints.filter fun a =>
      market.reserves.any (·.mint == a)).map fun a => .mint (.ofText a)

/-- The stablecoins that a request names, else the configured ones. -/
def stablecoins (service : Service) (market : Market) (named : Option (List Token)) : List Token :=
  named.getD (service.configuredStablecoins market)

/-- The specification of a trigger and an action, with a bonus range or the configured one. -/
def specification (service : Service) (trigger : Trigger) (action : Action)
    (bonus : Option Data) : Result Specification :=
  Specification.ofParts trigger action (bonus.getD service.defaultBonus)

/-- The change that empties the slot of an order type, whatever it holds. -/
def cancel (typeName : String) : Result SlotUpdate := do
  let type ← OrderType.ofName typeName
  return ⟨type.slot, none⟩

end Service

/-- A request to change a slot. -/
inductive Request
  | setLtv (typeName : String) (specification : Option Specification)
  | setPrice (typeName : String) (specification : Option Specification)
      (stablecoins : Option (List Token))
  | cancel (typeName : String)

namespace Request

def update (request : Request) (service : Service) (context : OrderContext) : Result SlotUpdate :=
  match request with
  | setLtv typeName s => ltvFamily.create context typeName s
  | setPrice typeName s named =>
    (priceFamily (service.stablecoins context.market named)).create context typeName s
  | cancel typeName => Service.cancel typeName

end Request

namespace OrderContext

def store (context : OrderContext) (index : Fin 2) (state : SlotState) : OrderContext :=
  { context with
    obligation := { context.obligation with slots := context.obligation.slots.set index state } }

/-- The obligation after a request, and the change with the state that it stores. -/
def advance (context : OrderContext) (service : Service) (request : Request) :
    Result (OrderContext × SlotUpdate × SlotState) := do
  let update ← request.update service context
  let state ← update.state
  return (context.store update.index state, update, state)

/-- The obligation after a request, which is the same as before if the request fails. -/
def apply (service : Service) (context : OrderContext) (request : Request) : OrderContext :=
  match context.advance service request with
  | .ok (after, _) => after
  | .error _ => context

def run (service : Service) (context : OrderContext) (requests : List Request) : OrderContext :=
  requests.foldl (apply service) context

end OrderContext

end LoanOrders
