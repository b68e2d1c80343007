import LoanOrders.Decimal.Order
import LoanOrders.Settings.Coercion
import LoanOrders.Text.Upper
import LoanOrders.Yaml.Document

/-!
The settings of the library, read from a document with the sections `app` and `orders`.
-/

namespace LoanOrders

structure Settings where
  appName : String
  debug : Bool
  logLevel : String
  stablecoinSymbols : List String
  stablecoinMints : List String
  defaultBonusBps : Int × Int
deriving DecidableEq

namespace Settings

/-- The bonus range in basis points when none is set. -/
def standardBonusBps : Int × Int := (50, 200)

def standardSymbols : List String := ["USDC", "USDT", "PYUSD"]

/-- Whether data count as given at all: a null, a zero and anything empty do not. -/
def isGiven : Data → Bool
  | .null => false
  | .bool b => b
  | .int n => n != 0
  | .float (.finite _ m _) => m != 0
  | .float _ => true
  | .text s => s != ""
  | .scalar (.time _) => true
  | .decimal x => !x.isZero
  | .list items => !items.isEmpty
  | .object entries => !entries.isEmpty

/-- The entries of a document or a section; one that is not given has none. -/
def section? (d : Option Data) : Result Entries :=
  match d with
  | none => .ok []
  | some (.object entries) => .ok entries
  | some d => if isGiven d then .error .notMapping else .ok []

/-- A setting, or its default if it is not there. A null that is there is a value. -/
def setting (entries : Entries) (name : String) (default : Data) : Data :=
  (Entries.get? entries name).getD default

def ofDocument (document : Data) : Result Settings := do
  let entries ← section? (some document)
  let app ← section? (Entries.get? entries "app")
  let orders ← section? (Entries.get? entries "orders")
  let debug := toBool (setting app "debug" (.bool false)) false
  return {
    appName := ← shown (setting app "name" (.text "Lending Orders SDK"))
    debug := debug
    logLevel := Text.upper
      (← shown (setting app "log_level" (.text (if debug then "DEBUG" else "INFO"))))
    stablecoinSymbols := ← toList
      (setting orders "stablecoin_symbols" (.list (standardSymbols.map .text)))
    stablecoinMints := ← toList (setting orders "stablecoin_mints" (.list []))
    defaultBonusBps := ← toRange (setting orders "default_execution_bonus_bps"
      (.list [.int standardBonusBps.1, .int standardBonusBps.2])) standardBonusBps }

/-- The settings of a file with this text. A text that is no document says nothing, but a scalar
that is refused is an error. -/
def ofText (text : String) : Result Settings :=
  match Yaml.read text with
  | .ok document => ofDocument document
  | .error .malformed => ofDocument .null
  | .error (.refused fault) => .error (.unreadableScalar fault)

def standard : Settings where
  appName := "Lending Orders SDK"
  debug := false
  logLevel := "INFO"
  stablecoinSymbols := standardSymbols
  stablecoinMints := []
  defaultBonusBps := standardBonusBps

theorem ofDocument_null : ofDocument .null = .ok standard := rfl

end Settings

end LoanOrders
