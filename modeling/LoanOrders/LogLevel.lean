import LoanOrders.Text.Blank
import LoanOrders.Text.Upper

/-!
Levels of log messages: higher numbers are more severe. A level is given by number or by name, in
any case and with blanks around it. The root level is set once; later requests change nothing.
-/

namespace LoanOrders

/-- A level that is asked for. -/
inductive LogLevel
  | number (n : Int)
  | name (text : String)
deriving DecidableEq

namespace LogLevel

def warning : Int := 30

def info : Int := 20

def ofName? : String → Option Int
  | "CRITICAL" | "FATAL" => some 50
  | "ERROR" => some 40
  | "WARN" | "WARNING" => some warning
  | "INFO" => some info
  | "DEBUG" => some 10
  | "NOTSET" => some 0
  | _ => none

/-- The number of a level; an unknown name counts as informational. -/
def resolve : LogLevel → Int
  | number n => n
  | name text => (ofName? (Text.upper (Text.trimSpacing text))).getD info

/-- The level of the root logger, and whether it has been set. -/
structure Root where
  level : Int
  configured : Bool
deriving DecidableEq

namespace Root

def initial : Root := ⟨warning, false⟩

def setUp (root : Root) (level : LogLevel) : Root :=
  if root.configured then root else ⟨level.resolve, true⟩

def trace (root : Root) : List LogLevel → List Root
  | [] => []
  | level :: rest => root.setUp level :: trace (root.setUp level) rest

end Root

end LogLevel

end LoanOrders
