import LoanOrders.Assoc
import LoanOrders.Binary64.Shortest
import LoanOrders.Calendar
import LoanOrders.Text.Numeral
import LoanOrders.Text.Quoted

/-!
Untyped data, as a snapshot or a settings document brings it: scalars, lists and objects whose
entries keep their order. A record read from such data is checked field by field elsewhere; here are
the data alone, their text, and what an entry list is.
-/

namespace LoanOrders

inductive Scalar
  | null
  | bool (value : Bool)
  | int (value : Int)
  | float (value : Binary64)
  | text (value : String)
  | time (value : Timestamp)
deriving DecidableEq, Inhabited

/-- Decimals occur only in data that this library itself has written. -/
inductive Data
  | scalar (value : Scalar)
  | decimal (value : Decimal)
  | list (items : List Data)
  | object (entries : List (Scalar × Data))
deriving Inhabited

/-- The entries of an object, in the order in which their keys came first. -/
abbrev Entries := List (Scalar × Data)

namespace Data

@[match_pattern] abbrev null : Data := .scalar .null

@[match_pattern] abbrev bool (value : Bool) : Data := .scalar (.bool value)

@[match_pattern] abbrev int (value : Int) : Data := .scalar (.int value)

@[match_pattern] abbrev float (value : Binary64) : Data := .scalar (.float value)

@[match_pattern] abbrev text (value : String) : Data := .scalar (.text value)

def isNull : Data → Bool
  | null => true
  | _ => false

/-- How data of each kind are called in a message. -/
def kindName : Data → String
  | null => "NoneType"
  | bool _ => "bool"
  | int _ => "int"
  | float _ => "float"
  | text _ => "str"
  | .scalar (.time (.date _)) => "date"
  | .scalar (.time (.moment _)) => "datetime"
  | decimal _ => "Decimal"
  | list _ => "list"
  | object _ => "dict"

end Data

namespace Scalar

/-- The integer that a scalar is as a key: a truth value is `0` or `1`, a whole number itself. -/
def asKeyInt? : Scalar → Option Int
  | .bool b => some (if b then 1 else 0)
  | .int n => some n
  | .float (.finite s m e) =>
    if Binary64.isWhole m e then
      some (if s then -(Binary64.wholePart m e : Int) else Binary64.wholePart m e)
    else none
  | _ => none

def asKeyInstant? : Scalar → Option Int
  | .time t => t.instant?
  | _ => none

/-- Whether two scalars name the same entry: equal scalars do, equal numbers, and times of one
instant. -/
def sameKey (a b : Scalar) : Bool :=
  a == b || (a.asKeyInt?.isSome && a.asKeyInt? == b.asKeyInt?) ||
    (a.asKeyInstant?.isSome && a.asKeyInstant? == b.asKeyInstant?)

/-- A scalar as it stands inside a list or an object, where a text is quoted. -/
def literal : Scalar → String
  | .null => "None"
  | .bool b => if b then "True" else "False"
  | .int n => Decimal.text (Decimal.ofInt n)
  | .float x => x.text
  | .text s => Text.quoted s
  | .time t => t.literal

end Scalar

namespace Entries

def get? (entries : Entries) (name : String) : Option Data := entries.lookup (.text name)

/-- The entries that are not null themselves. What their values hold stays as it is. -/
def withoutNulls (entries : Entries) : Entries := entries.filter fun entry => !entry.2.isNull

end Entries

mutual

/-- Data as they stand inside a list or an object. -/
def Data.literal : Data → String
  | .scalar s => s.literal
  | .decimal x => "Decimal(" ++ Text.quoted x.text ++ ")"
  | .list items => "[" ++ String.intercalate ", " (listLiterals items) ++ "]"
  | .object entries => "\x7b" ++ String.intercalate ", " (entryLiterals entries) ++ "\x7d"

def listLiterals : List Data → List String
  | [] => []
  | item :: rest => item.literal :: listLiterals rest

def entryLiterals : List (Scalar × Data) → List String
  | [] => []
  | (key, value) :: rest => (key.literal ++ ": " ++ value.literal) :: entryLiterals rest

end

/-- Data as a text of their own: a text is itself, a day or a time has one, and anything else is as
it stands inside a list. -/
def Data.display : Data → String
  | .text s => s
  | .scalar (.time t) => t.text
  | d => d.literal

/-- Whether a scalar has a text: a whole number that is too long has none. -/
def Scalar.isShowable : Scalar → Bool
  | .int n => digitCount n.natAbs ≤ Text.maxNumeralDigits
  | _ => true

mutual

def Data.isShowable : Data → Bool
  | .scalar s => s.isShowable
  | .decimal _ => true
  | .list items => areShowable items
  | .object entries => entriesShowable entries

def areShowable : List Data → Bool
  | [] => true
  | item :: rest => item.isShowable && areShowable rest

def entriesShowable : List (Scalar × Data) → Bool
  | [] => true
  | (key, value) :: rest => key.isShowable && value.isShowable && entriesShowable rest

end

/-- Why data are no collection of entries: they or one of their items are no collection at all, or
an item is not a pair. -/
inductive EntriesFault
  | notCollection
  | notPair
deriving DecidableEq

namespace Data

/-- The items that data consist of: those of a list, the letters of a text, the keys of an
object. -/
def items? : Data → Option (List Data)
  | text s => some (s.toList.map fun c => text (String.ofList [c]))
  | .list items => some items
  | .object entries => some (entries.map fun entry => .scalar entry.1)
  | _ => none

/-- An entry given as a collection of a key and a value. -/
def asPair (d : Data) : Except EntriesFault (Scalar × Data) :=
  match d.items? with
  | none => .error .notCollection
  | some [.scalar key, value] => .ok (key, value)
  | some [_, _] => .error .notCollection
  | some _ => .error .notPair

/-- The entries of an object, or of a list of pairs. -/
def asEntries (d : Data) : Except EntriesFault Entries :=
  match d with
  | .object entries => .ok entries
  | d =>
    match d.items? with
    | none => .error .notCollection
    | some items => do return Assoc.ofList Scalar.sameKey (← items.mapM asPair)

end Data

end LoanOrders
