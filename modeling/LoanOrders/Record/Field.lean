import LoanOrders.Data.Basic
import LoanOrders.Decimal.Order
import LoanOrders.Power
import LoanOrders.Record.Validated
import LoanOrders.Text.Numeral

/-!
Reading one field of a record from data. Texts lose the blanks around them and may not be empty.
Numbers are also read from texts, and from binary floating-point numbers by their shortest text.
-/

namespace LoanOrders

open Power

namespace Data

def asName : Data → Validated String
  | text s =>
    let s := Text.trimBlank s
    if s.isEmpty then .fault .emptyText else .valid s
  | _ => .fault .notText

/-- A whole number, which a truth value and a float without a fraction are too. A float takes part
only as far as its size is below `2 ^ 63`. -/
def asWhole : Data → Validated Int
  | bool b => .valid (if b then 1 else 0)
  | int n => .valid n
  | float (.finite s m e) =>
    if !Binary64.isWhole m e then .fault .fraction
    else
      let n := Binary64.wholePart m e
      if n < 2 ^ (63 : Nat) then .valid (if s then -(n : Int) else n) else .fault .numeralTooLong
  | float _ => .fault .notFinite
  | text s =>
    match Text.readField s with
    | .ok n => .valid n
    | .error .malformed => .fault .notNumeral
    | .error .tooLong => .fault .numeralTooLong
  | _ => .fault .notNumber

/-- A whole number between two bounds, where the upper one may be absent. -/
def asWholeBetween (low : Int) (high : Option Int) (d : Data) : Validated Int :=
  d.asWhole.andThen fun n =>
    if n < low then .fault .notAtLeast
    else if high.any (· < n) then .fault .notAtMost
    else .valid n

/-- A natural number up to a bound, which may be absent. -/
def asNatUpTo (high : Option Nat) (d : Data) : Validated Nat :=
  (d.asWholeBetween 0 (high.map Int.ofNat)).map Int.toNat

def asAnyDecimal : Data → Validated Decimal
  | .decimal x => .valid x
  | int n => .valid (.ofInt n)
  | float x =>
    match x.toDecimal with
    | .ok x => .valid x
    | .error _ => .fault .notDecimalText
  | text s =>
    match Decimal.ofText s with
    | .ok x => .valid x
    | .error _ => .fault .notDecimalText
  | _ => .fault .notDecimal

/-- What a decimal field asks of a finite value. -/
inductive Bound
  | any
  | positive
  | nonnegative
deriving DecidableEq

def Bound.check (bound : Bound) (x : Decimal) : Validated Decimal :=
  match bound, x.compare? .zero with
  | .positive, some .gt => .valid x
  | .positive, _ => .fault .notAbove
  | .nonnegative, some .lt => .fault .notAtLeast
  | _, _ => .valid x

def asDecimal (bound : Bound) (d : Data) : Validated Decimal :=
  d.asAnyDecimal.andThen fun x => if x.isFinite then bound.check x else .fault .notFinite

def asTag (tag : String) : Data → Validated Unit
  | text s => if s = tag then .valid () else .fault .otherName
  | _ => .fault .otherName

def asRecord (read : Entries → Validated α) : Data → Validated α
  | .object entries => read entries
  | _ => .fault .notRecord

def asListOf (read : Data → Validated α) : Data → Validated (List α)
  | .list items => .all (items.mapIdx fun i item => (read item).under (.item i))
  | _ => .fault .notList

/-- A pair of values of one kind. A longer list is refused as a whole; a shorter one lacks items. -/
def asPairOf (read : Data → Validated α) : Data → Validated (α × α)
  | .list items =>
    if 2 < items.length then .fault .tooManyItems
    else
      let item (i : Nat) := (match items[i]? with
        | some d => read d
        | none => .fault .missing).under (.item i)
      Prod.mk <$> item 0 <*> item 1
  | _ => .fault .notTuple

/-- An entry of a map from names to values; blanks around the name are dropped. -/
def asEntryOf (read : Data → Validated α) (key : Scalar) (value : Data) :
    Validated (String × α) :=
  match key with
  | .text s => (Text.trimBlank s, ·) <$> (read value).under (.field s)
  | key => .faulty [⟨.notText, [.field key.literal]⟩]

/-- A map from names to values. The last of two entries with one name counts. -/
def asMapOf (read : Data → Validated α) : Data → Validated (List (String × α))
  | .object entries =>
    (Validated.all (entries.map fun entry => asEntryOf read entry.1 entry.2)).map
      (Assoc.ofList (· == ·))
  | _ => .fault .notObject

/-- One of several records, told apart by the text of its entry `type`. The text becomes a step of
the path to a fault inside. -/
def asTagged (read? : String → Option (Entries → Validated α)) : Data → Validated α
  | .object entries =>
    match Entries.get? entries "type" with
    | none => .fault .tagMissing
    | some (text tag) =>
      match read? tag with
      | some read => (read entries).under (.field tag)
      | none => .fault .tagUnknown
    | some _ => .fault .tagUnknown
  | _ => .fault .notTagged

end Data

namespace Entries

def required (entries : Entries) (name : String) (read : Data → Validated α) : Validated α :=
  (match entries.get? name with
  | some d => read d
  | none => .fault .missing).under (.field name)

/-- A field with a default. A null that is given is read, not replaced. -/
def optional (entries : Entries) (name : String) (default : α) (read : Data → Validated α) :
    Validated α :=
  match entries.get? name with
  | some d => (read d).under (.field name)
  | none => .valid default

end Entries

end LoanOrders
