import LoanOrders.Calendar
import LoanOrders.Power
import LoanOrders.Text.Numeral
import LoanOrders.Text.Quoted

/-!
Why a text gives no data. Most faults are all alike: the text is no document. A few scalars have the
form of a value but are none, and these are told apart.
-/

namespace LoanOrders.Yaml

open Power

/-- Why a text with the form of a number, a day or an escaped character is none. -/
inductive ScalarFault
  | noDigits (base : Nat)
  | tooManyDigits (count : Nat)
  | tooManyParts
  | calendar (fault : CalendarFault)
  | noCharacter (codePoint : Nat)
deriving DecidableEq

namespace ScalarFault

/-- The greatest code point that is looked at as one at all. -/
def maxCodePoint : Nat := 2 ^ (31 : Nat) - 1

/-- Whether a number in the scalar is out of the range of what could hold it. -/
def isOverflow : ScalarFault → Bool
  | tooManyParts => true
  | noCharacter n => maxCodePoint < n
  | _ => false

def message? : ScalarFault → Option String
  | noDigits base =>
    some ("invalid literal for int() with base " ++ Calendar.number base ++ ": " ++ Text.quoted "")
  | tooManyDigits count =>
    some ("Exceeds the limit (" ++ Calendar.number Text.maxNumeralDigits ++
      " digits) for integer string conversion: value has " ++ Calendar.number count ++
      " digits; use sys.set_int_max_str_digits() to increase the limit")
  | tooManyParts => none
  | calendar fault => some fault.message
  | noCharacter n => if maxCodePoint < n then none else some "chr() arg not in range(0x110000)"

end ScalarFault

inductive Fault
  | malformed
  | refused (fault : ScalarFault)
deriving DecidableEq

/-- What is found, or the fault that the text is no document. -/
def orMalformed : Option α → Except Fault α
  | some a => .ok a
  | none => .error .malformed

end LoanOrders.Yaml
