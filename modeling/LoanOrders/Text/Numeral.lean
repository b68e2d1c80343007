import LoanOrders.Text.Blank
import LoanOrders.Text.Digit

/-!
Whole numbers in a text. Two readings are in use. A setting may be written with the digits of any
script; a field of a record takes the digits `0` to `9` only, but also a fraction of zeros.
-/

namespace LoanOrders.Text

/-- A numeral with more digits than this is not read. -/
def maxNumeralDigits : Nat := 4300

def splitSign : List Char → Bool × List Char
  | '-' :: cs => (true, cs)
  | '+' :: cs => (false, cs)
  | cs => (false, cs)

def applySign (negative : Bool) (n : Nat) : Int := if negative then -(n : Int) else n

/-- A whole number with an optional sign, digits of any script and single underscores between
them, and with blanks around it. The information separators do not count as blanks here. -/
def readInt? (s : String) : Option Int := do
  let (negative, cs) := splitSign (trimList isBlank s.toList)
  let run ← digitRun? digitValue? cs
  if run.length ≤ maxNumeralDigits then some (applySign negative (ofDigits run)) else none

/-- Why a text is no whole number of a field: it is not written as one, or it is too long. -/
inductive NumeralFault
  | malformed
  | tooLong
deriving DecidableEq

/-- What may fill a number up from the left, once a zero comes first. -/
def isFill (c : Char) : Bool := c == '0' || c == '_'

/-- A number without its fill. The last character of the fill stays where it is the end of the
number or stands before a point; elsewhere a digit or a minus sign has to follow. -/
def dropFill? : List Char → Option (List Char)
  | '0' :: rest =>
    let last := (rest.takeWhile isFill).getLastD '0'
    match rest.dropWhile isFill with
    | [] => some [last]
    | '.' :: fraction => some (last :: '.' :: fraction)
    | c :: tail => if c == '-' || c.isDigit then some (c :: tail) else none
  | c :: rest => if c.isDigit then some (c :: rest) else none
  | [] => none

/-- Drops a point with one or more zeros behind it, and nothing else. -/
def dropZeroFraction (cs : List Char) : List Char :=
  let whole := cs.takeWhile (· != '.')
  match cs.drop (whole.length + 1) with
  | [] => cs
  | fraction => if fraction.all (· == '0') then whole else cs

def hasDoubledUnderscore : List Char → Bool
  | '_' :: '_' :: _ => true
  | _ :: rest => hasDoubledUnderscore rest
  | [] => false

/-- Drops the underscores if each of them stands between two other characters. -/
def dropSeparators (cs : List Char) : List Char :=
  if cs.head? == some '_' || cs.getLast? == some '_' || hasDoubledUnderscore cs then cs
  else cs.filter (· != '_')

/-- A whole number with a minus sign or none and the digits `0` to `9`, of which a zero comes first
only where it is alone. The sign counts against the greatest length, and what comes behind too many
digits is not looked at. -/
def readPlain (cs : List Char) : Except NumeralFault Int :=
  let (negative, cs) := match cs with
    | '-' :: rest => (true, rest)
    | _ => (false, cs)
  let most := if negative then maxNumeralDigits - 1 else maxNumeralDigits
  let run := cs.takeWhile Char.isDigit
  match run with
  | [] | '0' :: _ :: _ => .error .malformed
  | _ =>
    if most < run.length then .error .tooLong
    else if run.length < cs.length then .error .malformed
    else .ok (applySign negative (ofDigits (run.filterMap asciiDigitValue?)))

/-- A whole number of a field: blanks around it, an optional sign, fill, underscores between the
digits and zeros behind a point go before a plain number is read. Where no minus sign comes before
the fill, one may come after it. -/
def readField (s : String) : Except NumeralFault Int :=
  let (negative, cs) := splitSign (trimList isBlank s.toList)
  match dropFill? cs with
  | none => .error .malformed
  | some cs => readPlain (dropSeparators (dropZeroFraction (if negative then '-' :: cs else cs)))

end LoanOrders.Text
