import LoanOrders.Decimal.Basic
import LoanOrders.Text.Blank
import LoanOrders.Text.Digit

/-!
The text of a decimal. Writing keeps digits and exponent apart, so that reading gives the same
value back: `0.60` for sixty hundredths, `6E+1` for six tens. Reading is exact, whatever the number
of digits, and takes digits of any script, underscores and blanks around the number.
-/

namespace LoanOrders.Decimal

/-- The digits of a coefficient with the point before the last `-exponent` of them, or in
scientific form if the exponent is positive or the first digit lies below the sixth place. -/
def finiteText (m : Nat) (e : Int) : List Char :=
  let ds := Text.digits m
  let point := ds.length + e
  if e ≤ 0 ∧ -6 < point then
    if point ≤ 0 then '0' :: '.' :: List.replicate (-point).toNat '0' ++ ds
    else if e = 0 then ds
    else ds.take point.toNat ++ '.' :: ds.drop point.toNat
  else
    let power := point - 1
    let mantissa := match ds with
      | d :: d' :: rest => d :: '.' :: d' :: rest
      | ds => ds
    mantissa ++ 'E' :: (if power < 0 then '-' else '+') :: Text.digits power.natAbs

def text : Decimal → String
  | .finite s m e => String.ofList ((if s then ['-'] else []) ++ finiteText m e)
  | .infinite s => (if s then "-" else "") ++ "Infinity"
  | .nan s q p =>
    (if s then "-" else "") ++ (if q then "sNaN" else "NaN") ++
      (if p = 0 then "" else String.ofList (Text.digits p))

/-- The largest exponent that the first digit of a written number may have. -/
def maxReadable : Int := 999999999999999999

/-- The lowest place that the last digit of a written number may have. -/
def minReadable : Int := -1999999999999999997

/-- Splits the digits `0` to `9` off the front. -/
def spanDigits (cs : List Char) : List Nat × List Char :=
  ((cs.takeWhile Char.isDigit).filterMap Text.asciiDigitValue?, cs.dropWhile Char.isDigit)

/-- The exponent behind a number, zero if there is none. -/
def readExponent? (cs : List Char) : Option Int :=
  match cs with
  | [] => some 0
  | c :: rest =>
    if c == 'e' then
      let (negative, rest) := match rest with
        | '-' :: r => (true, r)
        | '+' :: r => (false, r)
        | r => (false, r)
      match spanDigits rest with
      | ([], _) => none
      | (ds, []) => some (if negative then -(Text.ofDigits ds : Int) else Text.ofDigits ds)
      | _ => none
    else none

/-- A coefficient with an exponent that is within the readable range. -/
def readable? (negative : Bool) (m : Nat) (e : Int) : Option Decimal :=
  let top := if m = 0 then e else adjusted m e
  if minReadable ≤ e ∧ top ≤ maxReadable then some (.finite negative m e) else none

/-- An unsigned number in lower case: digits with at most one point among them, and an exponent. -/
def readNumber? (negative : Bool) (cs : List Char) : Option Decimal :=
  let (whole, rest) := spanDigits cs
  let (fraction, rest) := match rest with
    | '.' :: r => spanDigits r
    | r => ([], r)
  if whole.isEmpty && fraction.isEmpty then none
  else do
    let e ← readExponent? rest
    readable? negative (Text.ofDigits (whole ++ fraction)) (e - fraction.length)

def readPayload? (cs : List Char) : Option Nat :=
  match spanDigits cs with
  | (ds, []) => some (Text.ofDigits ds)
  | _ => none

def readUnsigned? (negative : Bool) (cs : List Char) : Option Decimal :=
  match cs with
  | ['i', 'n', 'f'] => some (.infinite negative)
  | ['i', 'n', 'f', 'i', 'n', 'i', 't', 'y'] => some (.infinite negative)
  | 'n' :: 'a' :: 'n' :: rest => (readPayload? rest).map (.nan negative false)
  | 's' :: 'n' :: 'a' :: 'n' :: rest => (readPayload? rest).map (.nan negative true)
  | cs => readNumber? negative cs

/-- A character in lower case, a digit of any script as one of `0` to `9`. -/
def plainChar? (c : Char) : Option Char :=
  if c.toNat < 0x80 then some c.toLower else (Text.digitValue? c).map Nat.digitChar

def read? (s : String) : Option Decimal := do
  let cs := (Text.trimList Text.isSpacing s.toList).filter (· != '_')
  match ← cs.mapM plainChar? with
  | '-' :: rest => readUnsigned? true rest
  | '+' :: rest => readUnsigned? false rest
  | rest => readUnsigned? false rest

/-- The number that a text stands for; a text that is none is an invalid operation. -/
def ofText (s : String) : Except Signal Decimal :=
  match read? s with
  | some x => .ok x
  | none => .error .invalidOperation

end LoanOrders.Decimal
