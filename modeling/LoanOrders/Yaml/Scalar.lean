import LoanOrders.Data.Basic
import LoanOrders.Power
import LoanOrders.Text.Numeral
import LoanOrders.Yaml.Quoted

/-!
What a plain scalar stands for. A null, a truth value, a number, a day or a time is written plainly;
everything else is a text. Some texts have the form of a number or a day but are none, and two are
marks that have a meaning only as the key of an entry.
-/

namespace LoanOrders.Yaml

open Power

/-- A scalar is a value, the key of an entry whose value is merged in, the mark `=`, undefined, or
refused. -/
inductive Meaning
  | value (scalar : Scalar)
  | merge
  | equals
  | undefined
  | refused (fault : ScalarFault)
deriving DecidableEq

/-! ## Whole numbers -/

def nullTexts : List String := ["", "~", "null", "Null", "NULL"]

def yesTexts : List String := ["yes", "Yes", "YES", "true", "True", "TRUE", "on", "On", "ON"]

def noTexts : List String := ["no", "No", "NO", "false", "False", "FALSE", "off", "Off", "OFF"]

/-- The digits below a base. Underscores among them do not count. -/
def digitsBelow? (base : Nat) (cs : List Char) : Option (List Nat) :=
  (cs.filter (· != '_')).mapM fun c => (hexValue? c).filter (· < base)

def valueOf (base : Nat) (digits : List Nat) : Nat := digits.foldl (fun n d => base * n + d) 0

def prefixed? (base : Nat) (cs : List Char) : Option (Except ScalarFault Nat) :=
  if cs.isEmpty then none
  else (digitsBelow? base cs).map fun
    | [] => .error (.noDigits base)
    | ds => .ok (valueOf base ds)

/-- A number in decimal digits that is not too long. -/
def decimalNumber? (cs : List Char) : Option (Except ScalarFault Nat) :=
  (digitsBelow? 10 cs).map fun ds =>
    if ds.length ≤ Text.maxNumeralDigits then .ok (valueOf 10 ds)
    else .error (.tooManyDigits ds.length)

/-- A part to base sixty: one or two digits, the first of two below six. -/
def sixtieth? : List Char → Option Nat
  | [c] => Text.asciiDigitValue? c
  | [c, d] => do
    let tens ← Text.asciiDigitValue? c
    if tens < 6 then return 10 * tens + (← Text.asciiDigitValue? d) else none
  | _ => none

def colonParts : List Char → List (List Char)
  | [] => [[]]
  | c :: rest =>
    if c == ':' then [] :: colonParts rest
    else
      match colonParts rest with
      | part :: parts => (c :: part) :: parts
      | [] => [[c]]

def startsWithDigit : List Char → Bool
  | c :: _ => c.isDigit
  | [] => false

/-- An unsigned whole number: decimal, binary behind `0b`, octal behind `0`, hexadecimal behind
`0x`, or with colons between its parts to base sixty. -/
def wholeNumber? : List Char → Option (Except ScalarFault Nat)
  | '0' :: 'b' :: ds => prefixed? 2 ds
  | '0' :: 'x' :: ds => prefixed? 16 ds
  | '0' :: ds => (digitsBelow? 8 ds).map fun ds => .ok (valueOf 8 ds)
  | cs =>
    match colonParts cs with
    | first :: parts =>
      if startsWithDigit first then do
        let first ← decimalNumber? first
        let parts ← parts.mapM sixtieth?
        return first.map fun n => valueOf 60 (n :: parts)
      else none
    | [] => none

/-! ## Numbers with a point -/

def digitValues (cs : List Char) : List Nat := cs.filterMap Text.asciiDigitValue?

/-- The exponent behind a number with a point, which always has a sign; zero if there is none. -/
def exponent? : List Char → Option Int
  | [] => some 0
  | e :: sign :: ds =>
    if (e == 'e' || e == 'E') && (sign == '+' || sign == '-') && !ds.isEmpty && ds.all Char.isDigit
    then some (Text.applySign (sign == '-') (Text.ofDigits (digitValues ds)))
    else none
  | _ => none

def isNumberPart (c : Char) : Bool := c.isDigit || c == '_'

/-- The number with some digits before the point and some behind it. -/
def ofPoint (whole fraction : List Char) (exponent : Int) : Binary64 :=
  let ds := digitValues fraction
  Binary64.ofDecimal false (Text.ofDigits (digitValues whole ++ ds)) (exponent - ds.length)

/-- An unsigned number with a point. Without a digit before the point it needs one behind it. -/
def pointNumber? (cs : List Char) : Option Binary64 := do
  let whole := cs.takeWhile isNumberPart
  match cs.drop whole.length with
  | '.' :: rest =>
    let fraction := rest.takeWhile isNumberPart
    if startsWithDigit whole || (whole.isEmpty && startsWithDigit fraction) then
      return ofPoint whole fraction (← exponent? (rest.drop fraction.length))
    else none
  | _ => none

/-- The last part of a number to base sixty, which has a point. -/
def lastSixtieth? (cs : List Char) : Option Binary64 := do
  let whole := cs.takeWhile Char.isDigit
  let _ ← sixtieth? whole
  match cs.drop whole.length with
  | '.' :: fraction => if fraction.all isNumberPart then return ofPoint whole fraction 0 else none
  | _ => none

/-- The parts of a number to base sixty behind its first, the last one first. -/
def lowerParts? : List (List Char) → Option (List Binary64)
  | [] => none
  | [last] => do return [← lastSixtieth? last]
  | part :: parts => do
    let n ← sixtieth? part
    return (← lowerParts? parts) ++ [Binary64.ofRatio false n 1]

/-- The sum of parts that weigh sixty times as much each as the one before it. Each product and each
sum is rounded. -/
def sumOfParts (parts : List Binary64) : Binary64 :=
  let add := fun (sum, weight) part =>
    (Binary64.plus sum (Binary64.times part (.ofRatio false weight 1)), 60 * weight)
  (parts.foldl add (Binary64.ofRatio false 0 1, 1)).1

/-- The sum of parts, unless the weight of the greatest is beyond all values. -/
def numberOfParts (parts : List Binary64) : Except ScalarFault Binary64 :=
  match Binary64.ofRatio false (60 ^ (parts.length - 1)) 1 with
  | .infinite _ => .error .tooManyParts
  | _ => .ok (sumOfParts parts)

/-- An unsigned number to base sixty with a point in its last part. -/
def sixtiethsNumber? (cs : List Char) : Option (Except ScalarFault Binary64) :=
  match colonParts cs with
  | first :: parts =>
    if startsWithDigit first && first.all isNumberPart then
      (lowerParts? parts).map fun lower => numberOfParts (lower ++ [ofPoint first [] 0])
    else none
  | [] => none

def infinityTexts : List String := [".inf", ".Inf", ".INF"]

def nanTexts : List String := [".nan", ".NaN", ".NAN"]

def negated : Binary64 → Binary64
  | .finite s m e => .finite (!s) m e
  | .infinite s => .infinite (!s)
  | .nan => .nan

/-- What a signed plain scalar stands for, if it is a number. A number that starts with a point has
no sign, infinity apart. -/
def signedNumber? (signed negative : Bool) (cs : List Char) : Option Meaning :=
  match wholeNumber? cs with
  | some (.ok n) => some (.value (.int (Text.applySign negative n)))
  | some (.error fault) => some (.refused fault)
  | none =>
    if infinityTexts.contains (String.ofList cs) then some (.value (.float (.infinite negative)))
    else if signed && cs.head? == some '.' then none
    else
      match pointNumber? cs, sixtiethsNumber? cs with
      | some x, _ | none, some (.ok x) => some (.value (.float (if negative then negated x else x)))
      | none, some (.error fault) => some (.refused fault)
      | none, none => none

/-! ## Days and times -/

/-- A number of `least` to `most` digits at the start of a text. -/
def readCount? (least most : Nat) (cs : List Char) : Option (Nat × List Char) :=
  let run := cs.takeWhile Char.isDigit
  if least ≤ run.length && run.length ≤ most then
    some (Text.ofDigits (digitValues run), cs.drop run.length)
  else none

/-- The text behind a character that has to come next. -/
def behind? (c : Char) : List Char → Option (List Char)
  | d :: rest => if c == d then some rest else none
  | [] => none

/-- The microseconds at the start of a text: a point and digits, of which the first six count. -/
def readFraction : List Char → Nat × List Char
  | '.' :: rest =>
    let ds := rest.takeWhile Char.isDigit
    let first := digitValues (ds.take 6)
    (Text.ofDigits first * 10 ^ (6 - first.length), rest.drop ds.length)
  | cs => (0, cs)

def isSpaceOrTab (c : Char) : Bool := c == ' ' || c == '\t'

/-- The offset that ends a time, with blanks before it: `Z`, or hours with or without minutes. -/
def readOffset? (cs : List Char) : Option (Option Int) :=
  match cs with
  | [] => some none
  | cs =>
    match cs.dropWhile isSpaceOrTab with
    | ['Z'] => some (some 0)
    | sign :: rest =>
      if sign == '+' || sign == '-' then do
        let (hours, rest) ← readCount? 1 2 rest
        let minutes ← match rest with
          | [] => some 0
          | rest => do
            let (minutes, rest) ← readCount? 2 2 (← behind? ':' rest)
            if rest.isEmpty then some minutes else none
        return some (Text.applySign (sign == '-') (60 * hours + minutes))
      else none
    | [] => none

/-- The text behind what parts a day from a time: the letter `T` or blanks. -/
def behindDay? : List Char → Option (List Char)
  | c :: rest =>
    if c == 'T' || c == 't' then some rest
    else if isSpaceOrTab c then some (rest.dropWhile isSpaceOrTab)
    else none
  | [] => none

/-- The numbers of a time behind its day. -/
structure ClockReading where
  hour : Nat
  minute : Nat
  second : Nat
  microsecond : Nat
  offset : Option Int

def readClock? (cs : List Char) : Option ClockReading := do
  let (hour, cs) ← readCount? 1 2 (← behindDay? cs)
  let (minute, cs) ← readCount? 2 2 (← behind? ':' cs)
  let (second, cs) ← readCount? 2 2 (← behind? ':' cs)
  let (microsecond, cs) := readFraction cs
  return ⟨hour, minute, second, microsecond, ← readOffset? cs⟩

def ClockReading.onDay (clock : ClockReading) (year month day : Nat) :
    Except CalendarFault Moment := do
  if let some offset := clock.offset then Calendar.checkOffset offset
  let date ← Date.make year month day
  Moment.make date clock.hour clock.minute clock.second clock.microsecond clock.offset

/-- A day, for which month and day have two digits each, or a time. -/
def timestamp? (cs : List Char) : Option (Except CalendarFault Timestamp) := do
  let (year, rest) ← readCount? 4 4 cs
  let (month, rest) ← readCount? 1 2 (← behind? '-' rest)
  let (day, rest) ← readCount? 1 2 (← behind? '-' rest)
  match rest with
  | [] => if cs.length = 10 then return Timestamp.date <$> Date.make year month day else none
  | rest =>
    let clock ← readClock? rest
    return Timestamp.moment <$> clock.onDay year month day

def meaning (s : String) : Meaning :=
  if nullTexts.contains s then .value .null
  else if yesTexts.contains s then .value (.bool true)
  else if noTexts.contains s then .value (.bool false)
  else if nanTexts.contains s then .value (.float .nan)
  else if s = "<<" then .merge
  else if s = "=" then .equals
  else
    let number := match s.toList with
      | '-' :: cs => signedNumber? true true cs
      | '+' :: cs => signedNumber? true false cs
      | cs => signedNumber? false false cs
    match number, timestamp? s.toList with
    | some m, _ => m
    | none, some (.ok t) => .value (.time t)
    | none, some (.error fault) => .refused (.calendar fault)
    | none, none => .value (.text s)

end LoanOrders.Yaml
