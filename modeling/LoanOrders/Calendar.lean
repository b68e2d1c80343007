import LoanOrders.Text.Digit

/-!
Days and times of day, and their texts. Each has a text of its own and a longer one that stands for
it inside a list.
-/

namespace LoanOrders

/-- Why numbers are no day, no time of day or no offset. -/
inductive CalendarFault
  | year (given : Nat)
  | month
  | day
  | hour
  | minute
  | second
  | offset (minutes : Int)
deriving DecidableEq

structure Date where
  year : Nat
  month : Nat
  day : Nat
deriving DecidableEq

/-- A time on a day. The offset is in minutes ahead of universal time, if it is known. -/
structure Moment where
  date : Date
  hour : Nat
  minute : Nat
  second : Nat
  microsecond : Nat
  offset : Option Int
deriving DecidableEq

inductive Timestamp
  | date (date : Date)
  | moment (moment : Moment)
deriving DecidableEq

namespace Calendar

/-- A number with zeros before it up to a width. -/
def padded (width n : Nat) : String :=
  let ds := Text.digits n
  String.ofList (List.replicate (width - ds.length) '0' ++ ds)

def number (n : Nat) : String := padded 1 n

def call (name : String) (arguments : List String) : String :=
  name ++ "(" ++ String.intercalate ", " arguments ++ ")"

/-- A span of whole minutes, in days and in seconds of the last day. -/
def span (minutes : Int) : String :=
  let days := minutes / 1440
  let seconds := (minutes % 1440).toNat * 60
  let days := (if days < 0 then "-" else "") ++ number days.natAbs
  let parts := (if days = "0" then [] else ["days=" ++ days]) ++
    (if seconds = 0 then [] else ["seconds=" ++ number seconds])
  call "datetime.timedelta" (if parts.isEmpty then ["0"] else parts)

def isLeapYear (year : Nat) : Bool := year % 4 == 0 && (year % 100 != 0 || year % 400 == 0)

def daysIn (year month : Nat) : Nat :=
  if month = 2 then (if isLeapYear year then 29 else 28)
  else if [4, 6, 9, 11].contains month then 30
  else 31

def checkOffset (minutes : Int) : Except CalendarFault Unit :=
  if minutes.natAbs < 1440 then .ok () else .error (.offset minutes)

end Calendar

namespace CalendarFault

def message : CalendarFault → String
  | year given => "year " ++ Calendar.number given ++ " is out of range"
  | month => "month must be in 1..12"
  | day => "day is out of range for month"
  | hour => "hour must be in 0..23"
  | minute => "minute must be in 0..59"
  | second => "second must be in 0..59"
  | offset minutes =>
    "offset must be a timedelta strictly between -timedelta(hours=24) and " ++
      "timedelta(hours=24), not " ++ Calendar.span minutes ++ "."

end CalendarFault

namespace Date

/-- The day with these numbers, if there is one in the years 1 to 9999. -/
def make (year month day : Nat) : Except CalendarFault Date :=
  if year < 1 ∨ 9999 < year then .error (.year year)
  else if month < 1 ∨ 12 < month then .error .month
  else if day < 1 ∨ Calendar.daysIn year month < day then .error .day
  else .ok ⟨year, month, day⟩

def text (d : Date) : String :=
  Calendar.padded 4 d.year ++ "-" ++ Calendar.padded 2 d.month ++ "-" ++ Calendar.padded 2 d.day

/-- How many days lie before a day since the start of the first year. -/
def dayNumber (d : Date) : Nat :=
  let past := d.year - 1
  365 * past + past / 4 - past / 100 + past / 400 +
    (List.range' 1 (d.month - 1)).foldl (fun days month => days + Calendar.daysIn d.year month) 0 +
    d.day - 1

def numbers (d : Date) : List String := [d.year, d.month, d.day].map Calendar.number

def literal (d : Date) : String := Calendar.call "datetime.date" d.numbers

end Date

namespace Moment

/-- The time with these numbers on a day, if there is one. -/
def make (date : Date) (hour minute second microsecond : Nat) (offset : Option Int) :
    Except CalendarFault Moment :=
  if 23 < hour then .error .hour
  else if 59 < minute then .error .minute
  else if 59 < second then .error .second
  else .ok ⟨date, hour, minute, second, microsecond, offset⟩

/-- The microseconds since the start of the first year in universal time, if the offset is known. -/
def instant? (m : Moment) : Option Int :=
  m.offset.map fun offset =>
    let minutes : Int := (m.date.dayNumber * 24 + m.hour) * 60 + m.minute - offset
    (minutes * 60 + m.second) * 1000000 + m.microsecond

def offsetText (minutes : Int) : String :=
  (if minutes < 0 then "-" else "+") ++ Calendar.padded 2 (minutes.natAbs / 60) ++ ":" ++
    Calendar.padded 2 (minutes.natAbs % 60)

def text (m : Moment) : String :=
  m.date.text ++ " " ++ Calendar.padded 2 m.hour ++ ":" ++ Calendar.padded 2 m.minute ++ ":" ++
    Calendar.padded 2 m.second ++
    (if m.microsecond = 0 then "" else "." ++ Calendar.padded 6 m.microsecond) ++
    (m.offset.map offsetText).getD ""

/-- The seconds and microseconds as far as they are not zero. -/
def lowNumbers (m : Moment) : List Nat :=
  if m.microsecond ≠ 0 then [m.second, m.microsecond]
  else if m.second ≠ 0 then [m.second]
  else []

def zoneLiteral (minutes : Int) : String :=
  "tzinfo=" ++ (if minutes = 0 then "datetime.timezone.utc"
    else Calendar.call "datetime.timezone" [Calendar.span minutes])

def literal (m : Moment) : String :=
  Calendar.call "datetime.datetime" (m.date.numbers ++
    ([m.hour, m.minute] ++ m.lowNumbers).map Calendar.number ++ (m.offset.map zoneLiteral).toList)

end Moment

namespace Timestamp

def instant? : Timestamp → Option Int
  | date _ => none
  | moment m => m.instant?

def text : Timestamp → String
  | date d => d.text
  | moment m => m.text

/-- A day or a time as it stands inside a list or an object. -/
def literal : Timestamp → String
  | date d => d.literal
  | moment m => m.literal

end Timestamp

end LoanOrders
