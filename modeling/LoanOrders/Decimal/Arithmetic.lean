import LoanOrders.Decimal.Rounding
import LoanOrders.Power

/-!
Arithmetic in a context. Each operation rounds its exact result once, half to even, to the digits
of the context (`Context.finish`). A sum whose smaller operand lies far below the last digit that
can matter, and a quotient that does not come out even, stand in for their exact value by a number
on the same side of every rounding boundary.
-/

namespace LoanOrders

open Power

/-- How many digits a result may have. -/
structure Context where
  precision : Nat
deriving DecidableEq

namespace Context

def maxExponent : Int := 999999

/-- The smallest exponent that the first digit of a value of full precision may have. -/
def minExponent : Int := -999999

def standard : Context := ⟨28⟩

/-- The context of the conversions to and from scaled fractions. -/
def wide : Context := ⟨80⟩

def lowestPlace (c : Context) : Int := minExponent - c.precision + 1

/-- Rounds `m * 10 ^ e` to the context. Digits are cut off above the precision and below the lowest
place; if the first digit then lies above the largest exponent, the result overflows. -/
def finish (c : Context) (negative : Bool) (m : Nat) (e : Int) : Except Signal Decimal :=
  if m = 0 then .ok (.finite negative 0 (max c.lowestPlace (min e maxExponent)))
  else if maxExponent < Decimal.adjusted m e then .error .overflow
  else
    let place := max (e + digitCount m - c.precision) c.lowestPlace
    if place ≤ e then .ok (.finite negative m e)
    else
      let q := roundToPlace .even m e place
      if digitCount q ≤ c.precision then .ok (.finite negative q place)
      else if maxExponent < Decimal.adjusted (q / 10) (place + 1) then .error .overflow
      else .ok (.finite negative (q / 10) (place + 1))

/-- A quiet NaN with the last digits of a payload that the context has room for. -/
def quietNaN (c : Context) (negative : Bool) (payload : Nat) : Decimal :=
  .nan negative false (payload % 10 ^ c.precision)

/-- The result of an operation with a NaN among its operands: a signaling one signals, else the
first NaN is returned. -/
def nanResult (c : Context) (x y : Decimal) : Except Signal Decimal :=
  if x.isSignaling || y.isSignaling then .error .invalidOperation
  else match x, y with
    | .nan s _ p, _ => .ok (c.quietNaN s p)
    | _, .nan s _ p => .ok (c.quietNaN s p)
    | x, _ => .ok x

def signed (negative : Bool) (m : Nat) : Int := if negative then -(m : Int) else m

/-- The sum of two nonzero values, the first of which has the higher exponent. The second is
replaced by a one below all digits of the first that can matter if it is smaller than that. -/
def addAligned (c : Context) (s : Bool) (m : Nat) (e : Int) (t : Bool) (n : Nat) (f : Int) :
    Except Signal Decimal :=
  let limit := e + min (-1) ((digitCount m : Int) - c.precision - 2)
  let far := Decimal.adjusted n f < limit
  let n := if far then 1 else n
  let f := if far then limit else f
  let sum := signed s (m * 10 ^ (e - f).toNat) + signed t n
  c.finish (decide (sum < 0)) sum.natAbs f

/-- The sum with a zero: the other operand, with zeros appended as far as the precision has room
for the lower exponent. -/
def addZero (c : Context) (s : Bool) (m : Nat) (e place : Int) : Except Signal Decimal :=
  let place := max place (e - c.precision - 1)
  c.finish s (m * 10 ^ (e - place).toNat) place

def addFinite (c : Context) (s : Bool) (m : Nat) (e : Int) (t : Bool) (n : Nat) (f : Int) :
    Except Signal Decimal :=
  if m = 0 then
    if n = 0 then c.finish (s && t) 0 (min e f) else c.addZero t n f (min e f)
  else if n = 0 then c.addZero s m e (min e f)
  else if e < f then c.addAligned t n f s m e
  else c.addAligned s m e t n f

def add (c : Context) : Decimal → Decimal → Except Signal Decimal
  | .finite s m e, .finite t n f => c.addFinite s m e t n f
  | .finite .., .infinite t => .ok (.infinite t)
  | .infinite s, .finite .. => .ok (.infinite s)
  | .infinite s, .infinite t => if s = t then .ok (.infinite s) else .error .invalidOperation
  | x, y => c.nanResult x y

def sub (c : Context) (x y : Decimal) : Except Signal Decimal :=
  if y.isNaN then c.nanResult x y else c.add x y.negate

def mul (c : Context) : Decimal → Decimal → Except Signal Decimal
  | .finite s m e, .finite t n f => c.finish (s != t) (m * n) (e + f)
  | .finite s m _, .infinite t =>
    if m = 0 then .error .invalidOperation else .ok (.infinite (s != t))
  | .infinite s, .finite t n _ =>
    if n = 0 then .error .invalidOperation else .ok (.infinite (s != t))
  | .infinite s, .infinite t => .ok (.infinite (s != t))
  | x, y => c.nanResult x y

/-- The quotient of two nonzero values. It is carried one digit further than the precision. An even
quotient drops its trailing zeros down to the difference of the exponents; any other gets a one
appended, which keeps it off every tie. -/
def divFinite (c : Context) (negative : Bool) (m : Nat) (e : Int) (n : Nat) (f : Int) :
    Except Signal Decimal :=
  let shift : Int := (digitCount n : Int) - digitCount m + c.precision + 1
  let numerator := m * 10 ^ shift.toNat
  let denominator := n * 10 ^ (-shift).toNat
  let q := numerator / denominator
  let place := e - f - shift
  if numerator % denominator = 0 then
    let zeros := trailingZeros shift.toNat q
    c.finish negative (q / 10 ^ zeros) (place + zeros)
  else c.finish negative (10 * q + 1) (place - 1)

def div (c : Context) : Decimal → Decimal → Except Signal Decimal
  | .finite s m e, .finite t n f =>
    if n = 0 then .error (if m = 0 then .invalidOperation else .divisionByZero)
    else if m = 0 then c.finish (s != t) 0 (e - f)
    else c.divFinite (s != t) m e n f
  | .finite s _ _, .infinite t => .ok (.finite (s != t) 0 c.lowestPlace)
  | .infinite s, .finite t _ _ => .ok (.infinite (s != t))
  | .infinite _, .infinite _ => .error .invalidOperation
  | x, y => c.nanResult x y

/-- The value with its last digit at `place`. It is refused, not rounded, if it then needs more
digits than the context has. -/
def quantize (c : Context) (tie : Tie) (x : Decimal) (place : Int) : Except Signal Decimal :=
  match x with
  | .finite s m e =>
    if place < c.lowestPlace ∨ Context.maxExponent < place then .error .invalidOperation
    else if m = 0 then .ok (.finite s 0 place)
    else if Context.maxExponent < Decimal.adjusted m e ∨
        c.precision < Decimal.adjusted m e - place + 1 then
      .error .invalidOperation
    else
      let q := roundToPlace tie m e place
      if Context.maxExponent < Decimal.adjusted q place ∨ c.precision < digitCount q then
        .error .invalidOperation
      else c.finish s q place
  | .infinite _ => .error .invalidOperation
  | .nan .. => c.nanResult x x

/-- The value rounded to the context and without trailing zeros; zero becomes `0`. -/
def normalize (c : Context) (x : Decimal) : Except Signal Decimal :=
  match x with
  | .finite s m e => do
    match ← c.finish s m e with
    | .finite s m e =>
      if m = 0 then return .finite s 0 0
      else
        let zeros := trailingZeros (min (digitCount m : Int) (maxExponent - e)).toNat m
        return .finite s (m / 10 ^ zeros) (e + zeros)
    | y => return y
  | .infinite s => .ok (.infinite s)
  | .nan .. => c.nanResult x x

/-- The nearest integer. A value without a fraction keeps its exponent. -/
def toIntegral (c : Context) (tie : Tie) (x : Decimal) : Except Signal Decimal :=
  match x with
  | .finite s m e => .ok (if 0 ≤ e then .finite s m e else .finite s (roundToPlace tie m e 0) 0)
  | .infinite s => .ok (.infinite s)
  | .nan .. => c.nanResult x x

end Context

end LoanOrders
