import LoanOrders.Decimal.Arithmetic
import LoanOrders.Decimal.Given
import LoanOrders.Error
import LoanOrders.Power

/-!
The numbers that an order slot stores. Thresholds and amounts are unsigned binary fractions with 60
bits behind the point, kept as integers of at most 128 bits (`encode`, `decode`). Bonus rates are
whole basis points. Working with 80 digits leaves room for all digits of an encoded value.
-/

namespace LoanOrders

open Power

namespace FixedPoint

def fractionBits : Nat := 60

def scale : Nat := 2 ^ fractionBits

def maxEncoded : Nat := 2 ^ (128 : Nat) - 1

def decimalPlaces : Nat := 18

/-- Rounds to the nearest integer, a half away from zero. -/
def roundNearest (x : Decimal) : Except Signal Decimal := Context.wide.toIntegral .away x

def toInteger : Decimal → Result Int
  | .finite s m e =>
    let n := if 0 ≤ e then m * 10 ^ e.toNat
      else if digitCount m + e ≤ 0 then 0
      else m / 10 ^ (-e).toNat
    .ok (if s then -(n : Int) else n)
  | .infinite _ => .error .infiniteInteger
  | .nan .. => .error .nanInteger

/-- The integer nearest to `x * 2 ^ 60`, a tie the even one, if a slot has room for it. -/
def encode (x : Decimal) : Result Nat := do
  let product ← Context.wide.mul x (.ofNat scale)
  let n ← toInteger (← Context.wide.toIntegral .even product)
  if n < 0 ∨ (maxEncoded : Int) < n then throw (.notFraction x.text) else return n.toNat

/-- The encoding of a number as it is given, which an error shows the same way. -/
def encodeGiven (given : Given) : Result Nat := do
  (encode (← given.read)).mapError fun
    | .notFraction _ => .notFraction given.text
    | e => e

/-- The multiple of `10 ^ -18` that an encoded integer stands for, without trailing zeros behind
the point and without an exponent before it. -/
def decode (raw : Int) : Except Signal Decimal := do
  let exact ← Context.wide.div (.ofInt raw) (.ofNat scale)
  let rounded ← Context.wide.quantize .even exact (-(decimalPlaces : Int))
  match ← Context.wide.normalize rounded with
  | .finite s m e =>
    if 0 < e then Context.wide.quantize .even (.finite s m e) 0 else return .finite s m e
  | x => return x

/-- The largest value that a slot stores, as it is decoded. -/
def maxValue : Decimal := .finite false 295147905179352825855999999999999999999 (-18)

theorem decode_maxEncoded : decode maxEncoded = .ok maxValue := rfl

end FixedPoint

namespace Rate

def fullPercent : Nat := 100

def fullBps : Nat := 10000

/-- The largest bonus in basis points that a slot has room for. -/
def maxBonusBps : Nat := 2 ^ (16 : Nat) - 1

def ofBps (bps : Decimal) : Except Signal Decimal := Context.standard.div bps (.ofNat fullBps)

def toBps (rate : Decimal) : Except Signal Decimal := Context.standard.mul rate (.ofNat fullBps)

def ofPercent (percent : Decimal) : Except Signal Decimal :=
  Context.standard.div percent (.ofNat fullPercent)

def toPercent (rate : Decimal) : Except Signal Decimal :=
  Context.standard.mul rate (.ofNat fullPercent)

/-- The price of the debt in collateral from that of the collateral in debt, or back. -/
def inverse (price : Decimal) : Except Signal Decimal := Context.standard.div .one price

end Rate

end LoanOrders
