import LoanOrders.Decimal.Basic
import LoanOrders.Power

/-!
The order of decimals by size. Comparing a NaN signals; only equality lets a quiet NaN through, as
a value that equals nothing. `min` and `max` return the first of two equal operands, whose exponent
is then the one that is seen.
-/

namespace LoanOrders.Decimal

open Power

/-- Compares two positive values, first by the place of their leading digits, so that far apart
exponents cost nothing. -/
def compareMagnitude (m : Nat) (e : Int) (n : Nat) (f : Int) : Ordering :=
  match compare (adjusted m e) (adjusted n f) with
  | .eq => compare (m * 10 ^ (e - min e f).toNat) (n * 10 ^ (f - min e f).toNat)
  | order => order

def compareFinite (s : Bool) (m : Nat) (e : Int) (t : Bool) (n : Nat) (f : Int) : Ordering :=
  if m = 0 then
    if n = 0 then .eq else if t then .gt else .lt
  else if n = 0 then
    if s then .lt else .gt
  else match s, t with
    | false, true => .gt
    | true, false => .lt
    | false, false => compareMagnitude m e n f
    | true, true => compareMagnitude n f m e

/-- The order of two numbers; `none` if one of them is a NaN. -/
def compare? : Decimal → Decimal → Option Ordering
  | .finite s m e, .finite t n f => some (compareFinite s m e t n f)
  | .finite .., .infinite t => some (if t then .gt else .lt)
  | .infinite s, .finite .. => some (if s then .lt else .gt)
  | .infinite s, .infinite t => some (if s = t then .eq else if s then .lt else .gt)
  | _, _ => none

/-- Compares for an order test, in which a NaN of either kind signals. -/
def ordered (test : Ordering → Bool) (x y : Decimal) : Except Signal Bool :=
  match compare? x y with
  | some order => .ok (test order)
  | none => .error .invalidOperation

def lt (x y : Decimal) : Except Signal Bool := ordered (·.isLT) x y

def le (x y : Decimal) : Except Signal Bool := ordered (·.isLE) x y

def gt (x y : Decimal) : Except Signal Bool := ordered (·.isGT) x y

def ge (x y : Decimal) : Except Signal Bool := ordered (·.isGE) x y

/-- Equality of size. A quiet NaN equals nothing, a signaling one signals. -/
def same (x y : Decimal) : Except Signal Bool :=
  if x.isSignaling || y.isSignaling then .error .invalidOperation
  else .ok (compare? x y == some .eq)

def isZero : Decimal → Bool
  | .finite _ m _ => m == 0
  | _ => false

/-- The smaller of two values, the first one if they are equal. -/
def smaller (x y : Decimal) : Except Signal Decimal := do
  if ← y.lt x then return y else return x

/-- The larger of two values, the first one if they are equal. -/
def larger (x y : Decimal) : Except Signal Decimal := do
  if ← y.gt x then return y else return x

end LoanOrders.Decimal
