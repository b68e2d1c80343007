import LoanOrders.Decimal.Rounding
import LoanOrders.Power

/-!
Binary floating-point numbers of 64 bits, as exact values: a significand below `2 ^ 53` times a
power of two. A number that is written in decimal becomes the nearest of them, a tie the one with
an even significand.
-/

namespace LoanOrders

open Power

/-- A finite value is `significand * 2 ^ exponent`. -/
inductive Binary64
  | finite (negative : Bool) (significand : Nat) (exponent : Int)
  | infinite (negative : Bool)
  | nan
deriving DecidableEq

namespace Binary64

/-- The exponent of the finest grid, which zero is on too. -/
def lowestExponent : Int := -1074

def highestExponent : Int := 971

/-- The nearest value to `n / d`, for `d ≠ 0`. The exponent is the lowest for which the significand
is below `2 ^ 53`, as far as there is a grid for it. -/
def ofRatio (negative : Bool) (n d : Nat) : Binary64 :=
  if n = 0 then .finite negative 0 lowestExponent
  else
    let e : Int := (n.log2 : Int) - d.log2 - 53
    let e := if n * 2 ^ (-e).toNat < 2 ^ (53 : Nat) * d * 2 ^ e.toNat then e else e + 1
    let e := max lowestExponent e
    let q := roundQuotient .even (n * 2 ^ (-e).toNat) (d * 2 ^ e.toNat)
    let carry := q == 2 ^ (53 : Nat)
    let q := if carry then 2 ^ (52 : Nat) else q
    let e := if carry then e + 1 else e
    if highestExponent < e then .infinite negative else .finite negative q e

/-- The nearest value to `m * 10 ^ e`. Beyond the four hundredth place either way it is infinite
or zero, whatever the digits. -/
def ofDecimal (negative : Bool) (m : Nat) (e : Int) : Binary64 :=
  if m = 0 ∨ digitCount m + e < -400 then .finite negative 0 lowestExponent
  else if 400 < digitCount m + e then .infinite negative
  else ofRatio negative (m * 10 ^ e.toNat) (10 ^ (-e).toNat)

/-- The numerator and the denominator of the size of a finite value. -/
def ratio (significand : Nat) (exponent : Int) : Nat × Nat :=
  (significand * 2 ^ exponent.toNat, 2 ^ (-exponent).toNat)

/-- The integer part of the size of a finite value. -/
def wholePart (significand : Nat) (exponent : Int) : Nat :=
  let (n, d) := ratio significand exponent
  n / d

def plus : Binary64 → Binary64 → Binary64
  | .finite _ m e, .finite _ m' e' =>
    let (n, d) := ratio m e
    let (n', d') := ratio m' e'
    ofRatio false (n * d' + n' * d) (d * d')
  | _, _ => .infinite false

def times : Binary64 → Binary64 → Binary64
  | .finite _ m e, .finite _ m' e' =>
    let (n, d) := ratio m e
    let (n', d') := ratio m' e'
    ofRatio false (n * n') (d * d')
  | _, _ => .infinite false

def isWhole (significand : Nat) (exponent : Int) : Bool :=
  let (n, d) := ratio significand exponent
  n % d == 0

end Binary64

end LoanOrders
