import LoanOrders.Decimal.Basic
import LoanOrders.Power

/-!
Rounding a quotient of natural numbers to the nearest one. All rounding of the library goes
through `roundQuotient`: to a precision, to a place, to an integer and to a binary fraction.
-/

namespace LoanOrders

open Power

/-- Where a number halfway between two neighbours goes: to the even one, or away from zero. -/
inductive Tie
  | even
  | away
deriving DecidableEq

/-- The natural number nearest to `n / d`, for `d ≠ 0`. -/
def roundQuotient (tie : Tie) (n d : Nat) : Nat :=
  let q := n / d
  let r := n % d
  if 2 * r < d then q
  else if d < 2 * r then q + 1
  else match tie with
    | .even => q + q % 2
    | .away => q + 1

/-- `m * 10 ^ e` as a multiple of `10 ^ place`, rounded if `place` lies above `e`. When more places
are cut off than `m` has digits, the value is below a tenth and rounds to zero. -/
def roundToPlace (tie : Tie) (m : Nat) (e place : Int) : Nat :=
  if place ≤ e then m * 10 ^ (e - place).toNat
  else
    let cut := (place - e).toNat
    if digitCount m < cut then 0 else roundQuotient tie m (10 ^ cut)

/-- How many of the last `limit` digits of `n`, counted from its end, are zeros without a gap. -/
def trailingZeros : Nat → Nat → Nat
  | 0, _ => 0
  | limit + 1, n => if n % 10 = 0 then trailingZeros limit (n / 10) + 1 else 0

end LoanOrders
