/-!
Decimal numbers as the General Decimal Arithmetic has them: a sign, a coefficient and an exponent,
so that `0.6` and `0.60` are two values of one size. Infinities and NaNs stand beside the finite
ones. An operation that has no number to return gives a `Signal`.
-/

namespace LoanOrders

/-- A finite value is `coefficient * 10 ^ exponent`, with its sign kept also on zero. A NaN carries
the digits of its payload as a number, where `0` says that there are none. -/
inductive Decimal
  | finite (negative : Bool) (coefficient : Nat) (exponent : Int)
  | infinite (negative : Bool)
  | nan (negative signaling : Bool) (payload : Nat)
deriving DecidableEq

/-- Why an operation has no result. -/
inductive Signal
  | invalidOperation
  | divisionByZero
  | overflow
deriving DecidableEq

/-- Counts the digits left after `fuel` divisions by ten at most. -/
def countDigits : Nat → Nat → Nat
  | 0, _ => 1
  | fuel + 1, n => if n < 10 then 1 else countDigits fuel (n / 10) + 1

/-- The number of decimal digits of `n`; zero has one. A number has no more decimal digits than
binary ones, which bounds the count. -/
def digitCount (n : Nat) : Nat := countDigits n.log2 n

namespace Decimal

def ofNat (n : Nat) : Decimal := .finite false n 0

def ofInt (n : Int) : Decimal := .finite (decide (n < 0)) n.natAbs 0

def zero : Decimal := ofNat 0

def one : Decimal := ofNat 1

def isNaN : Decimal → Bool
  | .nan .. => true
  | _ => false

def isSignaling : Decimal → Bool
  | .nan _ signaling _ => signaling
  | _ => false

def isFinite : Decimal → Bool
  | .finite .. => true
  | _ => false

/-- The same value with the other sign, also for zero. -/
def negate : Decimal → Decimal
  | .finite s m e => .finite (!s) m e
  | .infinite s => .infinite (!s)
  | .nan s q p => .nan (!s) q p

/-- The exponent of the first digit: `m * 10 ^ e` lies in `[10 ^ a, 10 ^ (a + 1))` for `m ≠ 0`. -/
def adjusted (m : Nat) (e : Int) : Int := e + digitCount m - 1

end Decimal

end LoanOrders
