import LoanOrders.Binary64.Basic
import LoanOrders.Decimal.Text
import LoanOrders.Power

/-!
The shortest decimal text of a binary floating-point number that reads back as that number.
-/

namespace LoanOrders.Binary64

open Power

/-- The place of the first decimal digit of `n / d`, for positive `n` and `d`. -/
def leadingPlace (n d : Nat) : Int :=
  let guess : Int := (digitCount n : Int) - digitCount d
  if d * 10 ^ guess.toNat ≤ n * 10 ^ (-guess).toNat then guess else guess - 1

/-- The two decimals around `n / d` with their last digit at `place`, the nearer one first and the
even one of two equally near. -/
def neighbours (n d : Nat) (place : Int) : Nat × Nat :=
  let n := n * 10 ^ (-place).toNat
  let d := d * 10 ^ place.toNat
  let q := n / d
  if roundQuotient .even n d = q then (q, q + 1) else (q + 1, q)

/-- The first number of digits, from `17 - fuel` on, with which one of the two neighbours reads
back, and that neighbour with its place. Seventeen digits always suffice. -/
def searchShortest (x : Binary64) (n d : Nat) : Nat → Nat × Int
  | 0 =>
    let place := leadingPlace n d - 16
    ((neighbours n d place).1, place)
  | fuel + 1 =>
    let place := leadingPlace n d - (16 - (fuel + 1))
    let (near, far) := neighbours n d place
    if ofDecimal false near place = x then (near, place)
    else if ofDecimal false far place = x then (far, place)
    else searchShortest x n d fuel

/-- The fewest digits that read back as a positive finite value, nearest to it among those, and the
place of the last one. -/
def shortestDigits (significand : Nat) (exponent : Int) : List Char × Int :=
  let (n, d) := ratio significand exponent
  let (m, place) := searchShortest (.finite false significand exponent) n d 16
  let zeros := trailingZeros (digitCount m) m
  (Text.digits (m / 10 ^ zeros), place + zeros)

/-- The digits with a point, in scientific form if the first digit lies at the sixteenth place above
the point or higher, or at the fifth below it or lower. -/
def layout (ds : List Char) (place : Int) : List Char :=
  let point := ds.length + place
  if -4 < point ∧ point ≤ 16 then
    if point ≤ 0 then '0' :: '.' :: List.replicate (-point).toNat '0' ++ ds
    else if 0 ≤ place then ds ++ List.replicate place.toNat '0' ++ ['.', '0']
    else ds.take point.toNat ++ '.' :: ds.drop point.toNat
  else
    let power := point - 1
    let mantissa := match ds with
      | d :: d' :: rest => d :: '.' :: d' :: rest
      | ds => ds
    let width := Text.digits power.natAbs
    mantissa ++ 'e' :: (if power < 0 then '-' else '+') ::
      (if width.length < 2 then '0' :: width else width)

/-- The text of a number; a whole number ends in `.0`. -/
def text : Binary64 → String
  | .finite s m e =>
    let size := if m = 0 then ['0', '.', '0'] else
      let (ds, place) := shortestDigits m e
      layout ds place
    String.ofList ((if s then ['-'] else []) ++ size)
  | .infinite s => (if s then "-" else "") ++ "inf"
  | .nan => "nan"

/-- The decimal that the shortest text of a number stands for. -/
def toDecimal (x : Binary64) : Except Signal Decimal := Decimal.ofText x.text

end LoanOrders.Binary64
