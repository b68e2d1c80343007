/-!
Blank characters, and texts without the blanks around them. Two classes are in use: the Unicode
property `White_Space` for the fields of records and for whole numbers, and the same with the four
information separators for names, lists and decimals that are read from a plain text.
-/

namespace LoanOrders.Text

/-- The Unicode property `White_Space`. -/
def isBlank (c : Char) : Bool :=
  let n := c.toNat
  (0x09 ≤ n && n ≤ 0x0D) || n == 0x20 || n == 0x85 || n == 0xA0 || n == 0x1680 ||
    (0x2000 ≤ n && n ≤ 0x200A) || n == 0x2028 || n == 0x2029 || n == 0x202F || n == 0x205F ||
    n == 0x3000

/-- A blank or one of the information separators U+001C to U+001F. -/
def isSpacing (c : Char) : Bool :=
  isBlank c || (0x1C ≤ c.toNat && c.toNat ≤ 0x1F)

/-- The characters between the first and the last that are not of the class. -/
def trimList (outer : Char → Bool) (cs : List Char) : List Char :=
  ((cs.dropWhile outer).reverse.dropWhile outer).reverse

/-- A text without the blanks around it, as a field of a record holds it. -/
def trimBlank (s : String) : String := String.ofList (trimList isBlank s.toList)

def trimSpacing (s : String) : String := String.ofList (trimList isSpacing s.toList)

end LoanOrders.Text
