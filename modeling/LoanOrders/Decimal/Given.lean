import LoanOrders.Decimal.Text

/-!
Numbers as a caller gives them. A text is read only when its value is needed, so a calculation on
the numbers before it can fail first, and a message can show it as it was written.
-/

namespace LoanOrders

inductive Given
  | value (x : Decimal)
  | written (text : String)
deriving DecidableEq

namespace Given

instance : Coe Decimal Given := ⟨value⟩

def read : Given → Except Signal Decimal
  | value x => .ok x
  | written s => Decimal.ofText s

def text : Given → String
  | value x => x.text
  | written s => s

end Given

end LoanOrders
