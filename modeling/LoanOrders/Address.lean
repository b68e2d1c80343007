import LoanOrders.Text.Blank
import LoanOrders.Text.Quoted

/-!
Addresses of accounts and mints. An address is a text without blanks around it; a type of its own
tells the address of a mint from the symbol of a token.
-/

namespace LoanOrders

structure Address where
  value : String
deriving DecidableEq

namespace Address

def ofText (text : String) : Address := ⟨Text.trimSpacing text⟩

/-- An address as it is shown where texts are quoted. -/
def literal (a : Address) : String := "Address(" ++ Text.quoted a.value ++ ")"

end Address

end LoanOrders
