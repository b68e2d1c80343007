import LoanOrders.Data.Basic
import LoanOrders.Error
import LoanOrders.Text.Numeral

/-!
Settings from data of any kind. Where data do not say what is asked for, a default stands in.
-/

namespace LoanOrders.Settings

/-- The texts that mean yes, in lower case. None of their letters is the lower case of a letter
outside of ASCII. -/
def affirmative : List String := ["1", "true", "yes", "on"]

def toBool (d : Data) (default : Bool) : Bool :=
  match d with
  | .bool b => b
  | .text s => affirmative.contains (String.ofList ((Text.trimSpacing s).toList.map Char.toLower))
  | _ => default

def toInt (d : Data) (default : Int) : Result Int :=
  match d with
  | .bool b => .ok (if b then 1 else 0)
  | .int n => .ok n
  | .float (.finite s m e) =>
    .ok (if s then -(Binary64.wholePart m e : Int) else Binary64.wholePart m e)
  | .float (.infinite _) => .error .infiniteInteger
  | .text s => .ok ((Text.readInt? s).getD default)
  | _ => .ok default

/-- The texts without the blanks around them, as far as anything is left. -/
def trimmed (texts : List String) : List String :=
  (texts.map Text.trimSpacing).filter (· != "")

/-- Data as a text of their own, unless a number in them is too long. -/
def shown (d : Data) : Result String :=
  if d.isShowable then .ok d.display else .error .tooLongToShow

/-- The items of a list, or of a text with commas between them. -/
def toList (d : Data) : Result (List String) :=
  match d with
  | .null => .ok []
  | .list items => trimmed <$> items.mapM shown
  | d => do return trimmed ((← shown d).splitToList (· == ','))

def toRange (d : Data) (default : Int × Int) : Result (Int × Int) := do
  match ← toList d with
  | [low, high] => return ((Text.readInt? low).getD default.1, (Text.readInt? high).getD default.2)
  | _ => return default

end LoanOrders.Settings
