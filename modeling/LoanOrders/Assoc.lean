/-!
Lists of entries with one value for each key, in the order in which the keys came first.
-/

namespace LoanOrders.Assoc

/-- Sets the value of a key, which keeps its place if it is there already. -/
def put (same : κ → κ → Bool) (entries : List (κ × α)) (key : κ) (value : α) : List (κ × α) :=
  match entries with
  | [] => [(key, value)]
  | (k, v) :: rest =>
    if same k key then (k, value) :: rest else (k, v) :: put same rest key value

/-- The entries of a list of pairs, where the last pair of a key counts. -/
def ofList (same : κ → κ → Bool) (pairs : List (κ × α)) : List (κ × α) :=
  pairs.foldl (fun entries pair => put same entries pair.1 pair.2) []

end LoanOrders.Assoc
