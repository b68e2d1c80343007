import LoanOrders.Record.Fault

/-!
The outcome of reading a record: the record, or all faults of its fields. Fields are read side by
side, so that one fault does not hide another (`faults_seq`); a rule over several fields is checked
once all of them are valid.
-/

namespace LoanOrders

inductive Validated (α : Type)
  | valid (value : α)
  | faulty (faults : List Fault)
deriving DecidableEq

namespace Validated

def fault (code : FaultCode) : Validated α := .faulty [⟨code, []⟩]

def faults : Validated α → List Fault
  | .valid _ => []
  | .faulty faults => faults

def map (f : α → β) : Validated α → Validated β
  | .valid a => .valid (f a)
  | .faulty faults => .faulty faults

def seq (f : Validated (α → β)) (x : Unit → Validated α) : Validated β :=
  match f, x () with
  | .valid f, .valid a => .valid (f a)
  | .valid _, .faulty faults => .faulty faults
  | .faulty faults, x => .faulty (faults ++ x.faults)

instance : Applicative Validated where
  map := map
  pure := valid
  seq := seq

def andThen (x : Validated α) (f : α → Validated β) : Validated β :=
  match x with
  | .valid a => f a
  | .faulty faults => .faulty faults

/-- The outcome for a part, as the outcome for the whole. -/
def under (step : Step) : Validated α → Validated α
  | .valid a => .valid a
  | .faulty faults => .faulty (faults.map (·.under step))

/-- All values of a list, or the faults of all of them. -/
def all : List (Validated α) → Validated (List α)
  | [] => .valid []
  | x :: rest => List.cons <$> x <*> all rest

@[simp] theorem faults_valid (a : α) : (valid a).faults = [] := rfl

@[simp] theorem faults_faulty (e : List Fault) : (faulty e : Validated α).faults = e := rfl

theorem faults_seq (f : Validated (α → β)) (x : Validated α) :
    (f <*> x).faults = f.faults ++ x.faults := by
  change (seq f fun _ => x).faults = _
  cases f <;> cases x <;> simp [seq]

end Validated

end LoanOrders
