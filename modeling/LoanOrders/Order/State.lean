import LoanOrders.FixedPoint
import LoanOrders.Record.Field

/-!
The state of an order slot as it is stored: six natural numbers. The id `0` of a condition marks an
empty slot.
-/

namespace LoanOrders

structure SlotState where
  conditionType : Nat
  threshold : Nat
  opportunityType : Nat
  parameter : Nat
  minBonusBps : Nat
  maxBonusBps : Nat
deriving DecidableEq

namespace SlotState

def empty : SlotState := ⟨0, 0, 0, 0, 0, 0⟩

def isEmpty (s : SlotState) : Bool := s.conditionType == 0

def names : List String :=
  ["condition_type", "condition_threshold_sf", "opportunity_type", "opportunity_parameter_sf",
    "min_execution_bonus_bps", "max_execution_bonus_bps"]

def toList (s : SlotState) : List Nat :=
  [s.conditionType, s.threshold, s.opportunityType, s.parameter, s.minBonusBps, s.maxBonusBps]

/-- Reads a state from its entries, where a missing one is zero. -/
def read (entries : Entries) : Validated SlotState :=
  SlotState.mk
    <$> Entries.optional entries "condition_type" 0 (Data.asNatUpTo (some 255))
    <*> Entries.optional entries "condition_threshold_sf" 0 (Data.asNatUpTo none)
    <*> Entries.optional entries "opportunity_type" 0 (Data.asNatUpTo (some 255))
    <*> Entries.optional entries "opportunity_parameter_sf" 0 (Data.asNatUpTo none)
    <*> Entries.optional entries "min_execution_bonus_bps" 0
      (Data.asNatUpTo (some Rate.maxBonusBps))
    <*> Entries.optional entries "max_execution_bonus_bps" 0
      (Data.asNatUpTo (some Rate.maxBonusBps))

def ofEntries (entries : Entries) : Result SlotState := (read entries).result .slotState

/-- The entries that a list of values stands for, the first one being the id of the condition. -/
def entriesOfList (values : List Data) : Entries := (names.map Scalar.text).zip values

def toEntries (s : SlotState) : Entries :=
  entriesOfList (s.toList.map fun n : Nat => .int n)

/-- A bonus in basis points that a slot has room for. -/
def checkBonus (name : String) (bps : Int) : Validated Nat :=
  (Data.asNatUpTo (some Rate.maxBonusBps) (.int bps)).under (.field name)

def withBonuses (conditionType threshold opportunityType parameter : Nat) (min max : Int) :
    Result SlotState :=
  (SlotState.mk conditionType threshold opportunityType parameter
    <$> checkBonus "min_execution_bonus_bps" min
    <*> checkBonus "max_execution_bonus_bps" max).result .slotState

end SlotState

/-- The two order slots of an obligation. The first is for its stop-loss order, the second for its
take-profit order. -/
structure Slots where
  first : SlotState
  second : SlotState
deriving DecidableEq

namespace Slots

def empty : Slots := ⟨.empty, .empty⟩

def get (s : Slots) (index : Fin 2) : SlotState := if index = 0 then s.first else s.second

def set (s : Slots) (index : Fin 2) (state : SlotState) : Slots :=
  if index = 0 then { s with first := state } else { s with second := state }

def toList (s : Slots) : List SlotState := [s.first, s.second]

def ofList : List SlotState → Validated Slots
  | [a, b] => .valid ⟨a, b⟩
  | states => .fault (.broken (.twoSlots states.length))

theorem get_set_same (s : Slots) (i : Fin 2) (state : SlotState) :
    (s.set i state).get i = state := by
  unfold get set
  split <;> simp

theorem get_set_other (s : Slots) {i j : Fin 2} (h : i ≠ j) (state : SlotState) :
    (s.set i state).get j = s.get j := by
  have hij : i = 0 ∧ j = 1 ∨ i = 1 ∧ j = 0 := by omega
  rcases hij with ⟨rfl, rfl⟩ | ⟨rfl, rfl⟩ <;> rfl

end Slots

end LoanOrders
