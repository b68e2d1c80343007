import LoanOrders.Proofs.Reading
import LoanOrders.Specification

/-! Reading back the entries that a specification is written as. Nothing is lost, provided that its
numbers are finite and its prices above zero. Two specifications are compared number by number. -/

namespace LoanOrders

variable {x y : Decimal}

/-- Finite decimals that stand for related numbers. -/
def Decimal.Related (R : ℚ → ℚ → Prop) (x y : Decimal) : Prop :=
  x.isFinite ∧ y.isFinite ∧ R x.toRat y.toRat

theorem Decimal.Related.imp {R S : ℚ → ℚ → Prop} (h : Related R x y)
    (hRS : ∀ q, R x.toRat q → S x.toRat q) : Related S x y :=
  ⟨h.1, h.2.1, hRS _ h.2.2⟩

namespace LtvTrigger

def percent : LtvTrigger → Decimal
  | stopLoss x | takeProfit x => x

def make : LtvTriggerType → Decimal → LtvTrigger
  | .stopLoss => stopLoss
  | .takeProfit => takeProfit

@[simp] theorem type_make (type : LtvTriggerType) (x : Decimal) : (make type x).type = type := by
  cases type <;> rfl

@[simp] theorem percent_make (type : LtvTriggerType) (x : Decimal) : (make type x).percent = x := by
  cases type <;> rfl

theorem ofPercent_eq (hx : x.isFinite) (type : LtvTriggerType) :
    ofPercent type x = .ok (make type x) := by
  obtain ⟨s, m, e, rfl⟩ := Decimal.exists_of_isFinite hx
  cases type <;> rfl

end LtvTrigger

namespace PriceTrigger

@[simp] theorem type_make (type : PriceTriggerType) (x : Decimal) : (make type x).type = type := by
  cases type <;> rfl

@[simp] theorem price_make (type : PriceTriggerType) (x : Decimal) : (make type x).price = x := by
  cases type <;> rfl

theorem toEntries_make (type : PriceTriggerType) (x : Decimal) :
    (make type x).toEntries = [(.text "type", .text type.name), (.text (field type), .decimal x)] := by
  rw [toEntries, type_make, price_make]

theorem read_toEntries (hx : x.isFinite) (h : 0 < x.toRat) (type : PriceTriggerType) :
    read type (make type x).toEntries = .valid (make type x) := by
  have htag : Entries.optional (make type x).toEntries "type" () (Data.asTag type.name) = .valid () := by
    cases type <;> rfl
  have hget : Entries.get? (make type x).toEntries (field type) = some (.decimal x) := by
    cases type <;> rfl
  have hprice : Data.asDecimal .positive (.decimal x) = .valid x :=
    Data.asDecimal_of_check hx ((Data.Bound.check_positive hx).mpr h)
  rw [read, htag, Entries.required_eq hget hprice, Validated.map_valid, Validated.seq_valid]

theorem ofPrice_eq (hx : x.isFinite) (h : 0 < x.toRat) (type : PriceTriggerType) :
    ofPrice type x = .ok (make type x) := by
  rw [ofPrice, ofEntries, read_toEntries hx h, Validated.result]

end PriceTrigger

namespace Trigger

def Related (R : ℚ → ℚ → Prop) : Trigger → Trigger → Prop
  | ltv a, ltv b => a.type = b.type ∧ Decimal.Related R a.percent b.percent
  | price a, price b => a.type = b.type ∧ Decimal.Related R a.price b.price
  | _, _ => False

def number? : Trigger → Option Decimal
  | ltv t => some t.percent
  | price t => some t.price
  | other _ => none

theorem Related.imp {R S : ℚ → ℚ → Prop} {a b : Trigger} (h : a.Related R b)
    (hRS : ∀ x ∈ a.number?, ∀ q, R x.toRat q → S x.toRat q) : a.Related S b := by
  cases a <;> cases b <;> simp only [Related] at h ⊢
  all_goals exact ⟨h.1, h.2.imp (hRS _ rfl)⟩

end Trigger

namespace Action

def Related (R : ℚ → ℚ → Prop) : Action → Action → Prop
  | fullRepay, fullRepay => True
  | partialRepay x, partialRepay y => Decimal.Related R x y
  | _, _ => False

def amount? : Action → Option Decimal
  | partialRepay x => some x
  | _ => none

theorem Related.imp {R S : ℚ → ℚ → Prop} {a b : Action} (h : a.Related R b)
    (hRS : ∀ x ∈ a.amount?, ∀ q, R x.toRat q → S x.toRat q) : a.Related S b := by
  cases a <;> cases b <;> simp only [Related] at h ⊢
  exact Decimal.Related.imp h (hRS _ rfl)

def IsReadable : Action → Prop
  | fullRepay => True
  | partialRepay x => x.isFinite
  | foreign _ => False

theorem ofAmount_eq (hx : x.isFinite) : ofAmount x = .ok (partialRepay x) := by
  obtain ⟨s, m, e, rfl⟩ := Decimal.exists_of_isFinite hx
  rfl

end Action

namespace Specification

/-- Specifications that differ at most in how their numbers are written. -/
def Same (s t : Specification) : Prop :=
  s.trigger.Related Eq t.trigger ∧ s.action.Related Eq t.action ∧
    Decimal.Related Eq s.bonusBps.1 t.bonusBps.1 ∧ Decimal.Related Eq s.bonusBps.2 t.bonusBps.2

theorem readTrigger_ltv (hx : x.isFinite) (type : LtvTriggerType) :
    readTrigger .ltv (Trigger.ltv (.make type x)).toData = .valid (.ltv (.make type x)) := by
  obtain ⟨s, m, e, rfl⟩ := Decimal.exists_of_isFinite hx
  cases type <;> rfl

theorem readTrigger_price (hx : x.isFinite) (h : 0 < x.toRat) (type : PriceTriggerType) :
    readTrigger .price (Trigger.price (.make type x)).toData = .valid (.price (.make type x)) := by
  have htag : Entries.get? (PriceTrigger.make type x).toEntries "type" = some (.text type.name) := by
    rw [PriceTrigger.toEntries_make]
    rfl
  simp only [readTrigger, Trigger.toData, Data.asTagged, htag, PriceTriggerType.ofName?_name,
    Option.map_some, PriceTrigger.read_toEntries hx h]
  rfl

theorem readAction_eq {a : Action} (ha : a.IsReadable) : readAction (.object a.toEntries) = .valid a := by
  cases a with
  | fullRepay => rfl
  | partialRepay x =>
    obtain ⟨s, m, e, rfl⟩ := Decimal.exists_of_isFinite ha
    rfl
  | foreign => exact ha.elim

theorem readBonus_eq (hx : x.isFinite) (hy : y.isFinite) :
    readBonus (.list [.decimal x, .decimal y]) = .valid (x, y) := by
  obtain ⟨s, m, e, rfl⟩ := Decimal.exists_of_isFinite hx
  obtain ⟨t, n, f, rfl⟩ := Decimal.exists_of_isFinite hy
  rfl

/-- A specification is read from its own entries if its trigger is one of the family. -/
theorem ofEntries_toEntries {kind : SpecificationKind} {s : Specification}
    (ht : readTrigger kind s.trigger.toData = .valid s.trigger) (ha : s.action.IsReadable)
    (hmin : s.bonusBps.1.isFinite) (hmax : s.bonusBps.2.isFinite) :
    ofEntries kind s.toEntries = .ok s := by
  have htrigger : Entries.get? s.toEntries "trigger" = some s.trigger.toData := rfl
  have haction : Entries.get? s.toEntries "action" = some (.object s.action.toEntries) := rfl
  have hbonus : Entries.get? s.toEntries "execution_bonus_bps_range" =
      some (.list [.decimal s.bonusBps.1, .decimal s.bonusBps.2]) := rfl
  rw [ofEntries, read, Entries.required_eq htrigger ht, Entries.required_eq haction (readAction_eq ha),
    Entries.required_eq hbonus (readBonus_eq hmin hmax), Validated.map_valid, Validated.seq_valid,
    Validated.seq_valid, Validated.result]

end Specification

end LoanOrders
