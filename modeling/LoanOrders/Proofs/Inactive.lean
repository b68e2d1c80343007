import LoanOrders.Proofs.Accepted
import LoanOrders.Proofs.Execution

/-! Whether an order offers anything right after it is stored. Its condition does not hold for the
threshold that it was created with. The slot keeps a threshold that may lie on the other side of the
current value, but only if the two were closer than the last decimal place of a slot. -/

namespace LoanOrders

namespace Condition

variable {c : Condition} {o : Obligation} {value threshold liquidation : Decimal}

theorem le_of_distanceAbove {hit : Option Decimal}
    (h : distanceAbove value threshold liquidation = .ok hit) :
    value.le threshold = .ok hit.isNone := by
  unfold distanceAbove at h
  cases hle : value.le threshold with
  | error => simp [hle] at h
  | ok below =>
    cases below with
    | true =>
      obtain rfl : none = hit := by simpa [hle] using h
      rfl
    | false =>
      obtain ⟨x, rfl⟩ : ∃ x, some x = hit := by
        simp only [hle, ok_bind, bind_eq_ok, Bool.false_eq_true, if_false] at h
        obtain ⟨past, -, h⟩ := h
        cases past with
        | true => exact ⟨_, Except.ok.inj h⟩
        | false =>
          simp only [Bool.false_eq_true, if_false, bind_eq_ok] at h
          obtain ⟨_, -, _, -, x, -, h⟩ := h
          exact ⟨x, Except.ok.inj h⟩
      rfl

theorem ge_of_distanceBelow {hit : Option Decimal} (h : distanceBelow value threshold = .ok hit) :
    value.ge threshold = .ok hit.isNone := by
  unfold distanceBelow at h
  cases hge : value.ge threshold with
  | error => simp [hge] at h
  | ok above =>
    cases above with
    | true =>
      obtain rfl : none = hit := by simpa [hge] using h
      rfl
    | false =>
      obtain ⟨x, rfl⟩ : ∃ x, some x = hit := by
        simp only [hge, ok_bind, bind_eq_ok, Bool.false_eq_true, if_false] at h
        obtain ⟨_, -, x, -, h⟩ := h
        exact ⟨x, Except.ok.inj h⟩
      rfl

theorem distanceAbove_eq_none :
    distanceAbove value threshold liquidation = .ok none ↔ value.le threshold = .ok true :=
  ⟨le_of_distanceAbove, fun h => by simp [distanceAbove, h]⟩

theorem distanceBelow_eq_none :
    distanceBelow value threshold = .ok none ↔ value.ge threshold = .ok true :=
  ⟨ge_of_distanceBelow, fun h => by simp [distanceBelow, h]⟩

def current (c : Condition) (o : Obligation) : Result Decimal :=
  match c with
  | ltvAbove _ | ltvBelow _ => o.loanToValue
  | priceRatioAbove _ | priceRatioBelow _ => o.priceRatio
  | foreign name _ => .error (.unknownCondition name)

/-- Whether a condition leaves a value alone. -/
def clears (c : Condition) (value : Decimal) : Except Signal Bool :=
  match c with
  | ltvAbove t | priceRatioAbove t => value.le t
  | ltvBelow t | priceRatioBelow t => value.ge t
  | foreign _ _ => .ok false

theorem evaluate_withThreshold (h : c.evaluate o = .ok none) (t : Decimal) :
    ∃ x, c.current o = .ok x ∧ c.clears x = .ok true ∧
      ((c.withThreshold t).evaluate o = .ok none ↔ (c.withThreshold t).clears x = .ok true) := by
  cases c with
  | ltvAbove s | priceRatioAbove s =>
    simp only [evaluate, bind_eq_ok, liftM_eq_ok, distanceAbove_eq_none] at h
    obtain ⟨x, hx, l, hl, hclear⟩ := h
    refine ⟨x, by simp only [current, hx, liftM_ok], hclear, ?_⟩
    simp only [withThreshold, evaluate, hx, hl, liftM_ok, ok_bind, liftM_eq_ok, distanceAbove_eq_none,
      clears]
  | ltvBelow s | priceRatioBelow s =>
    simp only [evaluate, bind_eq_ok, liftM_eq_ok, distanceBelow_eq_none] at h
    obtain ⟨x, hx, hclear⟩ := h
    refine ⟨x, by simp only [current, hx, liftM_ok], hclear, ?_⟩
    simp only [withThreshold, evaluate, hx, liftM_ok, ok_bind, liftM_eq_ok, distanceBelow_eq_none,
      clears]
  | foreign name s => simp [evaluate] at h

/-- Whether a condition of this kind, but with another threshold, leaves a number alone. -/
def IsClear (c : Condition) (t q : ℚ) : Prop :=
  match c with
  | ltvAbove _ | priceRatioAbove _ => q ≤ t
  | ltvBelow _ | priceRatioBelow _ => t ≤ q
  | foreign _ _ => False

/-- Storing a threshold moves it past a value, from the side on which the condition does not hold. -/
def IsOvertaken (c : Condition) (value : Decimal) : Prop :=
  value.isFinite ∧ c.IsClear c.threshold.toRat value.toRat ∧
    ¬c.IsClear (FixedPoint.stored c.threshold.toRat) value.toRat

theorem clears_eq (ht : c.threshold.isFinite) (hvalue : value.isFinite) :
    c.clears value = .ok true ↔ c.IsClear c.threshold.toRat value.toRat := by
  cases c with
  | ltvAbove t | priceRatioAbove t =>
    rw [clears, Decimal.le_eq (y := t) hvalue ht, Except.ok.injEq, decide_eq_true_eq]
    rfl
  | ltvBelow t | priceRatioBelow t =>
    rw [clears, Decimal.ge_eq (y := t) hvalue ht, Except.ok.injEq, decide_eq_true_eq]
    rfl
  | foreign name t => simp [clears, IsClear]

/-- A condition that can be stored holds exactly if it does not leave the current value alone. -/
theorem isClear_of_evaluate {id : Nat} {hit : Option Decimal} (hid : c.typeId? = some id)
    (ht : c.threshold.isFinite) (h : c.evaluate o = .ok hit) : ∃ x, c.current o = .ok x ∧
      (x.isFinite → (hit = none ↔ c.IsClear c.threshold.toRat x.toRat)) := by
  obtain ⟨x, hx, hclear⟩ : ∃ x, c.current o = .ok x ∧ c.clears x = .ok hit.isNone := by
    cases c with
    | ltvAbove t | priceRatioAbove t =>
      simp only [evaluate, bind_eq_ok, liftM_eq_ok] at h
      obtain ⟨x, hx, l, -, h⟩ := h
      exact ⟨x, by simp only [current, hx, liftM_ok], le_of_distanceAbove h⟩
    | ltvBelow t | priceRatioBelow t =>
      simp only [evaluate, bind_eq_ok, liftM_eq_ok] at h
      obtain ⟨x, hx, h⟩ := h
      exact ⟨x, by simp only [current, hx, liftM_ok], ge_of_distanceBelow h⟩
    | foreign name t => simp [typeId?] at hid
  refine ⟨x, hx, fun hfin => ?_⟩
  rw [← clears_eq ht hfin, hclear, Except.ok.injEq, Option.isNone_iff_eq_none]

theorem clears_of_not_isFinite {t : Decimal} (hs : c.threshold.isFinite) (ht : t.isFinite)
    (hvalue : ¬value.isFinite) : (c.withThreshold t).clears value = c.clears value := by
  have hcompare : value.compare? t = value.compare? c.threshold := by
    obtain ⟨_, _, _, hseq⟩ := Decimal.exists_of_isFinite hs
    obtain ⟨_, _, _, rfl⟩ := Decimal.exists_of_isFinite ht
    rw [hseq]
    cases value with
    | finite => exact absurd rfl hvalue
    | infinite | nan => rfl
  cases c with
  | ltvAbove s | priceRatioAbove s =>
    simp only [withThreshold, clears, Decimal.le, Decimal.ordered, hcompare, threshold]
  | ltvBelow s | priceRatioBelow s =>
    simp only [withThreshold, clears, Decimal.ge, Decimal.ordered, hcompare, threshold]
  | foreign name s => rfl

theorem isClear_withThreshold (c : Condition) (s : Decimal) (t q : ℚ) :
    (c.withThreshold s).IsClear t q ↔ c.IsClear t q := by
  cases c <;> rfl

section Stored

variable {n : Nat} (hn : FixedPoint.encode c.threshold = .ok n)
include hn

/-- A threshold is moved by less than a decimal place of a slot, and one with no digits below that
not at all. -/
theorem IsOvertaken.near (h : c.IsOvertaken value) :
    |c.threshold.toRat - value.toRat| < 1 / 10 ^ 18 ∧ ¬FitsPlaces 18 c.threshold.toRat := by
  have hkept := FixedPoint.kept_of_encode hn
  rw [← FixedPoint.stored_eq hn] at hkept
  obtain ⟨-, hclear, hpast⟩ := h
  constructor
  · have hclose := abs_lt.mp hkept.1
    rw [abs_lt]
    cases c <;> simp only [IsClear, not_le] at hclear hpast <;> constructor <;> linarith
  · intro hplaces
    rw [hkept.2 hplaces] at hpast
    exact hpast hclear

theorem clears_withThreshold {t : Decimal} (ht : t.isFinite) (hval : t.toRat = FixedPoint.unscaled n)
    (h : c.clears value = .ok true) :
    (c.withThreshold t).clears value = .ok true ↔ ¬c.IsOvertaken value := by
  obtain ⟨hfin, -⟩ := FixedPoint.encode_ok hn
  by_cases hvalue : value.isFinite
  · have hclear := (clears_eq hfin hvalue).mp h
    rw [clears_eq (by rwa [threshold_withThreshold]) hvalue, threshold_withThreshold,
      isClear_withThreshold, hval, ← FixedPoint.stored_eq hn]
    simp [IsOvertaken, hvalue, hclear]
  · rw [clears_of_not_isFinite hfin ht hvalue]
    simp [IsOvertaken, hvalue, h]

end Stored

theorem evaluate_store (c : Condition) (context : OrderContext) (index : Fin 2) (state : SlotState) :
    c.evaluate (context.store index state).obligation = c.evaluate context.obligation := by
  cases c <;> rfl

end Condition

section Stored

variable {context : OrderContext} {typeName : String} {s : Specification} {u : SlotUpdate}
  {state : SlotState}

/-- What is stored offers nothing exactly if its threshold has not been moved past the current value.
A threshold that is not within a decimal place of the value stays on its side. -/
theorem stored_inactive_iff (h : context.Accepts typeName s u) (hstate : u.state = .ok state) :
    ∃ o r x, u.order = some o ∧ Order.decode state = .ok (some r) ∧
      o.condition.current context.obligation = .ok x ∧
      (r.condition.evaluate context.obligation = .ok none ↔ ¬o.condition.IsOvertaken x) ∧
      (¬o.condition.IsOvertaken x → ∀ offers,
        (context.store u.index state).obligation.executions context.market = .ok offers →
        ∀ e ∈ offers, e.1 ≠ u.index) ∧
      (o.condition.IsOvertaken x → |o.condition.threshold.toRat - x.toRat| < 1 / 10 ^ 18 ∧
        ¬FitsPlaces 18 o.condition.threshold.toRat) := by
  obtain ⟨o, ho, horder⟩ := h.exists_order
  have hencode : o.encode = .ok state := by rwa [SlotUpdate.state, ho] at hstate
  have hthreshold := (Order.encode_eq_ok.mp hencode).threshold
  obtain ⟨r, hr, hread⟩ := Order.exists_decode hencode
  obtain ⟨t, ht, hval, hcondition⟩ := hread.condition
  obtain ⟨x, hx, hclear, hevaluate⟩ := Condition.evaluate_withThreshold horder.inactive t
  have hiff := hevaluate.trans (Condition.clears_withThreshold hthreshold ht hval hclear)
  rw [← hcondition] at hiff
  refine ⟨o, r, x, ho, hr, hx, hiff, fun hovertaken offers hoffers e he hindex => ?_,
    fun hovertaken => hovertaken.near hthreshold⟩
  obtain ⟨index, order, hslot, hdecode, hexec⟩ := Obligation.exists_order_of_mem_executions hoffers he
  obtain rfl : u.index = index := Fin.ext (hindex.symm.trans hslot)
  have hsame : (context.store u.index state).obligation.slots.get u.index = state :=
    Slots.get_set_same _ _ _
  rw [hsame, hr] at hdecode
  obtain rfl : r = order := by simpa using hdecode
  have hnone : r.condition.evaluate (context.store u.index state).obligation = .ok none := by
    rw [Condition.evaluate_store]
    exact hiff.mpr hovertaken
  rw [Order.execution_eq_none hnone] at hexec
  simp at hexec

end Stored

/-- A stop-loss at 60 percent is stored without a change and waits. -/
theorem stored_inactive_iff_stopLoss : ∃ r,
    Order.decode ⟨1, 691752902764108186, 1, FixedPoint.maxEncoded, 50, 100⟩ = .ok (some r) ∧
      r.condition.evaluate longPosition.obligation = .ok none := by
  have hcreate : ltvFamily.create longPosition "StopLoss"
      (some ⟨.ltv (.stopLoss (.ofNat 60)), .fullRepay, (.ofNat 50, .ofNat 100)⟩) =
      .ok ⟨0, some ⟨.ltvAbove (.finite false 6 (-1)), .allDebt, .finite false 5 (-3),
        .finite false 1 (-2)⟩⟩ := by decide +kernel
  have hplaces : FitsPlaces 18 (Decimal.finite false 6 (-1)).toRat :=
    ⟨6 * 10 ^ 17, by norm_num [Context.signed]⟩
  have hstate : SlotUpdate.state ⟨0, some ⟨.ltvAbove (.finite false 6 (-1)), .allDebt,
      .finite false 5 (-3), .finite false 1 (-2)⟩⟩ =
      .ok ⟨1, 691752902764108186, 1, FixedPoint.maxEncoded, 50, 100⟩ := rfl
  obtain ⟨o, r, x, ho, hr, -, hiff, -, hnear⟩ := stored_inactive_iff (.inl hcreate) hstate
  obtain rfl := Option.some.inj ho
  exact ⟨r, hr, hiff.mpr fun h => (hnear h).2 hplaces⟩

/-- A long position of which a third is borrowed. -/
def thirdPosition : OrderContext where
  market := longPosition.market
  obligation :=
    { address := "obligation"
      market := "market"
      deposits := [("sol", ⟨"sol", "solMint", .ofNat (10 ^ 9), .ofNat (3 * 10 ^ 9), .ofNat 300⟩)]
      borrows := [("usd", ⟨"usd", "usdMint", .ofNat (10 ^ 6), .ofNat (10 ^ 8), .ofNat 100⟩)]
      stats := ⟨.ofNat 300, .ofNat 100, .ofNat 100, .ofNat 255⟩
      slots := .empty }

/-- A stop-loss at the loan to value of a third itself is stored below it, and offers an execution at
once. -/
theorem executions_of_thirdPosition :
    ltvFamily.create thirdPosition "StopLoss"
      (some ⟨.ltv (.stopLoss (.finite false 3333333333333333333333333333 (-26))), .fullRepay,
        (.ofNat 50, .ofNat 100)⟩) =
      .ok ⟨0, some ⟨.ltvAbove (.finite false 3333333333333333333333333333 (-28)), .allDebt,
        .finite false 5 (-3), .finite false 1 (-2)⟩⟩ ∧
    Order.encode ⟨.ltvAbove (.finite false 3333333333333333333333333333 (-28)), .allDebt,
        .finite false 5 (-3), .finite false 1 (-2)⟩ =
      .ok ⟨1, 384307168202282325, 1, FixedPoint.maxEncoded, 50, 100⟩ ∧
    (Order.decode ⟨1, 384307168202282325, 1, FixedPoint.maxEncoded, 50, 100⟩).map
        (fun r => r.map Order.condition) =
      .ok (some (.ltvAbove (.finite false 333333333333333333 (-18)))) ∧
    (Condition.ltvAbove (.finite false 333333333333333333 (-18))).evaluate thirdPosition.obligation ≠
      .ok none ∧
    (((thirdPosition.store 0 ⟨1, 384307168202282325, 1, FixedPoint.maxEncoded, 50, 100⟩).obligation
      |>.executions thirdPosition.market).map fun offers => offers.map Prod.fst) = .ok [0] := by
  decide +kernel

end LoanOrders
