import LoanOrders.Proofs.Family
import LoanOrders.Proofs.Signals

/-! Why a request for an order fails. It is refused with an error about the request, unless a number on
the way cannot be computed: the threshold or the bonus is too large to be scaled, or the condition has
no value on the obligation. -/

namespace LoanOrders

open Decimal

theorem LtvTrigger.isFinite_of_read {type : LtvTriggerType} {entries : Entries} {t : LtvTrigger}
    (h : read type entries = .valid t) : t.percent.isFinite := by
  cases type <;> simp only [read, Validated.seq_eq_valid, Validated.map_eq_valid] at h
  all_goals
    obtain ⟨_, x, ⟨_, -, rfl⟩, hx, rfl⟩ := h
    obtain ⟨_, hx⟩ := Entries.required_eq_valid hx
    exact (Data.asDecimal_eq_valid hx).1

theorem PriceTrigger.isPos_of_read {type : PriceTriggerType} {entries : Entries} {t : PriceTrigger}
    (h : read type entries = .valid t) : t.price.IsPos := by
  simp only [read, Validated.seq_eq_valid, Validated.map_eq_valid] at h
  obtain ⟨_, x, ⟨_, -, rfl⟩, hx, rfl⟩ := h
  obtain ⟨_, hx⟩ := Entries.required_eq_valid hx
  rw [price_make]
  exact Data.isPos_of_asDecimal hx

theorem Action.isReadable_of_read {type : ActionType} {entries : Entries} {a : Action}
    (h : read type entries = .valid a) : a.IsReadable := by
  cases type <;> simp only [read, Validated.seq_eq_valid, Validated.map_eq_valid] at h
  · obtain ⟨_, -, rfl⟩ := h
    exact trivial
  · obtain ⟨_, x, ⟨_, -, rfl⟩, hx, rfl⟩ := h
    obtain ⟨_, hx⟩ := Entries.required_eq_valid hx
    exact (Data.asDecimal_eq_valid hx).1

/-- The number of a trigger is finite, and a price above zero. -/
def Trigger.IsSound : Trigger → Prop
  | ltv t => t.percent.isFinite
  | price t => t.price.IsPos
  | other _ => True

namespace Specification

/-- What is known of a specification that was read. -/
structure IsSound (s : Specification) : Prop where
  trigger : s.trigger.IsSound
  action : s.action.IsReadable
  low : s.bonusBps.1.isFinite
  high : s.bonusBps.2.isFinite

theorem isSound_of_readTrigger {kind : SpecificationKind} {d : Data} {t : Trigger}
    (h : readTrigger kind d = .valid t) : t.IsSound := by
  cases kind with
  | general =>
    obtain rfl : .other d = t := by simpa [readTrigger] using h
    exact trivial
  | ltv =>
    obtain ⟨t, ht, rfl⟩ := Validated.map_eq_valid.mp h
    obtain ⟨tag, read, entries, htag, ht⟩ := Data.asTagged_eq_valid ht
    obtain ⟨type, -, rfl⟩ := Option.map_eq_some_iff.mp htag
    exact LtvTrigger.isFinite_of_read ht
  | price =>
    obtain ⟨t, ht, rfl⟩ := Validated.map_eq_valid.mp h
    obtain ⟨tag, read, entries, htag, ht⟩ := Data.asTagged_eq_valid ht
    obtain ⟨type, -, rfl⟩ := Option.map_eq_some_iff.mp htag
    exact PriceTrigger.isPos_of_read ht

theorem isSound_of_ofEntries {kind : SpecificationKind} {entries : Entries} {s : Specification}
    (h : ofEntries kind entries = .ok s) : s.IsSound := by
  rw [ofEntries, Validated.result_eq_ok] at h
  simp only [read, Validated.seq_eq_valid, Validated.map_eq_valid] at h
  obtain ⟨_, bonus, ⟨_, action, ⟨trigger, htrigger, rfl⟩, haction, rfl⟩, hbonus, rfl⟩ := h
  obtain ⟨_, htrigger⟩ := Entries.required_eq_valid htrigger
  obtain ⟨_, haction⟩ := Entries.required_eq_valid haction
  obtain ⟨_, hbonus⟩ := Entries.required_eq_valid hbonus
  obtain ⟨⟨_, hlow⟩, _, hhigh⟩ := Data.asPairOf_eq_valid hbonus
  obtain ⟨_, read, _, hread, haction⟩ := Data.asTagged_eq_valid haction
  obtain ⟨type, -, rfl⟩ := Option.map_eq_some_iff.mp hread
  exact ⟨isSound_of_readTrigger htrigger, Action.isReadable_of_read haction,
    (Data.asDecimal_eq_valid hlow).1, (Data.asDecimal_eq_valid hhigh).1⟩

end Specification

theorem Error.isModel_of_precondition {e : Error} {p : Precondition} (h : e.kind = .precondition p) :
    e.IsModel := by
  rw [IsModel, h]
  rfl

section Storing

variable {c : Condition}

/-- A threshold that no slot has room for is refused, unless it is too large to be scaled. -/
theorem Condition.checkStorable_eq_error (hc : c.threshold.isFinite)
    (h : ¬FixedPoint.IsStorable c.threshold.toRat)
    (hlt : |c.threshold.toRat * FixedPoint.scale| < Context.wide.overflowBound) :
    ∃ e, c.checkStorable = .error e ∧ e.kind = .precondition .range := by
  obtain ⟨p, hp⟩ := (Context.exists_mul_ofNat_iff hc FixedPoint.scale).mpr hlt
  have hencode := FixedPoint.encode_eq hp hc
  rw [FixedPoint.isStorable_iff] at h
  by_cases hout : FixedPoint.scaled c.threshold.toRat < 0 ∨
      (FixedPoint.maxEncoded : ℤ) < FixedPoint.scaled c.threshold.toRat
  · rw [if_pos hout] at hencode
    exact ⟨.thresholdNotStorable (.notFraction c.threshold.text),
      by simp [checkStorable, hencode, Error.kind], rfl⟩
  · rw [if_neg hout] at hencode
    have hzero : ¬0 < (FixedPoint.scaled c.threshold.toRat).toNat := by omega
    exact ⟨.thresholdTooSmall c.threshold, by simp [checkStorable, hencode, hzero], rfl⟩

theorem Condition.signalsIf_checkStorable (hc : c.threshold.isFinite) :
    c.checkStorable.SignalsIf
      (Context.wide.overflowBound ≤ |c.threshold.toRat * FixedPoint.scale|) := by
  constructor
  · intro hge
    have hnone := (Context.exists_mul_ofNat_iff hc FixedPoint.scale).not.mpr (not_lt.mpr hge)
    cases hproduct : Context.wide.mul c.threshold (.ofNat FixedPoint.scale) with
    | ok p => exact absurd ⟨p, hproduct⟩ hnone
    | error signal => exact ⟨signal, by simp [checkStorable, FixedPoint.encode, hproduct, Error.kind]⟩
  · intro hlt
    rw [not_le] at hlt
    by_cases h : FixedPoint.IsStorable c.threshold.toRat
    · rw [Condition.checkStorable_eq h]
      exact trivial
    · obtain ⟨e, he, hkind⟩ := Condition.checkStorable_eq_error hc h hlt
      rw [he]
      exact Error.isModel_of_precondition hkind

end Storing

namespace Rate

variable {min max : Decimal}

/-- A bonus is too large to be scaled. That of the maximum is scaled back if the range is in order. -/
def LacksRates (min max : ℚ) : Prop :=
  Context.standard.overflowBound ≤ |min / fullBps| ∨ Context.standard.overflowBound ≤ |max / fullBps| ∨
    0 ≤ Context.standard.rounded (min / fullBps) ∧
      Context.standard.rounded (min / fullBps) ≤ Context.standard.rounded (max / fullBps) ∧
      Context.standard.overflowBound ≤ |max|

theorem signalsIf_ofBonusRange (hmin : min.isFinite) (hmax : max.isFinite) :
    Result.SignalsIf (LacksRates min.toRat max.toRat) (ofBonusRange min max) := by
  simp only [ofBonusRange, Given.read, liftM_ok, ok_bind]
  have hofBps {x : Decimal} (hx : x.isFinite) :
      (∃ y, ofBps x = .ok y) ↔ ¬Context.standard.overflowBound ≤ |x.toRat / fullBps| :=
    (Context.exists_div_ofNat_iff hx (by decide)).trans not_le.symm
  refine .bind_liftM (hofBps hmin) fun low hlow => .bind_liftM (hofBps hmax) fun high hhigh => ?_
  obtain ⟨hlowFin, hlowVal⟩ := ofBps_ok hmin hlow
  obtain ⟨hhighFin, hhighVal⟩ := ofBps_ok hmax hhigh
  rw [← hlowVal, ← hhighVal, Decimal.ge_zero hlowFin, Decimal.ge_eq hhighFin hlowFin]
  by_cases hnonneg : 0 ≤ low.toRat
  · by_cases hle : low.toRat ≤ high.toRat
    · have hbps : (∃ y, toBps high = .ok y) ↔ ¬Context.standard.overflowBound ≤ |max.toRat| := by
        have hfull : (fullBps : ℚ) = 10 ^ 4 := by norm_num [fullBps]
        rw [toBps, Context.exists_mul_ofNat_iff hhighFin, hhighVal, hfull,
          Context.rounded_div_mul_lt_iff (by decide), not_le]
      simp only [hnonneg, hle, decide_true, liftM_ok, ok_bind, check_true, true_and]
      refine .bind_left (.of_exists hbps) fun bps hbps => ?_
      obtain ⟨hbpsFin, -⟩ := toBps_ok hhighFin (liftM_eq_ok.mp hbps)
      obtain ⟨whole, hwhole, hwholeFin, -⟩ := FixedPoint.exists_roundNearest hbpsFin
      rw [hwhole, liftM_ok, ok_bind, Decimal.le_eq hwholeFin (Decimal.isFinite_ofNat maxBonusBps), liftM_ok,
        ok_bind]
      exact .bind_left (.of_meets (meets_check _ rfl)) fun _ _ => .ok (low, high)
    · simp only [hnonneg, hle, decide_true, decide_false, liftM_ok, ok_bind, check_true, check_false,
        error_bind, false_and, and_false]
      exact .refused rfl
  · simp only [hnonneg, decide_false, liftM_ok, ok_bind, check_false, error_bind, false_and]
    exact .refused rfl

end Rate

theorem Action.meets_toOpportunity {a : Action} {o : Obligation} (ha : a.IsReadable) (ho : o.IsSound) :
    (a.toOpportunity o).Meets Error.IsModel fun _ => True := by
  cases a with
  | fullRepay => exact trivial
  | partialRepay x =>
    rw [toOpportunity, Decimal.gt_zero ha, liftM_ok, ok_bind]
    refine .bind (meets_check _ rfl) fun _ _ _ =>
      (meets_single "borrow" o.borrowList).bind fun borrow _ hborrow => ?_
    dsimp only
    rw [Decimal.le_eq ha (ho.borrows borrow (by simp [hborrow])).amount.1, liftM_ok, ok_bind]
    exact .bind (meets_check _ rfl) fun _ _ _ => trivial
  | foreign name => exact ha.elim

namespace Family

variable {context : OrderContext} {c : Condition} {s : Specification}

/-- Where the arithmetic fails for an order of a condition: the threshold is too large to be scaled, the
condition has no value, or, for an order that is otherwise in order, a bonus is too large. -/
inductive OrderLacks (context : OrderContext) (c : Condition) (s : Specification) : Prop
  | encoding (h : Context.wide.overflowBound ≤ |c.threshold.toRat * FixedPoint.scale|)
  | value (hstorable : FixedPoint.IsStorable c.threshold.toRat) (h : c.LacksValue context.obligation)
  | rates (hstorable : FixedPoint.IsStorable c.threshold.toRat)
      (hinactive : c.evaluate context.obligation = .ok none)
      (haction : ∃ opp, s.action.toOpportunity context.obligation = .ok opp)
      (h : Rate.LacksRates s.bonusBps.1.toRat s.bonusBps.2.toRat)

theorem signalsIf_orderOf (hc : c.threshold.isFinite) (ho : context.obligation.IsSound)
    (hs : s.IsSound) : (orderOf context c s).SignalsIf (OrderLacks context c s) := by
  have hstorable (h : c.checkStorable = .ok ()) : FixedPoint.IsStorable c.threshold.toRat :=
    FixedPoint.exists_encode_iff.mp (Condition.checkStorable_ok h)
  -- The bonus is looked at last, when nothing else speaks against the order.
  have hrest : Result.SignalsIf (∃ opp, s.action.toOpportunity context.obligation = .ok opp ∧
      Rate.LacksRates s.bonusBps.1.toRat s.bonusBps.2.toRat) (do
        let opportunity ← s.action.toOpportunity context.obligation
        let rates ← Rate.ofBonusRange s.bonusBps.1 s.bonusBps.2
        return ⟨c, opportunity, rates.1, rates.2⟩ : Result Order) :=
    .bind_right (.of_meets (Action.meets_toOpportunity hs.action ho)) fun opportunity _ =>
      .bind_left (Rate.signalsIf_ofBonusRange hs.low hs.high) fun rates _ => .ok _
  refine Result.SignalsIf.congr (.bind (Condition.signalsIf_checkStorable hc) fun _ hcheck =>
    .bind (Condition.signalsIf_evaluate ho (hstorable hcheck)) fun hit _ =>
      .bind_right (.of_meets (meets_check _ rfl)) fun _ _ => hrest) ?_
  constructor
  · rintro (h | ⟨_, hcheck, h | ⟨hit, hhit, _, hnone, opp, hopp, hrates⟩⟩)
    · exact .encoding h
    · exact .value (hstorable hcheck) h
    · rw [check_eq_ok, Option.isNone_iff_eq_none] at hnone
      exact .rates (hstorable hcheck) (hnone ▸ hhit) ⟨opp, hopp⟩ hrates
  · rintro (h | ⟨hstored, h⟩ | ⟨hstored, hnone, ⟨opp, hopp⟩, hrates⟩)
    · exact .inl h
    · exact .inr ⟨(), Condition.checkStorable_eq hstored, .inl h⟩
    · exact .inr ⟨(), Condition.checkStorable_eq hstored, .inr ⟨none, hnone, (), rfl, opp, hopp, hrates⟩⟩

end Family

end LoanOrders
