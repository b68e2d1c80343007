import LoanOrders.Obligation.Execution
import LoanOrders.Proofs.Places
import LoanOrders.Proofs.Snapshot

/-! The steps on the way to an execution. All of them have succeeded if one is offered. -/

namespace LoanOrders

namespace Position

variable {p : Position} {t : TokenAmount} {value : Decimal}

theorem valueOf_ok (hp : p.IsSound) (ht : t.amount.isFinite) (h : p.valueOf t = .ok value) :
    value.isFinite ∧ value.toRat = Context.standard.rounded
      (Context.standard.rounded (t.amount.toRat * p.value.toRat) / p.amount.toRat) := by
  simp only [valueOf, bind_eq_ok, liftM_eq_ok] at h
  obtain ⟨_, -, product, hproduct, hvalue⟩ := h
  obtain ⟨hpfin, hpval⟩ := Context.mul_ok ht hp.value.1 hproduct
  obtain ⟨-, hfin, hval⟩ := Context.div_ok hpfin hp.amount.1 hvalue
  exact ⟨hfin, by rw [hval, hpval]⟩

/-- How much of a position is worth a value, before it is rounded to smallest units. -/
def share (p : Position) (value : ℚ) : ℚ :=
  Context.standard.rounded (Context.standard.rounded (value * p.amount.toRat) / p.value.toRat)

theorem share_nonneg (hp : p.IsSound) {v : ℚ} (hv : 0 ≤ v) : 0 ≤ p.share v :=
  Context.rounded_nonneg
    (div_nonneg (Context.rounded_nonneg (mul_nonneg hv hp.amount.2)) hp.value.2)

theorem share_mono (hp : p.IsSound) {v w : ℚ} (h : v ≤ w) : p.share v ≤ p.share w := by
  apply Context.rounded_mono
  apply div_le_div_of_nonneg_right _ hp.value.2
  exact Context.rounded_mono (mul_le_mul_of_nonneg_right h hp.amount.2)

theorem amountWorth_ok (hp : p.IsSound) (hvalue : value.IsNonneg) (h : p.amountWorth value = .ok t) :
    t.mint = p.mint ∧ t.amount.isFinite ∧ t.amount.toRat = round (p.share value.toRat) := by
  simp only [amountWorth, bind_eq_ok, liftM_eq_ok, pure_eq_ok, Except.ok.injEq] at h
  obtain ⟨product, hproduct, quotient, hquotient, amount, hamount, rfl⟩ := h
  obtain ⟨hpfin, hpval⟩ := Context.mul_ok hvalue.1 hp.amount.1 hproduct
  obtain ⟨-, hqfin, hqval⟩ := Context.div_ok hpfin hp.value.1 hquotient
  rw [hpval] at hqval
  have hnonneg : 0 ≤ quotient.toRat := hqval ▸ share_nonneg hp hvalue.2
  obtain ⟨amount', hamount', hfin, hval⟩ := Context.toIntegral_away Context.wide hqfin hnonneg
  obtain rfl : amount' = amount := Except.ok.inj (hamount'.symm.trans hamount)
  exact ⟨rfl, hfin, by rw [hval, hqval, share]⟩

end Position

structure Exchange where
  distance : Decimal
  maxRepay : TokenAmount
  borrow : Position
  repayValue : Decimal
  factor : Decimal
  maxWithdraw : Decimal
  withdrawn : Decimal
  deposit : Position
  repaid : Decimal

namespace Order

variable {order : Order} {market : Market} {o : Obligation} {x : Exchange} {e : Execution}

structure Offers (order : Order) (market : Market) (o : Obligation) (x : Exchange)
    (e : Execution) : Prop where
  distance : order.condition.evaluate o = .ok (some x.distance)
  maxRepay : order.opportunity.maxRepay o.borrowList = .ok x.maxRepay
  borrow : o.borrowOfMint? x.maxRepay.mint = some x.borrow
  repayValue : x.borrow.valueOf x.maxRepay = .ok x.repayValue
  bonus : order.bonusRate x.distance o = .ok e.bonusRate
  factor : Context.standard.add .one e.bonusRate = .ok x.factor
  maxWithdraw : Context.standard.mul x.repayValue x.factor = .ok x.maxWithdraw
  withdrawn : withdrawal market o x.maxWithdraw = .ok (x.withdrawn, x.deposit)
  repaid : Context.standard.div x.withdrawn x.factor = .ok x.repaid
  repay : x.borrow.amountWorth x.repaid = .ok e.repay
  withdraw : x.deposit.amountWorth x.withdrawn = .ok e.withdraw

theorem execution_eq_some :
    order.execution market o = .ok (some e) ↔ ∃ x, order.Offers market o x e := by
  constructor
  · intro h
    obtain ⟨_ | distance, hdistance, h⟩ := bind_eq_ok.mp h
    · simp at h
    obtain ⟨maxRepay, hmaxRepay, h⟩ := bind_eq_ok.mp h
    cases hborrow : o.borrowOfMint? maxRepay.mint with
    | none => simp [hborrow] at h
    | some borrow =>
      simp only [hborrow, bind_eq_ok, liftM_eq_ok, pure_eq_ok, Except.ok.injEq,
        Option.some_inj] at h
      obtain ⟨repayValue, hrepayValue, bonus, hbonus, factor, hfactor, maxWithdraw, hmaxWithdraw,
        ⟨withdrawn, deposit⟩, hwithdrawn, repaid, hrepaid, repay, hrepay, withdraw, hwithdraw,
        rfl⟩ := h
      exact ⟨⟨distance, maxRepay, borrow, repayValue, factor, maxWithdraw, withdrawn, deposit, repaid⟩,
        ⟨hdistance, hmaxRepay, hborrow, hrepayValue, hbonus, hfactor, hmaxWithdraw, hwithdrawn,
          hrepaid, hrepay, hwithdraw⟩⟩
  · rintro ⟨x, h⟩
    simp only [execution, h.distance, h.maxRepay, h.borrow, h.repayValue, h.bonus, h.factor,
      h.maxWithdraw, h.withdrawn, h.repaid, h.repay, h.withdraw, liftM_ok, ok_bind, pure_eq_ok]

end Order

section Leveraged

/-- All debt is repaid for a bonus of half a percent to one percent. -/
def stopLossAbove (threshold : Decimal) : Order :=
  ⟨.ltvAbove threshold, .allDebt, .finite false 5 (-3), .finite false 1 (-2)⟩

theorem decode_stopLossAbove :
    Order.decode ⟨1, 461168601842738790, 1, FixedPoint.maxEncoded, 50, 100⟩ =
      .ok (some (stopLossAbove (.finite false 4 (-1)))) := by
  decide +kernel

/-- With half of the deposits borrowed against, a stop-loss at 40 percent has been crossed by two ninths
of the way to liquidation. -/
def halfExecution : Execution where
  repay := ⟨"usdMint", .finite false 5000000 2⟩
  withdraw := ⟨"solMint", .ofNat 5030555556⟩
  bonusRate := .finite false 6111111111111111111111111111 (-30)

theorem execution_half :
    (stopLossAbove (.finite false 4 (-1))).execution longPosition.market (leveraged 10 500) =
      .ok (some halfExecution) := by
  decide +kernel

/-- With 90 percent borrowed a stop-loss at 60 percent lies past liquidation, which starts at 85
percent. -/
theorem execution_pastLiquidation :
    (stopLossAbove (.finite false 6 (-1))).execution longPosition.market (leveraged 10 900) =
      .ok (some ⟨⟨"usdMint", .ofNat 900000000⟩, ⟨"solMint", .ofNat 9099000000⟩,
        .finite false 110 (-4)⟩) := by
  decide +kernel

end Leveraged

end LoanOrders
