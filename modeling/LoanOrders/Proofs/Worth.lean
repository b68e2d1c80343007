import LoanOrders.Proofs.Maximal
import LoanOrders.Proofs.Size

/-! The two sides of an execution: the withdrawal is worth the repayment and the bonus on it. Each of the
two amounts is rounded to smallest units at its end. All roundings before that change a value by less than
half a unit of the deposit. -/

namespace LoanOrders

namespace IsNear

variable {n : Nat} {p q y : ℚ}

theorem abs_sub_le (h : IsNear n p q) (hn : n ≤ 6) (hq : 0 ≤ q) :
    |p - q| ≤ (n + 1) * unitRoundoff * q := by
  have hpow : 1 - (n + 1) * unitRoundoff ≤ (1 - unitRoundoff) ^ n ∧
      (1 + unitRoundoff) ^ n ≤ 1 + (n + 1) * unitRoundoff := by
    interval_cases n <;> norm_num [unitRoundoff]
  have hlow := mul_le_mul_of_nonneg_left hpow.1 hq
  have hhigh := mul_le_mul_of_nonneg_left hpow.2 hq
  rw [abs_le]
  constructor <;> linarith [h.low, h.high]

/-- A number that is divided by a rounded factor and taken times the factor itself. -/
theorem abs_div_mul_sub_le (h : IsNear 1 p q) (hq : 0 < q) (hy : 0 ≤ y) :
    |y / p * q - y| ≤ 2 * unitRoundoff * y := by
  have hu : 0 < 1 - unitRoundoff := by norm_num [unitRoundoff]
  have hlow := h.low
  have hhigh := h.high
  rw [pow_one] at hlow hhigh
  have hp : 0 < p := (mul_pos hq hu).trans_le hlow
  have hratio : |q / p - 1| ≤ 2 * unitRoundoff := by
    rw [abs_le, le_sub_iff_add_le, sub_le_iff_le_add, le_div_iff₀ hp, div_le_iff₀ hp]
    have hdown : (-(2 * unitRoundoff) + 1) * (1 + unitRoundoff) ≤ 1 := by norm_num [unitRoundoff]
    have hup : 1 ≤ (2 * unitRoundoff + 1) * (1 - unitRoundoff) := by norm_num [unitRoundoff]
    have hdown₀ : 0 ≤ -(2 * unitRoundoff) + 1 := by norm_num [unitRoundoff]
    have hup₀ : 0 ≤ 2 * unitRoundoff + 1 := by norm_num [unitRoundoff]
    constructor
    · calc (-(2 * unitRoundoff) + 1) * p ≤ (-(2 * unitRoundoff) + 1) * (q * (1 + unitRoundoff)) :=
            mul_le_mul_of_nonneg_left hhigh hdown₀
        _ = (-(2 * unitRoundoff) + 1) * (1 + unitRoundoff) * q := by ring
        _ ≤ q := mul_le_of_le_one_left hq.le hdown
    · calc q ≤ (2 * unitRoundoff + 1) * (1 - unitRoundoff) * q := le_mul_of_one_le_left hq.le hup
        _ = (2 * unitRoundoff + 1) * (q * (1 - unitRoundoff)) := by ring
        _ ≤ (2 * unitRoundoff + 1) * p := mul_le_mul_of_nonneg_left hlow hup₀
  have hfactor : y / p * q - y = (q / p - 1) * y := by ring
  rw [hfactor, abs_mul, abs_of_nonneg hy]
  exact mul_le_mul_of_nonneg_right hratio hy

end IsNear

namespace Position

variable {p : Position}

/-- The value of one smallest unit. -/
def perUnit (p : Position) : ℚ := p.value.toRat / p.amount.toRat

theorem IsRegular.one_le_amount (hp : p.IsRegular) : 1 ≤ p.amount.toRat := by
  obtain ⟨n, hpos, -, hn⟩ := hp.amount.whole
  rw [hn]
  exact_mod_cast hpos

theorem IsRegular.amount_le (hp : p.IsRegular) : p.amount.toRat ≤ 10 ^ (26 : ℤ) := by
  obtain ⟨n, -, hlt, hn⟩ := hp.amount.whole
  rw [hn]
  exact_mod_cast hlt.le

theorem IsRegular.perUnit_pos (hp : p.IsRegular) : 0 < p.perUnit :=
  div_pos hp.value_pos (zero_lt_one.trans_le hp.one_le_amount)

theorem IsRegular.share_near (hp : p.IsRegular) (hhigh : p.value.toRat ≤ 10 ^ (30 : ℤ)) {n : Nat}
    (hn : n ≤ 4) {v w : ℚ} (h : IsNear n v w) (hw : 10 ^ (-85 : ℤ) ≤ w) :
    IsNear (n + 2) (p.share v) (w / p.perUnit) := by
  have hw₀ : 0 < w := (ten_zpow_pos _).trans_le hw
  have hamount := zero_le_one.trans hp.one_le_amount
  have hproduct := hw.trans (le_mul_of_one_le_right hw₀.le hp.one_le_amount)
  have hquotient : 10 ^ (-115 : ℤ) ≤ w * p.amount.toRat / p.value.toRat := by
    calc (10 : ℚ) ^ (-115 : ℤ) = 10 ^ (-85 : ℤ) / 10 ^ (30 : ℤ) := by norm_num
      _ ≤ w * p.amount.toRat / p.value.toRat :=
        div_le_div₀ (by positivity) hproduct hp.value_pos hhigh
  have hnear := (((h.mul hamount).rounded (by omega) (by decide) hproduct).div
    hp.value_pos.le).rounded (by omega) (by decide) hquotient
  rwa [perUnit, div_div_eq_mul_div]

theorem abs_round_mul_sub_le {s c : ℚ} (hc : 0 ≤ c) : |round s * c - s * c| ≤ c / 2 := by
  rw [← sub_mul, abs_mul, abs_of_nonneg hc, abs_sub_comm]
  calc |s - round s| * c ≤ 1 / 2 * c := mul_le_mul_of_nonneg_right (abs_sub_round s) hc
    _ = c / 2 := by ring

/-- What the smallest units for a value are worth. -/
theorem IsRegular.abs_round_share_mul_sub_le (hp : p.IsRegular) (hhigh : p.value.toRat ≤ 10 ^ (30 : ℤ))
    {n : Nat} (hn : n ≤ 4) {v w : ℚ} (h : IsNear n v w) (hw : 10 ^ (-85 : ℤ) ≤ w) :
    |round (p.share v) * p.perUnit - w| ≤ p.perUnit / 2 + (n + 3) * unitRoundoff * w := by
  have hunit := hp.perUnit_pos
  have hw₀ : 0 ≤ w := (ten_zpow_pos _).le.trans hw
  have hround := abs_round_mul_sub_le (s := p.share v) hunit.le
  have hshare := (hp.share_near hhigh hn h hw).abs_sub_le (by omega) (div_nonneg hw₀ hunit.le)
  have hworth : |p.share v * p.perUnit - w| ≤ (n + 3) * unitRoundoff * w := by
    calc |p.share v * p.perUnit - w| = |p.share v - w / p.perUnit| * p.perUnit := by
          rw [← abs_of_pos hunit, ← abs_mul, abs_of_pos hunit, sub_mul, div_mul_cancel₀ _ hunit.ne']
      _ ≤ ((n + 2 : ℕ) + 1) * unitRoundoff * (w / p.perUnit) * p.perUnit :=
        mul_le_mul_of_nonneg_right hshare hunit.le
      _ = (n + 3) * unitRoundoff * w := by
        rw [mul_assoc, div_mul_cancel₀ _ hunit.ne']
        push_cast
        ring
  linarith [abs_sub_le (round (p.share v) * p.perUnit) (p.share v * p.perUnit) w]

end Position

/-- What is withdrawn is not next to nothing, although a bonus may take back most of it. -/
theorem Exchange.IsValued.ten_zpow_le_withdrawn {x : Exchange} {e : Execution} (hx : x.IsValued e)
    (hborrow : x.borrow.IsRegular) (hdeposit : x.deposit.IsRegular)
    (hrepay : x.maxRepay.amount.IsWholeAmount) (hfactor : 10 ^ (-28 : ℤ) ≤ x.factor.toRat) :
    10 ^ (-84 : ℤ) ≤ x.withdrawn.toRat := by
  obtain ⟨m, hm, -, hmval⟩ := hrepay.whole
  have hm₁ : (1 : ℚ) ≤ m := by exact_mod_cast hm
  have hproduct : 10 ^ (-30 : ℤ) ≤ Context.standard.rounded (m * x.borrow.value.toRat) :=
    Context.ten_zpow_le_rounded_of_le (by decide)
      (hborrow.value.trans (le_mul_of_one_le_left hborrow.value_pos.le hm₁))
  have hvalue : 10 ^ (-56 : ℤ) ≤ x.repayValue.toRat := by
    rw [hx.repayValue, hmval]
    refine Context.ten_zpow_le_rounded_of_le (by decide) ?_
    calc (10 : ℚ) ^ (-56 : ℤ) = 10 ^ (-30 : ℤ) / 10 ^ (26 : ℤ) := by norm_num
      _ ≤ _ := div_le_div₀ ((ten_zpow_pos _).le.trans hproduct) hproduct
        (zero_lt_one.trans_le hborrow.one_le_amount) hborrow.amount_le
  have hmax : 10 ^ (-84 : ℤ) ≤ x.maxWithdraw.toRat := by
    rw [hx.maxWithdraw]
    refine Context.ten_zpow_le_rounded_of_le (by decide) ?_
    calc (10 : ℚ) ^ (-84 : ℤ) = 10 ^ (-56 : ℤ) * 10 ^ (-28 : ℤ) := by norm_num
      _ ≤ x.repayValue.toRat * x.factor.toRat := mul_le_mul hvalue hfactor (ten_zpow_pos _).le
        ((ten_zpow_pos _).le.trans hvalue)
  rw [hx.withdrawn]
  exact le_min ((ten_zpow_le (by decide)).trans hdeposit.value) hmax

namespace Order

variable {order : Order} {market : Market} {o : Obligation} {x : Exchange} {e : Execution}

namespace Offers

variable (h : order.Offers market o x e) (ho : o.IsSound) (hbonus : e.bonusRate.isFinite)
include h ho hbonus

/-- The bonus is at most the share of the deposits that is free of debt. -/
theorem bonus_le_one : e.bonusRate.toRat ≤ 1 := by
  obtain ⟨rate, ltv, free, -, -, -, hsmaller, ⟨-, hltv₀⟩, -, hfreefin, hfreeval⟩ :=
    bonusRate_ok ho h.bonus
  have hfree := Context.rounded_mono (c := .standard) (sub_le_self 1 hltv₀)
  rw [Condition.rounded_one, ← hfreeval] at hfree
  rcases Decimal.smaller_le hfreefin hsmaller with ⟨-, hle⟩ | hinfinite
  · exact hle.trans hfree
  · simp [hinfinite, Decimal.isFinite] at hbonus

theorem factor_near (hx : x.IsValued e) (hpos : 0 < 1 + e.bonusRate.toRat) :
    IsNear 1 x.factor.toRat (1 + e.bonusRate.toRat) := by
  obtain ⟨q, hq⟩ := exists_rounded_of_bonusRate ho h.bonus hbonus
  have hone := Context.le_abs_one_add_rounded (q := q) (by rw [← hq]; exact hpos.ne')
  rw [← hq, abs_of_pos hpos] at hone
  rw [hx.factor]
  exact (IsNear.refl _).rounded (by decide) (by decide) hone

end Offers

/-- For whole amounts and values that are neither next to nothing nor huge, what an execution with a
positive factor withdraws is worth what it repays and the bonus on it, up to one smallest unit on each
side. -/
theorem withdrawal_worth_repayment (ho : o.IsSnapshot)
    (hdeposits : ∀ p ∈ o.depositList, p.IsRegular ∧ p.value.toRat ≤ 10 ^ (30 : ℤ))
    (hborrows : ∀ p ∈ o.borrowList, p.IsRegular ∧ p.value.toRat ≤ 10 ^ (30 : ℤ))
    (hopportunity : order.opportunity.HasWholeAmount)
    (h : order.execution market o = .ok (some e)) (hbonus : e.bonusRate.isFinite)
    (hpos : 0 < 1 + e.bonusRate.toRat) :
    ∃ borrow deposit, o.borrowOfMint? e.repay.mint = some borrow ∧
      deposit ∈ o.depositList ∧ deposit.mint = e.withdraw.mint ∧
      e.repay.amount.isFinite ∧ e.withdraw.amount.isFinite ∧
      |e.withdraw.amount.toRat * deposit.perUnit -
          (1 + e.bonusRate.toRat) * e.repay.amount.toRat * borrow.perUnit| ≤
        deposit.perUnit + (1 + e.bonusRate.toRat) * borrow.perUnit := by
  obtain ⟨x, hoffers⟩ := execution_eq_some.mp h
  have hsound := ho.isSound
  have hmaxRepay := Opportunity.isWholeAmount_of_maxRepay hopportunity
    (fun p hp => (hborrows p hp).1) hoffers.maxRepay
  have hx := hoffers.isValued hsound hbonus hmaxRepay.finite
  have hfactor := hoffers.ten_zpow_le_factor hsound hbonus hx hpos
  have hfactor₀ : 0 < x.factor.toRat := (ten_zpow_pos _).trans_le hfactor
  obtain ⟨hb, hbhigh⟩ := hborrows _ hoffers.borrow_mem
  obtain ⟨hd, hdhigh⟩ := hdeposits _ hoffers.deposit_mem
  have hwithdrawn := hx.ten_zpow_le_withdrawn hb hd hmaxRepay hfactor
  have hw₀ : 0 < x.withdrawn.toRat := (ten_zpow_pos _).trans_le hwithdrawn
  have hrepaid : 10 ^ (-85 : ℤ) ≤ x.withdrawn.toRat / x.factor.toRat := by
    have hfactor₁ : x.factor.toRat ≤ 10 ^ (1 : ℤ) := by
      rw [hx.factor]
      refine Context.rounded_le_of_le (by decide) ?_
      linarith [hoffers.bonus_le_one hsound hbonus]
    calc (10 : ℚ) ^ (-85 : ℤ) = 10 ^ (-84 : ℤ) / 10 ^ (1 : ℤ) := by norm_num
      _ ≤ x.withdrawn.toRat / x.factor.toRat := div_le_div₀ hw₀.le hwithdrawn hfactor₀ hfactor₁
  have hr₀ : 0 ≤ x.repaid.toRat := by
    rw [hx.repaid]
    exact Context.rounded_nonneg (div_nonneg hw₀.le hfactor₀.le)
  obtain ⟨hrepayMint, hrepayfin, hrepay⟩ :=
    Position.amountWorth_ok (hsound.borrows _ hoffers.borrow_mem) ⟨hx.repaid_finite, hr₀⟩ hoffers.repay
  obtain ⟨hwithdrawMint, hwithdrawfin, hwithdraw⟩ :=
    Position.amountWorth_ok (hsound.deposits _ hoffers.deposit_mem) ⟨hx.withdrawn_finite, hw₀.le⟩
      hoffers.withdraw
  refine ⟨x.borrow, x.deposit, ?_, hoffers.deposit_mem, hwithdrawMint.symm, hrepayfin, hwithdrawfin, ?_⟩
  · rw [hrepayMint, hoffers.borrow_mint]
    exact hoffers.borrow
  rw [hwithdraw, hrepay]
  have hfactorNear := hoffers.factor_near hsound hbonus hx hpos
  have hrepaidNear : IsNear 1 x.repaid.toRat (x.withdrawn.toRat / x.factor.toRat) :=
    hx.repaid ▸ (IsNear.refl _).rounded (by decide) (by decide) hrepaid
  have hwithdrawal := hd.abs_round_share_mul_sub_le hdhigh (by decide) (IsNear.refl x.withdrawn.toRat)
    ((ten_zpow_le (by decide)).trans hwithdrawn)
  have hrepayment := hb.abs_round_share_mul_sub_le hbhigh (by decide) hrepaidNear hrepaid
  have hexchange := hfactorNear.abs_div_mul_sub_le hpos hw₀.le
  have hwhole : x.withdrawn.toRat ≤ x.deposit.perUnit * 10 ^ (26 : ℤ) := by
    calc x.withdrawn.toRat ≤ x.deposit.value.toRat := hx.withdrawn ▸ min_le_left _ _
      _ = x.deposit.perUnit * x.deposit.amount.toRat :=
        (div_mul_cancel₀ _ (zero_lt_one.trans_le hd.one_le_amount).ne').symm
      _ ≤ x.deposit.perUnit * 10 ^ (26 : ℤ) :=
        mul_le_mul_of_nonneg_left hd.amount_le hd.perUnit_pos.le
  have hcost := mul_nonneg hpos.le hb.perUnit_pos.le
  have hscaled := mul_le_mul_of_nonneg_right hrepayment hpos.le
  rw [← abs_of_pos hpos, ← abs_mul, abs_of_pos hpos, sub_mul, add_mul] at hscaled
  -- Ten roundings of what is withdrawn are half a unit of the deposit, even if it has 10²⁶ units.
  rw [abs_le] at hwithdrawal hscaled hexchange ⊢
  norm_num [unitRoundoff] at hwhole hwithdrawal hscaled hexchange
  constructor <;> linarith

/-- Half of the deposits is borrowed against, and all of that is repaid. -/
theorem withdrawal_worth_repayment_half : ∃ e borrow deposit,
    (stopLossAbove (.finite false 4 (-1))).execution longPosition.market (leveraged 10 500) =
      .ok (some e) ∧
    |e.withdraw.amount.toRat * Position.perUnit deposit -
        (1 + e.bonusRate.toRat) * e.repay.amount.toRat * Position.perUnit borrow| ≤
      Position.perUnit deposit + (1 + e.bonusRate.toRat) * Position.perUnit borrow := by
  have hdeposits : ∀ p ∈ (leveraged 10 500).depositList,
      p.IsRegular ∧ p.value.toRat ≤ 10 ^ (30 : ℤ) := by
    intro p hp
    rw [List.mem_singleton.mp hp]
    exact ⟨⟨⟨rfl, 10 ^ 10, by norm_num, by norm_num, by norm_num [solDeposit]⟩,
      by norm_num [solDeposit]⟩, by norm_num [solDeposit]⟩
  have hborrows : ∀ p ∈ (leveraged 10 500).borrowList,
      p.IsRegular ∧ p.value.toRat ≤ 10 ^ (30 : ℤ) := by
    intro p hp
    rw [List.mem_singleton.mp hp]
    exact ⟨⟨⟨rfl, 5 * 10 ^ 8, by norm_num, by norm_num, by norm_num [usdBorrow]⟩,
      by norm_num [usdBorrow]⟩, by norm_num [usdBorrow]⟩
  have hopportunity : (stopLossAbove (.finite false 4 (-1))).opportunity.HasWholeAmount := trivial
  obtain ⟨borrow, deposit, -, -, -, -, -, hworth⟩ :=
    withdrawal_worth_repayment isSnapshot_half hdeposits hborrows hopportunity execution_half rfl
      (by norm_num [halfExecution, Context.signed])
  exact ⟨_, borrow, deposit, execution_half, hworth⟩

end Order

end LoanOrders
