import LoanOrders.Proofs.Bonus
import LoanOrders.Proofs.Relative
import LoanOrders.Proofs.Withdrawal

/-! An execution takes all that it may: the whole debt that the order allows to repay, or the whole
deposit. Neither is exceeded. The way from an amount to a value and back rounds at most six times, which
the final rounding to smallest units makes up for. -/

namespace LoanOrders

/-- A number of smallest units that leaves room for the rounding of values. -/
structure Decimal.IsWholeAmount (x : Decimal) : Prop where
  finite : x.isFinite
  whole : ∃ n : Nat, 0 < n ∧ n < 10 ^ 26 ∧ x.toRat = n

/-- A position that is not worth next to nothing. -/
structure Position.IsRegular (p : Position) : Prop where
  amount : p.amount.IsWholeAmount
  value : 10 ^ (-30 : ℤ) ≤ p.value.toRat

def Opportunity.HasWholeAmount : Opportunity → Prop
  | .allDebt => True
  | .debtAmount amount | .foreign _ _ amount => amount.IsWholeAmount

section MaxRepay

variable {opportunity : Opportunity} {borrows : List Position} {t : TokenAmount}

theorem Opportunity.maxRepay_amount (h : opportunity.maxRepay borrows = .ok t) :
    (∃ p ∈ borrows, t.amount = p.amount) ∨ opportunity = .debtAmount t.amount ∨
      ∃ name mint, opportunity = .foreign name mint t.amount := by
  cases opportunity with
  | debtAmount amount =>
    simp only [maxRepay, bind_eq_ok, single_eq_ok, liftM_eq_ok, pure_eq_ok, Except.ok.injEq] at h
    obtain ⟨p, hp, smaller, hsmaller, rfl⟩ := h
    rcases Decimal.smaller_eq_or hsmaller with rfl | rfl
    · exact .inl ⟨p, by simp [hp], rfl⟩
    · exact .inr (.inl rfl)
  | allDebt =>
    cases borrows with
    | nil => simp [maxRepay] at h
    | cons first rest =>
      simp only [maxRepay, bind_eq_ok, pure_eq_ok, Except.ok.injEq] at h
      obtain ⟨p, hp, rfl⟩ := h
      exact .inl ⟨p, firstMax_mem hp, rfl⟩
  | foreign name mint amount =>
    obtain rfl := Except.ok.inj h
    exact .inr (.inr ⟨name, mint, rfl⟩)

theorem Opportunity.isWholeAmount_of_maxRepay (ho : opportunity.HasWholeAmount)
    (hborrows : ∀ p ∈ borrows, p.IsRegular) (h : opportunity.maxRepay borrows = .ok t) :
    t.amount.IsWholeAmount := by
  rcases maxRepay_amount h with ⟨p, hp, hamount⟩ | rfl | ⟨name, mint, rfl⟩
  · exact hamount ▸ (hborrows p hp).amount
  · exact ho
  · exact ho

end MaxRepay

namespace Position

variable {p : Position}

theorem IsRegular.value_pos (hp : p.IsRegular) : 0 < p.value.toRat :=
  (ten_zpow_pos _).trans_le hp.value

theorem round_share_value (hp : p.IsRegular) :
    (round (p.share p.value.toRat) : ℚ) = p.amount.toRat := by
  obtain ⟨n, hpos, hlt, hn⟩ := hp.amount.whole
  have hn₁ : (1 : ℚ) ≤ n := by exact_mod_cast hpos
  have hvalue := hp.value_pos
  have hsize := hp.value.trans (le_mul_of_one_le_right hvalue.le hn₁)
  have hproduct := (IsNear.refl (p.value.toRat * n)).rounded (by decide) (by decide) hsize
  have hquotient := hproduct.div hvalue.le
  rw [mul_div_cancel_left₀ _ hvalue.ne'] at hquotient
  have hnear := hquotient.rounded (e := 0) (by decide) (by decide) (by rwa [zpow_zero])
  rw [share, hn, hnear.round_eq (by decide) hlt, Int.cast_natCast]

/-- The value of an amount, taken times a factor and divided by it again, is worth the amount. -/
theorem round_share_repaid (hp : p.IsRegular) {m : Nat} (hpos : 0 < m) (hlt : m < 10 ^ 26) {factor : ℚ}
    (hfactor : 10 ^ (-28 : ℤ) ≤ factor) :
    round (p.share (Context.standard.rounded (Context.standard.rounded (Context.standard.rounded
      (Context.standard.rounded (m * p.value.toRat) / p.amount.toRat) * factor) / factor))) = m := by
  obtain ⟨n, hnpos, hnlt, hn⟩ := hp.amount.whole
  have hvalue := hp.value_pos
  have hm₁ : (1 : ℚ) ≤ m := by exact_mod_cast hpos
  have hn₀ : (0 : ℚ) < n := by exact_mod_cast hnpos
  have hfactor₀ : 0 < factor := (ten_zpow_pos _).trans_le hfactor
  have hproduct := hp.value.trans (le_mul_of_one_le_left hvalue.le hm₁)
  have hquotient : (10 : ℚ) ^ (-56 : ℤ) ≤ m * p.value.toRat / n := by
    have hn₂ : (n : ℚ) ≤ 10 ^ (26 : ℤ) := by exact_mod_cast hnlt.le
    calc (10 : ℚ) ^ (-56 : ℤ) = 10 ^ (-30 : ℤ) / 10 ^ (26 : ℤ) := by norm_num
      _ ≤ m * p.value.toRat / n :=
        div_le_div₀ ((ten_zpow_pos _).le.trans hproduct) hproduct hn₀ hn₂
  have hscaled : (10 : ℚ) ^ (-84 : ℤ) ≤ m * p.value.toRat / n * factor := by
    calc (10 : ℚ) ^ (-84 : ℤ) = 10 ^ (-56 : ℤ) * 10 ^ (-28 : ℤ) := by norm_num
      _ ≤ m * p.value.toRat / n * factor := mul_le_mul hquotient hfactor (ten_zpow_pos _).le
        ((ten_zpow_pos _).le.trans hquotient)
  rw [hn]
  have hvalueOf := (((IsNear.refl _).rounded (by decide) (by decide) hproduct).div
    hn₀.le).rounded (by decide) (by decide) hquotient
  have hwithdraw := (hvalueOf.mul hfactor₀.le).rounded (by decide) (by decide) hscaled
  have hrepaid := hwithdraw.div hfactor₀.le
  rw [mul_div_cancel_right₀ _ hfactor₀.ne'] at hrepaid
  have hback := (hrepaid.rounded (by decide) (by decide) hquotient).mul hn₀.le
  rw [div_mul_cancel₀ _ hn₀.ne'] at hback
  have hshare := (hback.rounded (by decide) (by decide) hproduct).div hvalue.le
  rw [mul_div_cancel_right₀ _ hvalue.ne'] at hshare
  have hnear := hshare.rounded (e := 0) (by decide) (by decide) (by rwa [zpow_zero])
  rw [share, hn, hnear.round_eq (by decide) hlt]

end Position

/-- What the numbers of an exchange are, each of them found from the ones before it. -/
structure Exchange.IsValued (x : Exchange) (e : Execution) : Prop where
  factor : x.factor.toRat = Context.standard.rounded (1 + e.bonusRate.toRat)
  repayValue : x.repayValue.toRat = Context.standard.rounded (Context.standard.rounded
    (x.maxRepay.amount.toRat * x.borrow.value.toRat) / x.borrow.amount.toRat)
  maxWithdraw : x.maxWithdraw.toRat = Context.standard.rounded (x.repayValue.toRat * x.factor.toRat)
  withdrawn_finite : x.withdrawn.isFinite
  withdrawn : x.withdrawn.toRat = min x.deposit.value.toRat x.maxWithdraw.toRat
  repaid_finite : x.repaid.isFinite
  repaid : x.repaid.toRat = Context.standard.rounded (x.withdrawn.toRat / x.factor.toRat)

theorem round_cast_mono {p q : ℚ} (h : p ≤ q) : (round p : ℚ) ≤ round q := by
  rw [round_eq, round_eq]
  exact_mod_cast Int.floor_le_floor (by linarith)

namespace Order

variable {order : Order} {market : Market} {o : Obligation} {x : Exchange} {e : Execution}

namespace Offers

variable (h : order.Offers market o x e)
include h

theorem borrow_mem : x.borrow ∈ o.borrowList := List.mem_of_find?_eq_some h.borrow

theorem borrow_mint : x.borrow.mint = x.maxRepay.mint := by simpa using List.find?_some h.borrow

theorem deposit_mem : x.deposit ∈ o.depositList := (withdrawal_ok h.withdrawn).1.mem

variable (ho : o.IsSound) (hbonus : e.bonusRate.isFinite)
include ho hbonus

theorem isValued (hamount : x.maxRepay.amount.isFinite) : x.IsValued e := by
  obtain ⟨-, hsmaller⟩ := withdrawal_ok h.withdrawn
  obtain ⟨hffin, hfval⟩ := Context.add_ok rfl hbonus h.factor
  obtain ⟨hvfin, hvval⟩ := Position.valueOf_ok (ho.borrows _ h.borrow_mem) hamount h.repayValue
  obtain ⟨hmfin, hmval⟩ := Context.mul_ok hvfin hffin h.maxWithdraw
  obtain ⟨hwfin, hwval⟩ := Decimal.smaller_ok (ho.deposits _ h.deposit_mem).value.1 hmfin hsmaller
  obtain ⟨-, hrfin, hrval⟩ := Context.div_ok hwfin hffin h.repaid
  rw [Decimal.toRat_one] at hfval
  exact ⟨hfval, hvval, hmval, hwfin, hwval, hrfin, hrval⟩

/-- The bonus has at most 28 digits, and so a factor above zero is not next to it. -/
theorem ten_zpow_le_factor (hx : x.IsValued e) (hpos : 0 < 1 + e.bonusRate.toRat) :
    10 ^ (-28 : ℤ) ≤ x.factor.toRat := by
  obtain ⟨q, hq⟩ := exists_rounded_of_bonusRate ho h.bonus hbonus
  have hone := Context.le_abs_one_add_rounded (q := q) (by rw [← hq]; exact hpos.ne')
  rw [← hq, abs_of_pos hpos] at hone
  have hmono := Context.rounded_mono (c := .standard) hone
  rwa [Context.rounded_ten_zpow (by decide), ← hx.factor] at hmono

end Offers

/-- For whole amounts and values that are not too small, an execution with a positive factor stays
within the debt that may be repaid and within the deposit, and it uses one of them up. -/
theorem execution_maximal (ho : o.IsSnapshot) (hdeposits : ∀ p ∈ o.depositList, p.IsRegular)
    (hborrows : ∀ p ∈ o.borrowList, p.IsRegular) (hopportunity : order.opportunity.HasWholeAmount)
    (h : order.execution market o = .ok (some e)) (hbonus : e.bonusRate.isFinite)
    (hpos : 0 < 1 + e.bonusRate.toRat) :
    ∃ maxRepay deposit, order.opportunity.maxRepay o.borrowList = .ok maxRepay ∧
      e.repay.mint = maxRepay.mint ∧ deposit ∈ o.depositList ∧ e.withdraw.mint = deposit.mint ∧
      e.repay.amount.isFinite ∧ e.withdraw.amount.isFinite ∧
      0 ≤ e.repay.amount.toRat ∧ e.repay.amount.toRat ≤ maxRepay.amount.toRat ∧
      0 ≤ e.withdraw.amount.toRat ∧ e.withdraw.amount.toRat ≤ deposit.amount.toRat ∧
      (e.repay.amount.toRat = maxRepay.amount.toRat ∨
        e.withdraw.amount.toRat = deposit.amount.toRat) := by
  obtain ⟨x, hoffers⟩ := execution_eq_some.mp h
  have hsound := ho.isSound
  have hmaxRepay := Opportunity.isWholeAmount_of_maxRepay hopportunity hborrows hoffers.maxRepay
  obtain ⟨m, hm₀, hmlt, hm⟩ := hmaxRepay.whole
  have hx := hoffers.isValued hsound hbonus hmaxRepay.finite
  have hfactor := hoffers.ten_zpow_le_factor hsound hbonus hx hpos
  have hfactor₀ : 0 < x.factor.toRat := (ten_zpow_pos _).trans_le hfactor
  have hb := hsound.borrows _ hoffers.borrow_mem
  have hd := hsound.deposits _ hoffers.deposit_mem
  have hmax₀ : 0 ≤ x.maxWithdraw.toRat := by
    rw [hx.maxWithdraw, hx.repayValue, hm]
    exact Context.rounded_nonneg (mul_nonneg (Context.rounded_nonneg (div_nonneg
      (Context.rounded_nonneg (mul_nonneg m.cast_nonneg hb.value.2)) hb.amount.2)) hfactor₀.le)
  have hw₀ : 0 ≤ x.withdrawn.toRat := by
    rw [hx.withdrawn]
    exact le_min hd.value.2 hmax₀
  have hr₀ : 0 ≤ x.repaid.toRat := by
    rw [hx.repaid]
    exact Context.rounded_nonneg (div_nonneg hw₀ hfactor₀.le)
  obtain ⟨hrepayMint, hrepayfin, hrepay⟩ :=
    Position.amountWorth_ok hb ⟨hx.repaid_finite, hr₀⟩ hoffers.repay
  obtain ⟨hwithdrawMint, hwithdrawfin, hwithdraw⟩ :=
    Position.amountWorth_ok hd ⟨hx.withdrawn_finite, hw₀⟩ hoffers.withdraw
  -- What is found from all that may be withdrawn, and from all that is deposited.
  have hrepayAll : (round (x.borrow.share (Context.standard.rounded
      (x.maxWithdraw.toRat / x.factor.toRat))) : ℚ) = m := by
    rw [hx.maxWithdraw, hx.repayValue, hm]
    exact_mod_cast Position.round_share_repaid (hborrows _ hoffers.borrow_mem) hm₀ hmlt hfactor
  have hwithdrawAll := Position.round_share_value (hdeposits _ hoffers.deposit_mem)
  refine ⟨x.maxRepay, x.deposit, hoffers.maxRepay, hrepayMint.trans hoffers.borrow_mint,
    hoffers.deposit_mem, hwithdrawMint, hrepayfin, hwithdrawfin, ?_, ?_, ?_, ?_, ?_⟩
  · rw [hrepay]
    simpa using round_cast_mono (Position.share_nonneg hb hr₀)
  · rw [hrepay, hm, ← hrepayAll, hx.repaid]
    apply round_cast_mono
    apply Position.share_mono hb
    apply Context.rounded_mono
    exact div_le_div_of_nonneg_right (hx.withdrawn ▸ min_le_right _ _) hfactor₀.le
  · rw [hwithdraw]
    simpa using round_cast_mono (Position.share_nonneg hd hw₀)
  · rw [hwithdraw, ← hwithdrawAll]
    apply round_cast_mono
    apply Position.share_mono hd
    exact hx.withdrawn ▸ min_le_left _ _
  · rcases le_total x.deposit.value.toRat x.maxWithdraw.toRat with hle | hle
    · right
      rw [hwithdraw, hx.withdrawn, min_eq_left hle, hwithdrawAll]
    · left
      rw [hrepay, hx.repaid, hx.withdrawn, min_eq_right hle, hrepayAll, hm]

/-- Half of the deposits is borrowed against, and all of that is repaid. -/
theorem execution_maximal_half : ∃ e maxRepay,
    (stopLossAbove (.finite false 4 (-1))).execution longPosition.market (leveraged 10 500) =
      .ok (some e) ∧
    Opportunity.allDebt.maxRepay (leveraged 10 500).borrowList = .ok maxRepay ∧
    0 ≤ e.repay.amount.toRat ∧ e.repay.amount.toRat ≤ maxRepay.amount.toRat := by
  have hdeposits : ∀ p ∈ (leveraged 10 500).depositList, p.IsRegular := by
    intro p hp
    rw [List.mem_singleton.mp hp]
    exact ⟨⟨rfl, 10 ^ 10, by norm_num, by norm_num, by norm_num [solDeposit]⟩, by norm_num [solDeposit]⟩
  have hborrows : ∀ p ∈ (leveraged 10 500).borrowList, p.IsRegular := by
    intro p hp
    rw [List.mem_singleton.mp hp]
    exact ⟨⟨rfl, 5 * 10 ^ 8, by norm_num, by norm_num, by norm_num [usdBorrow]⟩, by norm_num [usdBorrow]⟩
  have hopportunity : (stopLossAbove (.finite false 4 (-1))).opportunity.HasWholeAmount := trivial
  obtain ⟨maxRepay, deposit, hmaxRepay, -, -, -, -, -, hnonneg, hle, -⟩ :=
    execution_maximal isSnapshot_half hdeposits hborrows hopportunity execution_half rfl
      (by norm_num [halfExecution, Context.signed])
  exact ⟨_, maxRepay, execution_half, hmaxRepay, hnonneg, hle⟩

end Order

end LoanOrders
