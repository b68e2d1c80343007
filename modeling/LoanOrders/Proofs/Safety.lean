import LoanOrders.Proofs.Progress
import LoanOrders.Proofs.Withdrawal

/-! What an order that was decoded from a slot can do to an obligation that was built from ordinary
positions. It does not fail in the arithmetic and offers no negative amounts, except where the bonus
takes back all that is repaid or more. Between rates in order this needs debts of twice the deposits. -/

namespace LoanOrders

open Decimal FixedPoint

section Borrow

variable {o : Obligation} {opportunity : Opportunity}

theorem Opportunity.meets_maxRepay (ho : o.IsOrdinary)
    (h : opportunity = .allDebt ∨ ∃ amount, IsSlotNumber amount ∧ opportunity = .debtAmount amount) :
    (opportunity.maxRepay o.borrowList).Meets Error.IsModel
      (fun t => t.amount.IsNonneg ∧ t.amount.toRat ≤ 10 ^ (30 : ℤ)) := by
  have hamount {p : Position} (hp : p ∈ o.borrowList) :
      p.amount.IsNonneg ∧ p.amount.toRat ≤ 10 ^ (30 : ℤ) :=
    ⟨(ho.borrows p hp).amount.isPos.isNonneg, (ho.borrows p hp).amount.high⟩
  rcases h with rfl | ⟨amount, hslot, rfl⟩
  · cases hborrows : o.borrowList with
    | nil => exact rfl
    | cons first rest =>
      have hvalues : ∀ p ∈ first :: rest, p.value.isFinite := fun p hp =>
        (ho.borrows p (hborrows ▸ hp)).value.finite
      obtain ⟨best, hbest⟩ := (compares_gt hvalues).exists_firstMax
      have hmem := firstMax_mem hbest
      rw [← hborrows] at hmem
      have heq : allDebt.maxRepay (first :: rest) = .ok ⟨best.mint, best.amount⟩ := by
        simp only [maxRepay, hbest, ok_bind, pure_eq_ok]
      exact .of_ok heq (hamount hmem)
  · refine (meets_single "borrow" o.borrowList).bind fun p _ hp => ?_
    have hmem : p ∈ o.borrowList := by simp [hp]
    rw [smaller_eq (hamount hmem).1.1 hslot.finite]
    refine Result.Meets.of_ok rfl ?_
    by_cases hlt : amount.toRat < p.amount.toRat
    · rw [if_pos hlt]
      exact ⟨⟨hslot.finite, hslot.nonneg⟩, hlt.le.trans (hamount hmem).2⟩
    · rw [if_neg hlt]
      exact hamount hmem

end Borrow

section Withdrawal

variable {market : Market} {o : Obligation} {value : Decimal}

theorem Obligation.meets_reserveLimits (hmarket : ∀ r ∈ market.reserves, r.IsSound) (reserve : String) :
    (reserveLimits market reserve).Meets Error.IsModel (fun limits => limits.2.isFinite) := by
  unfold reserveLimits
  cases hr : market.reserveAt reserve with
  | error e =>
    obtain rfl : .reserveNotFound (.address reserve) market.address = e := by
      unfold Market.reserveAt Market.find at hr
      split at hr
      · simp at hr
      · simpa using hr
    exact rfl
  | ok r =>
    have hsound := hmarket r (Market.mem_of_reserveAt hr)
    obtain ⟨max, hmax, -⟩ := Reserve.exists_rate (hsound.loanToValue.trans (by norm_num))
    obtain ⟨ltv, hltv, hsize, -⟩ :=
      Reserve.exists_rate (hsound.liquidationThreshold.trans (by norm_num))
    rw [ok_bind, Reserve.maxLtv, Reserve.liquidationLtv, hmax, hltv]
    exact .of_ok rfl hsize.finite

theorem Liquidatable.meets_ofDeposits (hmarket : ∀ r ∈ market.reserves, r.IsSound)
    (deposits : List Position) : (ofDeposits market deposits).Meets Error.IsModel (fun _ => True) := by
  induction deposits with
  | nil => exact trivial
  | cons deposit rest ih =>
    refine (Obligation.meets_reserveLimits hmarket deposit.reserve).bind fun limits _ hfin => ?_
    dsimp only at hfin ⊢
    rw [gt_zero hfin, liftM_ok, ok_bind]
    exact ih.bind fun others _ _ => .of_ok rfl trivial

theorem Order.meets_withdrawal (hmarket : ∀ r ∈ market.reserves, r.IsSound) (ho : o.IsOrdinary)
    (hvalue : value.isFinite) : (withdrawal market o value).Meets Error.IsModel (fun _ => True) := by
  have hvalues : ∀ p ∈ o.depositList, p.value.isFinite := fun p hp => (ho.deposits p hp).value.finite
  refine (Liquidatable.meets_ofDeposits hmarket o.depositList).bind fun found hfound _ => ?_
  obtain ⟨candidates, hcandidates⟩ := Candidate.exists_ofLowest hfound fun p hp =>
    ⟨_, smaller_eq (hvalues p hp) hvalue⟩
  have hcompares := Candidate.compares_of_ofLowest hvalues hfound hcandidates
  rw [hcandidates, liftM_ok, ok_bind]
  cases candidates with
  | nil => exact rfl
  | cons first rest =>
    obtain ⟨best, hbest⟩ := hcompares.exists_firstMax
    exact .of_ok hbest trivial

end Withdrawal

namespace Order

variable {order : Order} {market : Market} {o : Obligation} {b d : Decimal} {low high : Nat}

theorem isWithin_of_bps {rate : Decimal} {n : Nat} (hn : n ≤ Rate.maxBonusBps)
    (h : rate.isFinite ∧ rate.toRat = n / Rate.fullBps) : IsWithin 1 rate := by
  have hle : (n : ℚ) ≤ 10 * Rate.fullBps := by
    exact_mod_cast hn.trans (by decide : Rate.maxBonusBps ≤ 10 * Rate.fullBps)
  refine ⟨h.1, ?_⟩
  rw [h.2, abs_of_nonneg (by positivity), zpow_one]
  exact div_le_of_le_mul₀ (by positivity) (by norm_num) hle

theorem exists_bonusRate (ho : o.IsOrdinary) (hmin : IsWithin 1 order.minRate)
    (hmax : IsWithin 1 order.maxRate) (hd : IsWithin 601 d) :
    ∃ b, order.bonusRate d o = .ok b ∧ IsWithin 700 b := by
  obtain ⟨range, hrange, hrsize, -⟩ := Context.exists_sub_within hmax hmin (by decide)
  obtain ⟨scaled, hscaled, hssize, -⟩ := Context.exists_mul_within hd hrsize (by decide)
  obtain ⟨x, hx, hxsize, -⟩ := Context.exists_add_within (hmin.mono (by decide)) hssize (by decide)
  obtain ⟨ltv, hltv, hltvsize, -⟩ := ho.exists_perDeposit (ho.borrow.mono (by decide) (by decide))
  obtain ⟨free, hfree, hfsize, -⟩ :=
    Context.exists_sub_within (isWithin_one (by decide)) hltvsize.isWithin (by decide)
  refine ⟨if free.toRat < x.toRat then free else x, ?_, ?_⟩
  · simp only [bonusRate, Obligation.unweightedLtv, hrange, hscaled, hx, hltv, hfree, ok_bind,
      smaller_eq hxsize.finite hfsize.finite]
  · split_ifs
    · exact hfsize.mono (by decide)
    · exact hxsize.mono (by decide)

/-- The bonus that an order has for an obligation while its condition holds. -/
def HasBonus (order : Order) (o : Obligation) (b : Decimal) : Prop :=
  ∃ d, order.condition.evaluate o = .ok (some d) ∧ order.bonusRate d o = .ok b

/-- What an execution with a bonus is: the withdrawal has the sign of what is left of the repayment
after the bonus. -/
structure IsSettled (e : Execution) : Prop where
  bonus_finite : e.bonusRate.isFinite
  bonus_ne : e.bonusRate.toRat ≠ -1
  repay : e.repay.amount.IsNonneg
  withdraw_finite : e.withdraw.amount.isFinite
  withdraw_nonneg : -1 < e.bonusRate.toRat → 0 ≤ e.withdraw.amount.toRat
  withdraw_nonpos : e.bonusRate.toRat < -1 → e.withdraw.amount.toRat ≤ 0

section Factor

variable {p deposit : Position} {v factor w taken : Decimal} (hdeposit : deposit.IsOrdinary)
  (hv : 0 ≤ v.toRat) (hfactor : factor.isFinite)
  (hfactorVal : factor.toRat = Context.standard.rounded (1 + b.toRat))
  (hw : w.toRat = Context.standard.rounded (v.toRat * factor.toRat))
  (htakenVal : taken.toRat = min deposit.value.toRat w.toRat)
include hdeposit hv hfactorVal hw htakenVal

theorem nonneg_of_factor (h : 0 ≤ 1 + b.toRat) : 0 ≤ factor.toRat ∧ 0 ≤ taken.toRat := by
  have hf : 0 ≤ factor.toRat := hfactorVal ▸ Context.rounded_nonneg h
  refine ⟨hf, ?_⟩
  rw [htakenVal, hw]
  exact le_min hdeposit.value.pos.le (Context.rounded_nonneg (mul_nonneg hv hf))

omit hdeposit in
theorem nonpos_of_factor (h : 1 + b.toRat ≤ 0) : factor.toRat ≤ 0 ∧ taken.toRat ≤ 0 := by
  have hf : factor.toRat ≤ 0 := hfactorVal ▸ Context.rounded_nonpos h
  refine ⟨hf, ?_⟩
  rw [htakenVal, hw]
  exact (min_le_right _ _).trans (Context.rounded_nonpos (mul_nonpos_of_nonneg_of_nonpos hv hf))

include hfactor

theorem div_factor_zero (htaken : taken.isFinite) (h : 1 + b.toRat = 0) :
    Context.standard.div taken factor = .error .invalidOperation := by
  obtain ⟨hf₁, ht₁⟩ := nonneg_of_factor hdeposit hv hfactorVal hw htakenVal h.ge
  obtain ⟨hf₂, ht₂⟩ := nonpos_of_factor hv hfactorVal hw htakenVal h.le
  exact Context.div_zero_zero htaken hfactor (le_antisymm ht₂ ht₁) (le_antisymm hf₂ hf₁)

/-- With a factor that is not next to zero both amounts can be found. The value that is withdrawn has
the sign of the factor, and so its quotient with the factor is not negative. -/
theorem exists_settled (hp : p.IsOrdinary) (hb : b.isFinite) (hne : 10 ^ (-28 : ℤ) ≤ |1 + b.toRat|)
    (htaken : IsWithin 791 taken) :
    ∃ repaid repay withdraw, Context.standard.div taken factor = .ok repaid ∧
      p.amountWorth repaid = .ok repay ∧ deposit.amountWorth taken = .ok withdraw ∧
      IsSettled ⟨repay, withdraw, b⟩ := by
  have hfactorAbs := Context.ten_zpow_le_abs_rounded (by decide) hne
  rw [← hfactorVal] at hfactorAbs
  have hpositive := nonneg_of_factor hdeposit hv hfactorVal hw htakenVal
  have hnegative := nonpos_of_factor hv hfactorVal hw htakenVal
  obtain ⟨repaid, hrepaid, hrepaidSize, hrepaidVal⟩ :=
    Context.exists_div_within htaken hfactor hfactorAbs (by decide)
  have hrepaid₀ : 0 ≤ repaid.toRat := by
    rw [hrepaidVal]
    apply Context.rounded_nonneg
    rcases le_total 0 (1 + b.toRat) with h | h
    · exact div_nonneg (hpositive h).2 (hpositive h).1
    · exact div_nonneg_of_nonpos (hnegative h).2 (hnegative h).1
  obtain ⟨repay, hrepay, hrepayFin, hrepayNonneg, -⟩ :=
    hp.exists_amountWorth (hrepaidSize.mono (by decide))
  obtain ⟨withdraw, hwithdraw, hwithdrawFin, hwithdrawNonneg, hwithdrawNonpos⟩ :=
    hdeposit.exists_amountWorth (htaken.mono (by decide))
  refine ⟨repaid, repay, withdraw, hrepaid, hrepay, hwithdraw, hb, fun h => ?_,
    ⟨hrepayFin, hrepayNonneg hrepaid₀⟩, hwithdrawFin, fun h => ?_, fun h => ?_⟩
  · rw [h, add_neg_cancel, abs_zero] at hne
    exact absurd hne (not_le.mpr (ten_zpow_pos _))
  · exact hwithdrawNonneg (hpositive (by linarith)).2
  · exact hwithdrawNonpos (hnegative (by linarith)).2

end Factor

theorem meets_execution (hmarket : ∀ r ∈ market.reserves, r.IsSound) (ho : o.IsOrdinary)
    (horder : order.IsDecoded low high) (hlow : low ≤ Rate.maxBonusBps)
    (hhigh : high ≤ Rate.maxBonusBps) :
    (order.execution market o).Meets
      (fun e => e.IsModel ∨
        e = .signal .invalidOperation ∧ ∃ b, order.HasBonus o b ∧ b.toRat = -1)
      (fun offer => ∀ e ∈ offer, order.HasBonus o e.bonusRate ∧ IsSettled e) := by
  -- Every step goes through or refuses, up to the quotient with the factor.
  refine (Condition.meets_evaluate ho horder.threshold).inl.bind fun hit hhit hsize => ?_
  cases hit with
  | none => exact fun e he => absurd he (by simp)
  | some d =>
    refine (Opportunity.meets_maxRepay ho horder.opportunity).inl.bind fun t _ ⟨ht, htsize⟩ => ?_
    cases hborrow : o.borrowOfMint? t.mint with
    | none => exact .inl rfl
    | some p =>
      have hp := ho.borrows p (List.mem_of_find?_eq_some hborrow)
      have hmint : t.mint = p.mint := (by simpa using List.find?_some hborrow : p.mint = t.mint).symm
      obtain ⟨v, hv, hvsize, hvnonneg⟩ := hp.exists_valueOf
        ⟨ht.1, by rw [abs_of_nonneg ht.2]; exact htsize⟩ hmint
      have hv₀ := hvnonneg ht.2
      obtain ⟨b, hb, hbsize⟩ := exists_bonusRate ho (isWithin_of_bps hlow horder.minRate)
        (isWithin_of_bps hhigh horder.maxRate) (hsize d rfl)
      obtain ⟨q, hq⟩ := exists_rounded_of_bonusRate ho.isSound hb hbsize.finite
      obtain ⟨factor, hfactor, hfsize, hfval⟩ :=
        Context.exists_add_within (isWithin_one (by decide)) hbsize (by decide)
      obtain ⟨w, hw, hwsize, hwval⟩ := Context.exists_mul_within hvsize hfsize (by decide)
      simp only [hv, hb, hfactor, hw, liftM_ok, ok_bind]
      refine (meets_withdrawal hmarket ho hwsize.finite).inl.bind
        fun ⟨taken, deposit⟩ hwithdrawal _ => ?_
      obtain ⟨hlowest, hsmaller⟩ := withdrawal_ok hwithdrawal
      have hdeposit := ho.deposits _ hlowest.mem
      obtain ⟨htaken, htakenVal⟩ := smaller_ok hdeposit.value.finite hwsize.finite hsmaller
      rw [toRat_one] at hfval
      dsimp only at hsmaller htaken htakenVal ⊢
      by_cases hzero : 1 + b.toRat = 0
      · rw [div_factor_zero hdeposit hv₀ hfsize.finite hfval hwval htakenVal htaken hzero]
        exact .inr ⟨rfl, b, ⟨d, hhit, hb⟩, by linarith⟩
      · have hgap : 10 ^ (-28 : ℤ) ≤ |1 + b.toRat| := hq ▸ Context.le_abs_one_add_rounded (hq ▸ hzero)
        have htsize := (hdeposit.value.isUpTo.isWithin.mono (by decide)).smaller hwsize hsmaller
        obtain ⟨repaid, repay, withdraw, hrepaid, hrepay, hwithdraw, hsettled⟩ :=
          exists_settled hdeposit hv₀ hfsize.finite hfval hwval htakenVal hp hbsize.finite hgap htsize
        simp only [hrepaid, hrepay, hwithdraw, liftM_ok, ok_bind]
        intro e he
        obtain rfl := Option.some.inj he
        exact ⟨⟨d, hhit, hb⟩, hsettled⟩

/-- Rates in order and debts below twice the deposits leave something of the repayment. -/
theorem neg_one_lt_of_hasBonus (ho : o.IsSound) (horder : order.IsExact) (hb : order.HasBonus o b)
    (hltv : ∀ ltv, o.unweightedLtv = .ok ltv → ltv.toRat < 2) : -1 < b.toRat := by
  obtain ⟨d, hd, hb⟩ := hb
  have hdistance := Condition.evaluate_ok ho hd
  obtain ⟨x, ltv, free, hx, hratio, -, hsmaller, ⟨-, hltv₀⟩, hltvval, hfreefin, hfreeval⟩ :=
    bonusRate_ok ho hb
  obtain ⟨hxfin, hxlow, -⟩ := horder.interpolated_range hdistance horder.threshold hx
  obtain ⟨-, hbval⟩ := smaller_ok hxfin hfreefin hsmaller
  have hfree : -1 < free.toRat := by
    rcases le_or_gt ltv.toRat (1 / 10) with hsmall | hlarge
    · have hnonneg : 0 ≤ free.toRat := hfreeval ▸ Context.rounded_nonneg (by linarith)
      linarith
    · have hlt := hltv ltv hratio
      rw [hltvval] at hlarge hlt
      rw [hfreeval, hltvval, Context.rounded_one_sub_rounded hlarge hlt]
      linarith
  rw [hbval]
  exact lt_min (by linarith [horder.min_nonneg.2]) hfree

/-- The outcomes of an order that was decoded from a slot, on an obligation that was built from
ordinary positions. The arithmetic fails only where the bonus takes back all that is repaid, and a
withdrawal is negative only where it takes back more. With rates in order and debts below twice the
deposits neither can happen. -/
theorem execution_safe {address : Data} {deposits borrows : List Position}
    {states : Option (List SlotState)} {s : SlotState}
    (hmarket : ∃ entries, Market.ofEntries entries = .ok market)
    (hfactor : ∀ r ∈ market.reserves, r.borrowFactorPct ≤ 10 ^ 30)
    (hdeposits : ∀ p ∈ deposits, p.IsOrdinary) (hborrows : ∀ p ∈ borrows, p.IsOrdinary)
    (hbuild : Obligation.build market address deposits borrows states = .ok o)
    (hstate : ∃ entries, SlotState.ofEntries entries = .ok s) (horder : decode s = .ok (some order)) :
    (order.execution market o).Meets
      (fun e => e.IsModel ∨
        e = .signal .invalidOperation ∧ ∃ b, order.HasBonus o b ∧ b.toRat = -1)
      (fun offer => ∀ e ∈ offer, order.HasBonus o e.bonusRate ∧ IsSettled e) ∧
    (s.minBonusBps ≤ s.maxBonusBps → (∀ ltv, o.unweightedLtv = .ok ltv → ltv.toRat < 2) →
      (order.execution market o).Meets Error.IsModel
        (fun offer => ∀ e ∈ offer, e.repay.amount.IsNonneg ∧ e.withdraw.amount.IsNonneg)) := by
  obtain ⟨_, hmarket⟩ := hmarket
  obtain ⟨_, hstate⟩ := hstate
  obtain ⟨hmin, hmax⟩ := SlotState.bonus_le_of_read hstate
  have hsound := Market.isSound_of_read hmarket
  have ho := Obligation.isOrdinary_of_build hsound hfactor hdeposits hborrows hbuild
  have hmeets := meets_execution hsound ho (isDecoded_of_decode hmin hmax horder) hmin hmax
  refine ⟨hmeets, fun hle hltv => ?_⟩
  have hbonus {b : Decimal} (hb : order.HasBonus o b) : -1 < b.toRat :=
    neg_one_lt_of_hasBonus ho.isSound (isExact_of_decode hle hmax horder) hb hltv
  refine hmeets.mono ?_ fun offer hoffer e he => ?_
  · rintro e (hmodel | ⟨-, b, hb, hval⟩)
    · exact hmodel
    · exact absurd hval (hbonus hb).ne'
  · obtain ⟨hb, hsettled⟩ := hoffer e he
    exact ⟨hsettled.repay, hsettled.withdraw_finite, hsettled.withdraw_nonneg (hbonus hb)⟩

theorem execution_safe_half :
    decode ⟨1, 461168601842738790, 1, FixedPoint.maxEncoded, 50, 100⟩ =
      .ok (some (stopLossAbove (.finite false 4 (-1)))) ∧
    ((stopLossAbove (.finite false 4 (-1))).execution longPosition.market (leveraged 10 500)).Meets
      Error.IsModel (fun offer => ∀ e ∈ offer, e.repay.amount.IsNonneg ∧ e.withdraw.amount.IsNonneg) := by
  have hmarket : ∃ entries, Market.ofEntries entries = .ok longPosition.market :=
    ⟨longPosition.market.toEntries, by decide +kernel⟩
  have hstate : ∃ entries, SlotState.ofEntries entries =
      .ok ⟨1, 461168601842738790, 1, FixedPoint.maxEncoded, 50, 100⟩ :=
    ⟨SlotState.toEntries ⟨1, 461168601842738790, 1, FixedPoint.maxEncoded, 50, 100⟩, by decide +kernel⟩
  have hbuild : Obligation.build longPosition.market (.text "obligation") [solDeposit 10]
      [usdBorrow 500] none = .ok (leveraged 10 500) := by decide +kernel
  have hdeposits : ∀ p ∈ [solDeposit 10], p.IsOrdinary := by
    intro p hp
    rw [List.mem_singleton.mp hp]
    refine ⟨⟨rfl, ?_, ?_⟩, ⟨rfl, ?_, ?_⟩, ⟨rfl, ?_, ?_⟩⟩ <;> norm_num [solDeposit]
  have hborrows : ∀ p ∈ [usdBorrow 500], p.IsOrdinary := by
    intro p hp
    rw [List.mem_singleton.mp hp]
    refine ⟨⟨rfl, ?_, ?_⟩, ⟨rfl, ?_, ?_⟩, ⟨rfl, ?_, ?_⟩⟩ <;> norm_num [usdBorrow]
  have hltv : ∀ ltv, (leveraged 10 500).unweightedLtv = .ok ltv → ltv.toRat < 2 := by
    intro ltv hltv
    obtain rfl := Except.ok.inj (hltv.symm.trans unweightedLtv_half)
    norm_num [Context.signed]
  have hsafe := execution_safe hmarket (by decide) hdeposits hborrows hbuild hstate decode_stopLossAbove
  exact ⟨decode_stopLossAbove, hsafe.2 (by decide) hltv⟩

/-- Debts of twice the deposits leave nothing of the repayment, and the value to repay cannot be found.
Debts of three times the deposits have more than all of the repayment taken back. -/
theorem execution_insolvent :
    decode ⟨1, 691752902764108186, 1, FixedPoint.maxEncoded, 50, 100⟩ =
      .ok (some (stopLossAbove (.finite false 6 (-1)))) ∧
    Obligation.build longPosition.market (.text "obligation") [solDeposit 1] [usdBorrow 200] none =
      .ok (leveraged 1 200) ∧
    (stopLossAbove (.finite false 6 (-1))).execution longPosition.market (leveraged 1 200) =
      .error (.signal .invalidOperation) ∧
    Obligation.build longPosition.market (.text "obligation") [solDeposit 1] [usdBorrow 300] none =
      .ok (leveraged 1 300) ∧
    (stopLossAbove (.finite false 6 (-1))).execution longPosition.market (leveraged 1 300) =
      .ok (some ⟨⟨"usdMint", .ofNat 300000000⟩, ⟨"solMint", .finite true 3000000000 0⟩,
        .finite true 2 0⟩) := by
  decide +kernel

end Order

end LoanOrders
