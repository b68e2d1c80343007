import LoanOrders.Proofs.Execution
import LoanOrders.Proofs.Maximal
import LoanOrders.Proofs.Safety

/-! Which positions an execution touches. The deposit is determined by what there is among the deposits,
whatever their order. So is the borrow, unless several borrows have the highest value. -/

namespace LoanOrders

open Decimal

section MaxRepay

variable {opportunity : Opportunity} {borrows borrows' : List Position} {b : Position} {t : TokenAmount}

/-- The borrow that an opportunity is about. -/
def Opportunity.Chooses (opportunity : Opportunity) (borrows : List Position) (b : Position) : Prop :=
  match opportunity with
  | .debtAmount _ => borrows = [b]
  | .allDebt => IsFirstMax (fun p => p.value.toRat) borrows b
  | .foreign _ mint _ => b ∈ borrows ∧ b.mint = mint

/-- An opportunity names its borrow by mint, and it is found again by mint. -/
theorem Opportunity.chooses_of_maxRepay (hvalues : ∀ p ∈ borrows, p.value.isFinite)
    (hmints : (borrows.map Position.mint).Nodup) (h : opportunity.maxRepay borrows = .ok t)
    (hb : borrows.find? (·.mint == t.mint) = some b) : opportunity.Chooses borrows b := by
  obtain ⟨hmem, hmint⟩ := (find?_key_eq_some hmints).mp hb
  cases opportunity with
  | debtAmount amount =>
    simp only [maxRepay, bind_eq_ok, single_eq_ok] at h
    obtain ⟨p, rfl, -⟩ := h
    obtain rfl := List.mem_singleton.mp hmem
    rfl
  | allDebt =>
    cases borrows with
    | nil => simp at hmem
    | cons first rest =>
      simp only [maxRepay, bind_eq_ok, pure_eq_ok, Except.ok.injEq] at h
      obtain ⟨p, hp, rfl⟩ := h
      have hmax := (compares_gt hvalues).isFirstMax hp
      obtain rfl := List.inj_on_of_nodup_map hmints hmem hmax.mem hmint
      exact hmax
  | foreign name mint amount =>
    obtain rfl := Except.ok.inj h
    exact ⟨hmem, hmint⟩

theorem Position.mint_of_amountWorth {p : Position} {value : Decimal} (h : p.amountWorth value = .ok t) :
    t.mint = p.mint := by
  simp only [amountWorth, bind_eq_ok, pure_eq_ok, Except.ok.injEq] at h
  obtain ⟨_, -, _, -, _, -, rfl⟩ := h
  rfl

theorem single_perm {α : Type} {item : String} {l l' : List α} (h : l.Perm l') :
    single item l = single item l' := by
  have hlength := h.length_eq
  rcases l with - | ⟨a, - | ⟨b, l⟩⟩
  · rw [List.nil_perm.mp h]
  · rw [List.singleton_perm.mp h]
  · rcases l' with - | ⟨a', - | ⟨b', l'⟩⟩
    · simp at hlength
    · simp at hlength
    · rfl

theorem Opportunity.maxRepay_of_perm (hvalues : ∀ p ∈ borrows, p.value.isFinite)
    (hdistinct : (borrows.map fun p => p.value.toRat).Nodup) (hperm : borrows.Perm borrows')
    (h : opportunity.maxRepay borrows = .ok t) : opportunity.maxRepay borrows' = .ok t := by
  cases opportunity with
  | debtAmount amount => rwa [maxRepay, ← single_perm hperm]
  | allDebt =>
    cases borrows with
    | nil => simp [maxRepay] at h
    | cons first rest =>
      cases borrows' with
      | nil => simp at hperm
      | cons first' rest' =>
        simp only [maxRepay, bind_eq_ok] at h ⊢
        obtain ⟨p, hp, ht⟩ := h
        refine ⟨p, ?_, ht⟩
        have hkey : ∀ a ∈ first :: rest, ∀ b ∈ first :: rest, a.value.toRat = b.value.toRat → a = b :=
          fun a ha b hb => List.inj_on_of_nodup_map hdistinct ha hb
        have hsub : ∀ a ∈ first' :: rest', a ∈ first :: rest := fun a => hperm.mem_iff.mpr
        obtain ⟨hmem, hle⟩ := ((compares_gt hvalues).firstMax_eq_ok hkey).mp hp
        exact (((compares_gt hvalues).mono hsub).firstMax_eq_ok
          fun a ha b hb => hkey a (hsub a ha) b (hsub b hb)).mpr
          ⟨hperm.mem_iff.mp hmem, fun a ha => hle a (hsub a ha)⟩
  | foreign name mint amount => exact h

end MaxRepay

/-- The positions of one obligation in another order, with the totals as they are. Only borrows that are
told apart by their values may change places. -/
structure Obligation.IsRearranged (o o' : Obligation) : Prop where
  stats : o'.stats = o.stats
  deposits : o.depositList.Perm o'.depositList
  borrows : o.borrowList = o'.borrowList ∨
    o.borrowList.Perm o'.borrowList ∧ (o.borrowList.map fun p => p.value.toRat).Nodup

section Rearranged

variable {o o' : Obligation} {market : Market} {order : Order}

theorem Obligation.IsRearranged.perm (h : o.IsRearranged o') : o.borrowList.Perm o'.borrowList := by
  rcases h.borrows with h | ⟨h, -⟩
  · rw [h]
  · exact h

theorem Obligation.IsRearranged.symm (h : o.IsRearranged o') : o'.IsRearranged o := by
  refine ⟨h.stats.symm, h.deposits.symm, ?_⟩
  rcases h.borrows with h | ⟨h, hdistinct⟩
  · exact .inl h.symm
  · exact .inr ⟨h.symm, (h.map _).nodup_iff.mp hdistinct⟩

theorem Condition.evaluate_rearranged (c : Condition) (h : o.IsRearranged o') :
    c.evaluate o' = c.evaluate o := by
  have hstats := h.stats
  have hperDeposit (total : Decimal) : o'.perDeposit total = o.perDeposit total := by
    rw [Obligation.perDeposit, Obligation.perDeposit, hstats]
  have hratio : o'.priceRatio = o.priceRatio := by
    rw [Obligation.priceRatio, Obligation.priceRatio, single_perm h.perm, single_perm h.deposits]
  have hliquidation (ratio : Decimal) : o'.liquidationRatio ratio = o.liquidationRatio ratio := by
    rw [Obligation.liquidationRatio, Obligation.liquidationRatio, hstats]
  cases c <;> simp only [evaluate, Obligation.loanToValue, Obligation.liquidationLtv, hstats, hperDeposit,
    hratio, hliquidation]

theorem Order.bonusRate_rearranged (h : o.IsRearranged o') (d : Decimal) :
    order.bonusRate d o' = order.bonusRate d o := by
  rw [bonusRate, bonusRate, Obligation.unweightedLtv, Obligation.unweightedLtv, Obligation.perDeposit,
    Obligation.perDeposit, h.stats]

theorem Order.evaluate_eq_none_of_execution (h : order.execution market o = .ok none) :
    order.condition.evaluate o = .ok none := by
  obtain ⟨_ | distance, hdistance, h⟩ := bind_eq_ok.mp h
  · exact hdistance
  obtain ⟨maxRepay, -, h⟩ := bind_eq_ok.mp h
  cases hborrow : o.borrowOfMint? maxRepay.mint with
  | none => simp [hborrow] at h
  | some borrow => simp [hborrow, bind_eq_ok] at h

variable (hdeposits : ∀ p ∈ o.depositList, p.value.isFinite)
  (hborrows : ∀ p ∈ o.borrowList, p.value.isFinite)
  (hdepositMints : (o.depositList.map Position.mint).Nodup)
  (hborrowMints : (o.borrowList.map Position.mint).Nodup)
include hdeposits hborrows hdepositMints hborrowMints

theorem Order.Offers.of_rearranged {x : Exchange} {e : Execution} (h : o.IsRearranged o')
    (hx : order.Offers market o x e) : order.Offers market o' x e where
  distance := by rw [order.condition.evaluate_rearranged h, hx.distance]
  maxRepay := by
    rcases h.borrows with heq | ⟨hperm, hdistinct⟩
    · rw [← heq, hx.maxRepay]
    · exact Opportunity.maxRepay_of_perm hborrows hdistinct hperm hx.maxRepay
  borrow := by
    have hmints := (h.perm.map Position.mint).nodup_iff.mp hborrowMints
    exact (find?_key_eq_some hmints).mpr ⟨h.perm.mem_iff.mp hx.borrow_mem, hx.borrow_mint⟩
  repayValue := hx.repayValue
  bonus := by rw [bonusRate_rearranged h, hx.bonus]
  factor := hx.factor
  maxWithdraw := hx.maxWithdraw
  withdrawn := by
    have hmints := (h.deposits.map Position.mint).nodup_iff.mp hdepositMints
    have hvalues : ∀ p ∈ o'.depositList, p.value.isFinite := fun p hp =>
      hdeposits p (h.deposits.mem_iff.mpr hp)
    exact (withdrawal_eq_ok hvalues hmints).mpr
      (((withdrawal_eq_ok hdeposits hdepositMints).mp hx.withdrawn).of_perm h.deposits)
  repaid := hx.repaid
  repay := hx.repay
  withdraw := hx.withdraw

theorem Order.execution_of_rearranged {r : Option Execution} (h : o.IsRearranged o')
    (hr : order.execution market o = .ok r) : order.execution market o' = .ok r := by
  cases r with
  | some e =>
    obtain ⟨x, hx⟩ := execution_eq_some.mp hr
    exact execution_eq_some.mpr
      ⟨x, hx.of_rearranged hdeposits hborrows hdepositMints hborrowMints h⟩
  | none =>
    have hnone := evaluate_eq_none_of_execution hr
    exact execution_eq_none ((order.condition.evaluate_rearranged h).trans hnone)

end Rearranged

namespace Order

variable {order : Order} {market : Market} {o : Obligation}

/-- An execution repays the borrow that the opportunity chooses and withdraws from the deposit that gives
the most. The order in which positions are listed has no influence on it, except where it chooses between
borrows of one value. -/
theorem execution_selects (ho : o.IsSnapshot) (hdeposits : (o.depositList.map Position.mint).Nodup)
    (hborrows : (o.borrowList.map Position.mint).Nodup) :
    (∀ e, order.execution market o = .ok (some e) → ∃ x, order.Offers market o x e ∧
      order.opportunity.Chooses o.borrowList x.borrow ∧ x.maxRepay.mint = x.borrow.mint ∧
      e.repay.mint = x.borrow.mint ∧
      IsWithdrawal market o.depositList x.maxWithdraw (x.withdrawn, x.deposit) ∧
      e.withdraw.mint = x.deposit.mint) ∧
    ∀ o', o.IsRearranged o' → ∀ r,
      order.execution market o' = .ok r ↔ order.execution market o = .ok r := by
  have hdepositValues : ∀ p ∈ o.depositList, p.value.isFinite := fun p hp =>
    (ho.isSound.deposits p hp).value.1
  have hborrowValues : ∀ p ∈ o.borrowList, p.value.isFinite := fun p hp =>
    (ho.isSound.borrows p hp).value.1
  constructor
  · intro e h
    obtain ⟨x, hx⟩ := execution_eq_some.mp h
    refine ⟨x, hx, Opportunity.chooses_of_maxRepay hborrowValues hborrows hx.maxRepay hx.borrow,
      hx.borrow_mint.symm, Position.mint_of_amountWorth hx.repay,
      (withdrawal_eq_ok hdepositValues hdeposits).mp hx.withdrawn,
      Position.mint_of_amountWorth hx.withdraw⟩
  · intro o' ho' r
    constructor
    · refine execution_of_rearranged ?_ ?_ ?_ ?_ ho'.symm
      · exact fun p hp => hdepositValues p (ho'.deposits.mem_iff.mpr hp)
      · exact fun p hp => hborrowValues p (ho'.perm.mem_iff.mpr hp)
      · exact (ho'.deposits.map _).nodup_iff.mp hdeposits
      · exact (ho'.perm.map _).nodup_iff.mp hborrows
    · exact execution_of_rearranged hdepositValues hborrowValues hdeposits hborrows ho'

def ethDeposit : Position := ⟨"eth", "ethMint", .ofNat (10 ^ 8), .ofNat (10 ^ 8), .ofNat 1000⟩

/-- Two deposits of one value and one loan to value, against which 500 dollars are borrowed. -/
def twoDeposits : OrderContext where
  market := ⟨"market", ⟨"eth", "ETH", "ethMint", 8, 75, 85, 100⟩ :: longPosition.market.reserves⟩
  obligation := { leveraged 20 500 with deposits := [("eth", ethDeposit), ("sol", solDeposit 10)] }

/-- The deposit with the greater mint is chosen from both lists. -/
theorem execution_selects_greaterMint : ∃ e o',
    (stopLossAbove (.finite false 2 (-1))).execution twoDeposits.market twoDeposits.obligation =
      .ok (some e) ∧
    (stopLossAbove (.finite false 2 (-1))).execution twoDeposits.market o' = .ok (some e) ∧
    o'.depositList = twoDeposits.obligation.depositList.reverse ∧ e.withdraw.mint = "solMint" := by
  have heth : Position.ofEntries ethDeposit.toEntries = .ok ethDeposit := by decide +kernel
  have hsol : Position.ofEntries (solDeposit 10).toEntries = .ok (solDeposit 10) := by decide +kernel
  have husd : Position.ofEntries (usdBorrow 500).toEntries = .ok (usdBorrow 500) := by decide +kernel
  have hsnapshot : twoDeposits.obligation.IsSnapshot := by
    refine .built twoDeposits.market (.text "obligation") [ethDeposit, solDeposit 10] [usdBorrow 500]
      none ?_ ?_ (by decide +kernel)
    · intro p hp
      rcases List.mem_pair.mp hp with rfl | rfl
      · exact ⟨_, heth⟩
      · exact ⟨_, hsol⟩
    · intro p hp
      rw [List.mem_singleton.mp hp]
      exact ⟨_, husd⟩
  have hexecution : (stopLossAbove (.finite false 2 (-1))).execution twoDeposits.market
      twoDeposits.obligation = .ok (some ⟨⟨"usdMint", .finite false 5000000 2⟩,
        ⟨"solMint", .ofNat 5026923077⟩, .finite false 5384615384615384615384615385 (-30)⟩) := by
    decide +kernel
  obtain ⟨-, hsame⟩ := @execution_selects (stopLossAbove (.finite false 2 (-1))) twoDeposits.market _
    hsnapshot (by decide) (by decide)
  have hreversed : twoDeposits.obligation.IsRearranged
      { twoDeposits.obligation with deposits := twoDeposits.obligation.deposits.reverse } :=
    ⟨rfl, (List.reverse_perm _).symm, .inl rfl⟩
  exact ⟨_, _, hexecution, (hsame _ hreversed _).mpr hexecution, rfl, rfl⟩

end Order

end LoanOrders
