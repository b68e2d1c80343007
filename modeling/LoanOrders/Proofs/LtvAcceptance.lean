import LoanOrders.Proofs.Distance
import LoanOrders.Proofs.Inactive
import LoanOrders.Proofs.Mapping

/-! Which percentages an order by the loan to value takes. A percentage with few enough digits becomes
a rate without rounding, so the limits on it and its place beside the current loan to value are
decided exactly. -/

namespace LoanOrders

/-- A number with at most `n` digits, in front of an exponent between `-bound` and `bound`. -/
def FitsRange (n : Nat) (bound : ℤ) (q : ℚ) : Prop :=
  ∃ m e : ℤ, |m| < 10 ^ n ∧ |e| ≤ bound ∧ q = m * 10 ^ e

theorem FitsRange.abs_lt {n : Nat} {bound : ℤ} {q : ℚ} (h : FitsRange n bound q) :
    |q| < 10 ^ (n + bound) := by
  obtain ⟨m, e, hm, he, rfl⟩ := h
  have hm' : |(m : ℚ)| < 10 ^ n := by exact_mod_cast hm
  rw [abs_mul, abs_of_pos (ten_zpow_pos e), zpow_add₀ (by norm_num), zpow_natCast]
  calc |(m : ℚ)| * 10 ^ e < 10 ^ n * 10 ^ e := mul_lt_mul_of_pos_right hm' (ten_zpow_pos e)
    _ ≤ 10 ^ n * 10 ^ bound :=
        mul_le_mul_of_nonneg_left (ten_zpow_le (abs_le.mp he).2) (by positivity)

namespace Rate

variable {x : Decimal}

theorem exists_ofPercent (hx : x.isFinite) (hrange : FitsRange 28 1000 x.toRat) :
    ∃ t y, ofPercent x = .ok t ∧ t.isFinite ∧ t.toRat = x.toRat / 100 ∧ toPercent t = .ok y := by
  have hfull : (Decimal.ofNat fullPercent).toRat = 100 := by simp [fullPercent]
  have hsize : |x.toRat| < 10 ^ Context.maxExponent :=
    hrange.abs_lt.trans_le (ten_zpow_le (by decide))
  have hdivSize : |x.toRat / (Decimal.ofNat fullPercent).toRat| < 10 ^ Context.maxExponent := by
    rw [hfull, abs_div]
    exact (div_le_self (abs_nonneg _) (by norm_num)).trans_lt hsize
  obtain ⟨t, ht⟩ := Context.exists_div (c := Context.standard) hx (Decimal.isFinite_ofNat fullPercent)
    (by rw [hfull]; norm_num) hdivSize
  obtain ⟨-, hfin, hval⟩ := Context.div_ok hx (Decimal.isFinite_ofNat fullPercent) ht
  obtain ⟨m, e, hm, he, hxval⟩ := hrange
  have hdiv : x.toRat / 100 = m * 10 ^ (e - 2) := by
    rw [hxval, zpow_sub₀ (by norm_num), mul_div_assoc]
    norm_num
  have hplace : Context.standard.lowestPlace ≤ e - 2 := by
    have hlow : Context.standard.lowestPlace ≤ -1002 := by decide
    have := (abs_le.mp he).1
    omega
  rw [hfull, hdiv, Context.rounded_eq_self_of_lt (c := Context.standard) hm hplace, ← hdiv] at hval
  obtain ⟨y, hy⟩ := Context.exists_mul (c := Context.standard) hfin (Decimal.isFinite_ofNat fullPercent)
    (by rwa [hval, hfull, div_mul_cancel₀ _ (by norm_num)])
  exact ⟨t, y, ht, hfin, hval, hy⟩

end Rate

namespace LtvFamily

variable {c : Condition} {y : Decimal} {context : OrderContext}

theorem profile_eq_ok (h : ∀ entry ∈ context.obligation.deposits, ∃ reserve,
    context.market.reserveAt entry.1 = .ok reserve ∧ reserve.loanToValuePct ≠ 0) :
    profile context = .ok () := by
  unfold profile
  generalize context.obligation.deposits = deposits at h
  induction deposits with
  | nil => rfl
  | cons entry deposits ih =>
    obtain ⟨reserve, hreserve, hpct⟩ := h entry List.mem_cons_self
    simp only [List.forM, hreserve, ok_bind, bne_iff_ne.mpr hpct, check_true]
    exact ih fun other hother => h other (List.mem_cons_of_mem _ hother)

theorem checkCondition_eq (ht : c.threshold.isFinite) : checkCondition c = (do
    let given ← Rate.toPercent c.threshold
    check (decide (1 / 100 ≤ c.threshold.toRat ∧ c.threshold.toRat ≤ 99 / 100))
      (.ltvOutOfRange (.ofNat 1) (.ofNat 99) given)) := by
  have hlowest : lowest.toRat = 1 / 100 := by norm_num [lowest, Context.signed]
  have hhighest : highest.toRat = 99 / 100 := by norm_num [highest, Context.signed]
  have hlow : Rate.toPercent lowest = .ok (.finite false 100 (-2)) := rfl
  have hhigh : Rate.toPercent highest = .ok (.finite false 9900 (-2)) := rfl
  have hone : Context.standard.normalize (.finite false 100 (-2)) = .ok (.ofNat 1) := rfl
  have hninetyNine : Context.standard.normalize (.finite false 9900 (-2)) = .ok (.ofNat 99) := rfl
  unfold checkCondition
  rw [Decimal.le_eq (x := lowest) rfl ht, Decimal.le_eq (y := highest) ht rfl, hlowest, hhighest]
  by_cases habove : 1 / 100 ≤ c.threshold.toRat
  · simp only [habove, hlow, hhigh, hone, hninetyNine, liftM_ok, ok_bind, decide_true, if_true, true_and]
  · simp only [habove, hlow, hhigh, hone, hninetyNine, liftM_ok, ok_bind, decide_false, false_and,
      Bool.false_eq_true, if_false, pure_eq_ok]

/-- The thresholds that may be asked for, and the error for any other. -/
theorem checkCondition_cases (ht : c.threshold.isFinite) (hy : Rate.toPercent c.threshold = .ok y) :
    1 / 100 ≤ c.threshold.toRat ∧ c.threshold.toRat ≤ 99 / 100 ∧ checkCondition c = .ok () ∨
      ¬(1 / 100 ≤ c.threshold.toRat ∧ c.threshold.toRat ≤ 99 / 100) ∧
        ∃ e, e.kind = .precondition .range ∧ checkCondition c = .error e := by
  rw [checkCondition_eq ht, hy, liftM_ok, ok_bind]
  by_cases hin : 1 / 100 ≤ c.threshold.toRat ∧ c.threshold.toRat ≤ 99 / 100
  · rw [decide_eq_true hin]
    exact .inl ⟨hin.1, hin.2, rfl⟩
  · rw [decide_eq_false hin]
    exact .inr ⟨hin, _, rfl, rfl⟩

end LtvFamily

/-- An order of a type waits at a percentage while the current one is not past it. -/
def OrderType.Awaits (percent current : ℚ) : OrderType → Prop
  | stopLoss => current ≤ percent
  | takeProfit => percent ≤ current

theorem OrderType.isClear_ltvCondition (type : OrderType) (t : Decimal) (percent ltv : ℚ) :
    (type.ltvCondition t).IsClear (percent / 100) ltv ↔ type.Awaits percent (100 * ltv) := by
  cases type <;> simp only [ltvCondition, Condition.IsClear, Awaits]
  · rw [le_div_iff₀ (by norm_num), mul_comm]
  · rw [div_le_iff₀ (by norm_num), mul_comm]

theorem OrderType.current_ltvCondition (type : OrderType) (t : Decimal) (o : Obligation) :
    (type.ltvCondition t).current o = o.loanToValue := by
  cases type <;> rfl

namespace LtvFamily

variable {context : OrderContext} {type : OrderType} {x ltv : Decimal} {bonus rates : Decimal × Decimal}

def fullRepayAt (type : OrderType) (x : Decimal) (bonus : Decimal × Decimal) : Specification :=
  ⟨.ltv (type.ltvTrigger x), .fullRepay, bonus⟩

/-- The condition of a percentage has a value on an obligation. -/
def HasEvaluation (context : OrderContext) (type : OrderType) (x : Decimal) : Prop :=
  ∀ t, Rate.ofPercent x = .ok t → ∃ hit, (type.ltvCondition t).evaluate context.obligation = .ok hit

/-- What becomes of an order of which only the percentage can be wrong. -/
inductive Verdict (type : OrderType) (percent current : ℚ) : Result SlotUpdate → Prop
  | outside {e : Error} (h : ¬(1 ≤ percent ∧ percent ≤ 99)) (hkind : e.kind = .precondition .range) :
      Verdict type percent current (.error e)
  | triggered (h : 1 ≤ percent ∧ percent ≤ 99) (hpast : ¬type.Awaits percent current) :
      Verdict type percent current (.error .immediatelyTriggered)
  | accepted (h : 1 ≤ percent ∧ percent ≤ 99) (hawaits : type.Awaits percent current)
      (u : SlotUpdate) : Verdict type percent current (.ok u)

section Verdict

variable {percent current : ℚ} {result : Result SlotUpdate} (h : Verdict type percent current result)
include h

theorem Verdict.exists_ok_iff : (∃ u, result = .ok u) ↔
    1 ≤ percent ∧ percent ≤ 99 ∧ type.Awaits percent current := by
  cases h with
  | outside hout => simp [← and_assoc, hout]
  | triggered _ hpast => simp [hpast]
  | accepted hin hawaits => simp [hin, hawaits]

theorem Verdict.exists_error (hout : ¬(1 ≤ percent ∧ percent ≤ 99)) :
    ∃ e, result = .error e ∧ e.kind = .precondition .range := by
  cases h with
  | outside _ hkind => exact ⟨_, rfl, hkind⟩
  | triggered hin | accepted hin => exact absurd hin hout

theorem Verdict.eq_immediatelyTriggered (hin : 1 ≤ percent ∧ percent ≤ 99)
    (hpast : ¬type.Awaits percent current) : result = .error .immediatelyTriggered := by
  cases h with
  | outside hout => exact absurd hin hout
  | triggered => rfl
  | accepted _ hawaits => exact absurd hawaits hpast

end Verdict

section Created

variable (hdeposits : ∀ entry ∈ context.obligation.deposits, ∃ reserve,
    context.market.reserveAt entry.1 = .ok reserve ∧ reserve.loanToValuePct ≠ 0)
  (hstats : context.obligation.stats.IsSound) (hltv : context.obligation.loanToValue = .ok ltv)
  (hx : x.isFinite) (hrange : FitsRange 28 1000 x.toRat)
  (hbonus : Rate.ofBonusRange bonus.1 bonus.2 = .ok rates)
include hdeposits hstats hltv hx hrange hbonus

theorem verdict_create (type : OrderType)
    (heval : 1 ≤ x.toRat ∧ x.toRat ≤ 99 → HasEvaluation context type x) :
    Verdict type x.toRat (100 * ltv.toRat)
      (ltvFamily.create context type.name (some (fullRepayAt type x bonus))) := by
  obtain ⟨t, y, ht, htfin, htval, hy⟩ := Rate.exists_ofPercent hx hrange
  have hprofile : ltvFamily.profile context = .ok () := profile_eq_ok hdeposits
  have hname : OrderType.ofName type.name = .ok type := OrderType.ofName_eq_ok.mpr rfl
  have hcondition : ltvFamily.toCondition () type (fullRepayAt type x bonus).trigger =
      .ok (type.ltvCondition t) := toCondition_eq_ok.mpr ⟨x, t, rfl, ht, rfl⟩
  have hthreshold := type.threshold_ltvCondition t
  have hpercent : 1 / 100 ≤ (type.ltvCondition t).threshold.toRat ∧
      (type.ltvCondition t).threshold.toRat ≤ 99 / 100 ↔ 1 ≤ x.toRat ∧ x.toRat ≤ 99 := by
    rw [hthreshold, htval]
    constructor <;> rintro ⟨hlow, hhigh⟩ <;> constructor <;> linarith
  simp only [Family.create, hprofile, hname, hcondition, ok_bind]
  -- The range is looked at first, so outside of it nothing is evaluated.
  have hcases := checkCondition_cases (c := type.ltvCondition t) (by rwa [hthreshold])
    (by rwa [hthreshold])
  rcases hcases with ⟨hlow, hhigh, hcheck⟩ | ⟨hout, e, hkind, hcheck⟩
  · have hcheck : ltvFamily.checkCondition (type.ltvCondition t) = .ok () := hcheck
    have hin := hpercent.mp ⟨hlow, hhigh⟩
    have hstorable : (type.ltvCondition t).checkStorable = .ok () := by
      refine Condition.checkStorable_eq ⟨?_, ?_⟩ <;> norm_num at hlow hhigh ⊢ <;> linarith
    obtain ⟨hit, hhit⟩ := heval hin t ht
    obtain ⟨id, -, hid⟩ := type.typeId?_ltvCondition t
    obtain ⟨current, hcurrent, hclear⟩ :=
      Condition.isClear_of_evaluate hid (by rwa [hthreshold]) hhit
    rw [type.current_ltvCondition, hltv] at hcurrent
    obtain rfl := Except.ok.inj hcurrent
    obtain ⟨hltvNonneg, -⟩ := Obligation.perDeposit_ok hstats hstats.weightedBorrow hltv
    have hclear := hclear hltvNonneg.1
    rw [hthreshold, htval, type.isClear_ltvCondition] at hclear
    cases hit with
    | none =>
      have horder : Family.orderOf context (type.ltvCondition t) (fullRepayAt type x bonus) =
          .ok ⟨type.ltvCondition t, .allDebt, rates.1, rates.2⟩ := by
        simp only [Family.orderOf, hstorable, hhit, Option.isNone_none, check_true, fullRepayAt,
          Action.toOpportunity, hbonus, ok_bind, pure_eq_ok]
      simp only [hcheck, horder, ok_bind, pure_eq_ok]
      exact .accepted hin (hclear.mp rfl) _
    | some d =>
      have horder : Family.orderOf context (type.ltvCondition t) (fullRepayAt type x bonus) =
          .error .immediatelyTriggered := by
        simp only [Family.orderOf, hstorable, hhit, Option.isNone_some, check_false, ok_bind,
          error_bind]
      simp only [hcheck, horder, ok_bind, error_bind]
      exact .triggered hin fun hawaits => by simpa using hclear.mpr hawaits
  · have hcheck : ltvFamily.checkCondition (type.ltvCondition t) = .error e := hcheck
    simp only [hcheck, error_bind]
    exact .outside (mt hpercent.mpr hout) hkind

/-- A stop-loss is accepted at a percentage from 1 to 99 that the current one does not exceed, a
take-profit at one that the current one does not fall short of. One of the two always is, and both
are only at the current percentage itself. -/
theorem create_fullRepayAt :
    (∀ type, ¬(1 ≤ x.toRat ∧ x.toRat ≤ 99) →
      ∃ e, ltvFamily.create context type.name (some (fullRepayAt type x bonus)) = .error e ∧
        e.kind = .precondition .range) ∧
    (∀ type, HasEvaluation context type x →
      ((∃ u, ltvFamily.create context type.name (some (fullRepayAt type x bonus)) = .ok u) ↔
        1 ≤ x.toRat ∧ x.toRat ≤ 99 ∧ type.Awaits x.toRat (100 * ltv.toRat)) ∧
      (1 ≤ x.toRat → x.toRat ≤ 99 → ¬type.Awaits x.toRat (100 * ltv.toRat) →
        ltvFamily.create context type.name (some (fullRepayAt type x bonus)) =
          .error .immediatelyTriggered)) ∧
    ((∀ type, HasEvaluation context type x) → 1 ≤ x.toRat → x.toRat ≤ 99 →
      (∃ type u, ltvFamily.create context type.name (some (fullRepayAt type x bonus)) = .ok u) ∧
      ((∀ type, ∃ u, ltvFamily.create context type.name (some (fullRepayAt type x bonus)) = .ok u) ↔
        x.toRat = 100 * ltv.toRat)) := by
  have hverdict (type : OrderType) :=
    verdict_create hdeposits hstats hltv hx hrange hbonus type
  have haccepted (type : OrderType) (heval : HasEvaluation context type x) :=
    (hverdict type fun _ => heval).exists_ok_iff
  refine ⟨fun type hout => (hverdict type fun hin => absurd hin hout).exists_error hout,
    fun type heval => ⟨haccepted type heval, fun hlow hhigh =>
      (hverdict type fun _ => heval).eq_immediatelyTriggered ⟨hlow, hhigh⟩⟩,
    fun heval hlow hhigh => ⟨?_, ?_⟩⟩
  · rcases le_total (100 * ltv.toRat) x.toRat with hle | hle
    · exact ⟨.stopLoss, (haccepted _ (heval _)).mpr ⟨hlow, hhigh, hle⟩⟩
    · exact ⟨.takeProfit, (haccepted _ (heval _)).mpr ⟨hlow, hhigh, hle⟩⟩
  · constructor
    · intro hboth
      obtain ⟨-, -, hstop⟩ := (haccepted _ (heval _)).mp (hboth .stopLoss)
      obtain ⟨-, -, htake⟩ := (haccepted _ (heval _)).mp (hboth .takeProfit)
      exact le_antisymm htake hstop
    · intro heq type
      refine (haccepted type (heval type)).mpr ⟨hlow, hhigh, ?_⟩
      cases type with
      | stopLoss => exact heq.ge
      | takeProfit => exact heq.le

end Created

/-- While half of a deposit is borrowed, a stop-loss at 60 percent waits and a take-profit there would
be executed at once. -/
theorem create_fullRepayAt_sixty :
    (∃ u, ltvFamily.create longPosition "StopLoss"
      (some (fullRepayAt .stopLoss (.ofNat 60) (.ofNat 50, .ofNat 100))) = .ok u) ∧
    ltvFamily.create longPosition "TakeProfit"
      (some (fullRepayAt .takeProfit (.ofNat 60) (.ofNat 50, .ofNat 100))) =
        .error .immediatelyTriggered := by
  have hdeposits : ∀ entry ∈ longPosition.obligation.deposits, ∃ reserve,
      longPosition.market.reserveAt entry.1 = .ok reserve ∧ reserve.loanToValuePct ≠ 0 := by
    intro entry hentry
    obtain rfl := List.mem_singleton.mp hentry
    exact ⟨_, rfl, by decide⟩
  have hstats : longPosition.obligation.stats.IsSound := by
    constructor <;> exact ⟨rfl, by simp [longPosition]⟩
  have hltv : longPosition.obligation.loanToValue = .ok (.finite false 5 (-1)) := rfl
  have hrange : FitsRange 28 1000 (Decimal.ofNat 60).toRat :=
    ⟨60, 0, by norm_num, by norm_num, by norm_num⟩
  have heval (type : OrderType) : HasEvaluation longPosition type (.ofNat 60) := by
    intro t ht
    obtain rfl : .finite false 6 (-1) = t := Except.ok.inj ht
    cases type with
    | stopLoss => exact ⟨none, rfl⟩
    | takeProfit => exact ⟨some (.finite false 1666666666666666666666666667 (-28)), rfl⟩
  have hbonus : Rate.ofBonusRange (Decimal.ofNat 50, Decimal.ofNat 100).1
      (Decimal.ofNat 50, Decimal.ofNat 100).2 = .ok (.finite false 5 (-3), .finite false 1 (-2)) := by
    decide +kernel
  obtain ⟨-, hcreated, -⟩ := create_fullRepayAt hdeposits hstats hltv rfl hrange hbonus
  refine ⟨(hcreated .stopLoss (heval _)).1.mpr ?_, (hcreated .takeProfit (heval _)).2 ?_ ?_ ?_⟩ <;>
    norm_num [OrderType.Awaits, Context.signed]

end LtvFamily

end LoanOrders
