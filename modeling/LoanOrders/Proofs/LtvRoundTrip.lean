import LoanOrders.Proofs.Family
import LoanOrders.Proofs.Mapping
import LoanOrders.Proofs.Snapshot

/-! An order by the loan to value that is stored and read back. Its percentage passes through a rate
of 28 digits, the encoding of a slot and a rate again; the error of the encoding outweighs the
others. -/

namespace LoanOrders.LtvFamily

section Percent

variable {p : ℚ} {n : Nat} (hlow : 0 < Context.standard.rounded (p / 100))
  (hhigh : Context.standard.rounded (p / 100) < 1)
  (hn : (n : ℤ) = FixedPoint.scaled (Context.standard.rounded (p / 100)))
  (hmax : n ≤ FixedPoint.maxEncoded)
include hlow hhigh

theorem percent_bounds : 0 < p ∧ p / 100 < 1 := by
  constructor
  · by_contra hneg
    have hmono := Context.rounded_mono (c := Context.standard)
      (div_nonpos_of_nonpos_of_nonneg (not_lt.mp hneg) (by norm_num : (0 : ℚ) ≤ 100))
    rw [Context.rounded_zero] at hmono
    exact absurd hlow (not_lt.mpr hmono)
  · rw [← zpow_zero (10 : ℚ)] at hhigh ⊢
    exact Context.lt_ten_zpow_of_rounded (c := Context.standard) (by decide) hhigh

include hn hmax

theorem abs_percent_sub_lt :
    |Context.standard.rounded (FixedPoint.unscaled n * 100) - p| < 1 / 10 ^ 16 := by
  obtain ⟨hp, hlt⟩ := percent_bounds hlow hhigh
  have hrate : |Context.standard.rounded (p / 100) - p / 100| ≤ 10 ^ (0 - 28 : ℤ) / 2 :=
    Context.abs_rounded_sub_le_of_lt (c := Context.standard)
      (by rwa [abs_of_pos (div_pos hp (by norm_num)), zpow_zero]) (by decide)
  have hstored := FixedPoint.abs_unscaled_sub_le hn hmax
  have hnonneg := FixedPoint.unscaled_nonneg n
  have hsize : |FixedPoint.unscaled n * 100| < 10 ^ (3 : ℤ) := by
    rw [abs_of_nonneg (by positivity)]
    rw [abs_le] at hstored
    norm_num at hstored ⊢
    linarith
  have hback : |Context.standard.rounded (FixedPoint.unscaled n * 100) -
      FixedPoint.unscaled n * 100| ≤ 10 ^ (3 - 28 : ℤ) / 2 :=
    Context.abs_rounded_sub_le_of_lt (c := Context.standard) hsize (by decide)
  rw [abs_le] at hrate hstored hback
  rw [abs_lt]
  norm_num at hrate hstored hback ⊢
  constructor <;> linarith

theorem percent_eq_of_places (hp : FitsPlaces 16 p) :
    Context.standard.rounded (FixedPoint.unscaled n * 100) = p := by
  obtain ⟨hpos, hlt⟩ := percent_bounds hlow hhigh
  obtain ⟨k, hk⟩ := hp
  have hkpos : (0 : ℚ) < k := hk ▸ mul_pos hpos (by norm_num)
  have hklt : (k : ℚ) < 10 ^ 18 := by
    rw [← hk]
    linarith
  have hsize : |k| < 10 ^ Context.standard.precision := by
    have : k < 10 ^ 18 := by exact_mod_cast hklt
    have : 0 < k := by exact_mod_cast hkpos
    rw [abs_of_pos this]
    exact lt_trans ‹k < 10 ^ 18› (by decide)
  have hrate : Context.standard.rounded (p / 100) = p / 100 := by
    have hself := Context.rounded_eq_self_of_lt (k := -18) hsize (by decide)
    rwa [zpow_neg, zpow_ofNat, ← hk, ← div_eq_mul_inv,
      show p * 10 ^ 16 / 10 ^ 18 = p / 100 by ring] at hself
  rw [hrate] at hn
  have hplaces : FitsPlaces 18 (p / 100) := ⟨k, by rw [← hk]; ring⟩
  have hself := Context.rounded_eq_self_of_lt (k := -16) hsize (by decide)
  rw [zpow_neg, zpow_ofNat, ← hk, ← div_eq_mul_inv, mul_div_cancel_right₀ _ (by norm_num)] at hself
  rw [FixedPoint.unscaled_eq_of_places hn hmax hplaces, div_mul_cancel₀ _ (by norm_num), hself]

end Percent

section Accepted

variable {type : OrderType} {trigger : Trigger} {c : Condition}

/-- A trigger that an order type takes, and the way back from its condition. -/
theorem toCondition_ok (h : toCondition type trigger = .ok c) :
    ∃ t x, trigger = .ltv (.make t x) ∧ Rate.ofPercent x = .ok c.threshold ∧
      ∀ y z, Rate.toPercent y = .ok z → z.isFinite →
        toTrigger type (c.withThreshold y) = .ok (.ltv (.make t z)) := by
  obtain ⟨x, t, rfl, ht, rfl⟩ := toCondition_eq_ok.mp h
  cases type with
  | stopLoss =>
    refine ⟨.stopLoss, x, rfl, ht, fun y z hz hfin => ?_⟩
    simp only [OrderType.ltvCondition, toTrigger, Condition.withThreshold, hz, liftM_ok, ok_bind,
      LtvTrigger.ofPercent_eq hfin, pure_eq_ok]
  | takeProfit =>
    refine ⟨.takeProfit, x, rfl, ht, fun y z hz hfin => ?_⟩
    simp only [OrderType.ltvCondition, toTrigger, Condition.withThreshold, hz, liftM_ok, ok_bind,
      LtvTrigger.ofPercent_eq hfin, pure_eq_ok]

theorem ofPercent_ok {x y : Decimal} (h : Rate.ofPercent x = .ok y) (hy : y.isFinite) :
    x.isFinite ∧ y.toRat = Context.standard.rounded (x.toRat / 100) := by
  have hx := Decimal.isFinite_of_div rfl h hy
  obtain ⟨-, -, hval⟩ := Context.div_ok hx (Decimal.isFinite_ofNat _) h
  refine ⟨hx, ?_⟩
  rw [hval, Decimal.toRat_ofNat]
  rfl

theorem checkCondition_ok (h : checkCondition c = .ok ()) :
    c.threshold.isFinite ∧ 1 / 100 ≤ c.threshold.toRat ∧ c.threshold.toRat ≤ 99 / 100 := by
  obtain ⟨above, habove, h⟩ := bind_eq_ok.mp h
  rw [liftM_eq_ok] at habove
  have hlowest : lowest.toRat = 1 / 100 := by norm_num [lowest, Context.signed]
  have hhighest : highest.toRat = 99 / 100 := by norm_num [highest, Context.signed]
  cases above with
  | false =>
    simp only [if_neg Bool.false_ne_true, pure_eq_ok, ok_bind, bind_eq_ok, check_eq_ok] at h
    obtain ⟨_, _, _, _, _, _, _, _, _, _, hfalse⟩ := h
    exact absurd hfalse Bool.false_ne_true
  | true =>
    simp only [if_pos, bind_eq_ok, liftM_eq_ok, check_eq_ok] at h
    obtain ⟨_, hhigh, _, _, _, _, _, _, _, _, _, _, rfl⟩ := h
    have hfin : c.threshold.isFinite := by
      cases hc : c.threshold with
      | finite => rfl
      | infinite s =>
        rw [hc] at habove hhigh
        cases s <;>
          simp [Decimal.le, Decimal.ordered, Decimal.compare?, lowest, highest] at habove hhigh
      | nan => simp [hc, Decimal.le, Decimal.ordered, Decimal.compare?] at hhigh
    rw [Decimal.le_eq (x := lowest) rfl hfin, hlowest] at habove
    rw [Decimal.le_eq hfin (y := highest) rfl, hhighest] at hhigh
    exact ⟨hfin, by simpa using habove, by simpa using hhigh⟩

/-- The percentage that is read back for a given one. -/
def PercentKept (given read : ℚ) : Prop :=
  |read - given| < 1 / 10 ^ 16 ∧ (FitsPlaces 16 given → read = given)

theorem exists_toPercent {x t y : Decimal} {n : Nat} (hrate : Rate.ofPercent x = .ok t)
    (ht : t.isFinite) (hlow : 1 / 100 ≤ t.toRat) (hhigh : t.toRat ≤ 99 / 100)
    (hn : FixedPoint.encode t = .ok n) (hy : y.isFinite) (hval : y.toRat = FixedPoint.unscaled n) :
    ∃ z, Rate.toPercent y = .ok z ∧ Decimal.Related PercentKept x z := by
  obtain ⟨hx, htval⟩ := ofPercent_ok hrate ht
  obtain ⟨-, hscaled, hmax⟩ := FixedPoint.encode_ok hn
  rw [htval] at hlow hhigh hscaled
  have hpos : 0 < Context.standard.rounded (x.toRat / 100) := by linarith
  have hlt : Context.standard.rounded (x.toRat / 100) < 1 := by linarith
  have herr := abs_le.mp (FixedPoint.abs_unscaled_sub_le hscaled hmax)
  have hnonneg := FixedPoint.unscaled_nonneg n
  have hhundred : (Decimal.ofNat Rate.fullPercent).toRat = 100 := by
    rw [Decimal.toRat_ofNat]
    rfl
  have hsize : |y.toRat * (Decimal.ofNat Rate.fullPercent).toRat| < 10 ^ Context.maxExponent := by
    refine lt_of_lt_of_le ?_ (ten_zpow_le (by decide : (3 : ℤ) ≤ Context.maxExponent))
    rw [hval, hhundred, abs_of_nonneg (mul_nonneg hnonneg (by norm_num))]
    norm_num at herr ⊢
    linarith
  obtain ⟨z, hz⟩ := Context.exists_mul (c := Context.standard) hy
    (Decimal.isFinite_ofNat _) hsize
  obtain ⟨hzfin, hzval⟩ := Context.mul_ok hy (Decimal.isFinite_ofNat _) hz
  rw [hval, hhundred] at hzval
  refine ⟨z, hz, hx, hzfin, ?_⟩
  rw [hzval]
  exact ⟨abs_percent_sub_lt hpos hlt hscaled hmax, percent_eq_of_places hpos hlt hscaled hmax⟩

end Accepted

/-- An order that is created and stored is read back, as the same order with numbers that lie near
the given ones. They are the given ones if they have few enough places. -/
theorem read_create_ltv {context : OrderContext} {typeName : String} {s : Specification}
    {u : SlotUpdate} {state : SlotState}
    (hcreate : ltvFamily.create context typeName (some s) = .ok u) (hstate : u.state = .ok state)
    (hother : ∀ i ≠ u.index, ∃ other, Order.decode (context.obligation.slots.get i) = .ok other) :
    ∃ t, ltvFamily.read (context.store u.index state) typeName = .ok (some t) ∧
      s.trigger.Related (fun p q => |q - p| < 1 / 10 ^ 16) t.trigger ∧
      s.action.Related (fun a b => |b - a| < 1 / 10 ^ 18) t.action ∧
      Decimal.Related (fun b c => FitsDigits 28 b → c = round b) s.bonusBps.1 t.bonusBps.1 ∧
      Decimal.Related (fun b c => FitsDigits 28 b → c = round b) s.bonusBps.2 t.bonusBps.2 ∧
      ((∀ p ∈ s.trigger.number?, FitsPlaces 16 p.toRat) →
        (∀ a ∈ s.action.amount?, FitsPlaces 18 a.toRat) →
        FitsPlaces 0 s.bonusBps.1.toRat → FitsPlaces 0 s.bonusBps.2.toRat → s.Same t) := by
  obtain ⟨profile, type, c, o, hprofile, htype, hcond, hcheck, ho, rfl⟩ := Family.create_ok hcreate
  obtain ⟨t, x, htrigger, hrate, hback⟩ := toCondition_ok hcond
  obtain ⟨hfin, hlow, hhigh⟩ := checkCondition_ok hcheck
  have hthreshold := (Order.encode_eq_ok.mp hstate).threshold
  rw [ho.condition_eq] at hthreshold
  have hkeep (y : Decimal) (hy : y.isFinite) (hyval : y.toRat = FixedPoint.unscaled state.threshold) :
      ∃ trigger, ltvFamily.toTrigger profile type (c.withThreshold y) = .ok trigger ∧
        Specification.readTrigger ltvFamily.kind trigger.toData = .valid trigger ∧
        s.trigger.Related PercentKept trigger := by
    obtain ⟨z, hz, hkept⟩ := exists_toPercent hrate hfin hlow hhigh hthreshold hy hyval
    refine ⟨.ltv (.make t z), hback y z hz hkept.2.1, Specification.readTrigger_ltv hkept.2.1 t, ?_⟩
    rw [htrigger, Trigger.Related]
    simpa using hkept
  obtain ⟨r, hread, hpercent, haction, hmin, hmax⟩ :=
    ho.exists_read hstate hother hprofile htype hkeep
  refine ⟨r, hread, hpercent.imp fun _ _ _ h => h.1, haction.imp fun _ _ _ h => h.1,
    hmin.imp fun _ h => h.1, hmax.imp fun _ h => h.1, ?_⟩
  intro hpplaces haplaces hminWhole hmaxWhole
  exact ⟨hpercent.imp fun x hx _ h => (h.2 (hpplaces x hx)).symm,
    haction.imp fun x hx _ h => (h.2 (haplaces x hx)).symm,
    hmin.imp fun _ h => (h.2 hminWhole).symm, hmax.imp fun _ h => (h.2 hmaxWhole).symm⟩

/-- A stop-loss at 60.5% that repays 100 lamports. The upper end of its bonus is no whole number of
basis points. -/
theorem read_create_ltv_stopLoss : ∃ t, ltvFamily.read (longPosition.store 0
      ⟨1, 697517510287142420, 0, 115292150460684697600, 50, 101⟩) "StopLoss" = .ok (some t) ∧
    Decimal.Related (fun b c => FitsDigits 28 b → c = round b) (.finite false 1005 (-1)) t.bonusBps.2 := by
  have hcreate : ltvFamily.create longPosition "StopLoss"
      (some ⟨.ltv (.stopLoss (.finite false 605 (-1))), .partialRepay (.ofNat 100),
        (.ofNat 50, .finite false 1005 (-1))⟩) =
      .ok ⟨0, some ⟨.ltvAbove (.finite false 605 (-3)), .debtAmount (.ofNat 100),
        .finite false 5 (-3), .finite false 1005 (-5)⟩⟩ := by decide +kernel
  obtain ⟨t, ht, -, -, -, hmax, -⟩ :=
    read_create_ltv hcreate rfl fun i _ => ⟨none, by fin_cases i <;> rfl⟩
  exact ⟨t, ht, hmax⟩

end LoanOrders.LtvFamily
