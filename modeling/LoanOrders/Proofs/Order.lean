import LoanOrders.Proofs.FixedPoint
import LoanOrders.Proofs.Rate

/-! Storing an order and reading it back. The kinds of its condition and of its opportunity survive,
each number is read as what the slot keeps of it, and the bonus as whole basis points. -/

namespace LoanOrders

namespace Condition

/-- The condition of the same kind at another threshold. -/
def withThreshold : Condition → Decimal → Condition
  | ltvAbove _, t => ltvAbove t
  | ltvBelow _, t => ltvBelow t
  | priceRatioAbove _, t => priceRatioAbove t
  | priceRatioBelow _, t => priceRatioBelow t
  | foreign name _, t => foreign name t

@[simp] theorem threshold_withThreshold (c : Condition) (t : Decimal) :
    (c.withThreshold t).threshold = t := by
  cases c <;> rfl

@[simp] theorem withThreshold_threshold (c : Condition) : c.withThreshold c.threshold = c := by
  cases c <;> rfl

@[simp] theorem typeId?_withThreshold (c : Condition) (t : Decimal) :
    (c.withThreshold t).typeId? = c.typeId? := by
  cases c <;> rfl

theorem ofTypeId?_typeId? {c : Condition} {id : Nat} (h : c.typeId? = some id) :
    ofTypeId? id = some c.withThreshold ∧ id ≠ 0 := by
  cases c <;> simp [typeId?] at h <;> subst h <;> exact ⟨rfl, by decide⟩

theorem typeId?_of_ofTypeId? {id : Nat} {make : Decimal → Condition} (h : ofTypeId? id = some make)
    (t : Decimal) : (make t).typeId? = some id ∧ (make t).threshold = t := by
  unfold ofTypeId? at h
  split at h
  all_goals first
    | obtain rfl := Option.some.inj h
      exact ⟨rfl, rfl⟩
    | simp at h

theorem checkStorable_ok {c : Condition} (h : c.checkStorable = .ok ()) :
    ∃ n, FixedPoint.encode c.threshold = .ok n ∧ 0 < n := by
  unfold checkStorable at h
  cases hn : FixedPoint.encode c.threshold with
  | error e => simp [hn] at h
  | ok n =>
    simp only [hn, ok_bind, check_eq_ok, decide_eq_true_eq] at h
    exact ⟨n, rfl, h⟩

theorem checkStorable_of_encode {c : Condition} {n : Nat}
    (hn : FixedPoint.encode c.threshold = .ok n) (hpos : 0 < n) : c.checkStorable = .ok () := by
  simp only [checkStorable, hn, ok_bind, hpos, decide_true, check_true]

theorem checkStorable_eq {c : Condition} (h : FixedPoint.IsStorable c.threshold.toRat) :
    c.checkStorable = .ok () := by
  obtain ⟨n, hn, hpos⟩ := FixedPoint.exists_encode_iff.mpr h
  exact checkStorable_of_encode hn hpos

end Condition

namespace Opportunity

/-- The opportunity of the same kind with another parameter, which the one for all debt has not. -/
def withParameter : Opportunity → Decimal → Opportunity
  | debtAmount _, p => debtAmount p
  | allDebt, _ => allDebt
  | foreign name mint _, p => foreign name mint p

@[simp] theorem typeId?_withParameter (o : Opportunity) (p : Decimal) :
    (o.withParameter p).typeId? = o.typeId? := by
  cases o <;> rfl

theorem isPlain_maxValue : FixedPoint.maxValue.IsPlain FixedPoint.decimalPlaces :=
  ⟨_, 18, rfl, le_rfl, .inr (by decide)⟩

theorem ofTypeId?_typeId? {o : Opportunity} {id : Nat} (h : o.typeId? = some id) :
    ∃ make, ofTypeId? id = some make ∧ make o.parameter = .ok o := by
  cases o with
  | debtAmount amount =>
    obtain rfl : 0 = id := by simpa [typeId?] using h
    exact ⟨_, rfl, rfl⟩
  | allDebt =>
    obtain rfl : 1 = id := by simpa [typeId?] using h
    refine ⟨_, rfl, ?_⟩
    rw [parameter, ofAllDebtParameter, Decimal.same_eq rfl rfl]
    simp
  | foreign => simp [typeId?] at h

/-- A plain number that equals the parameter for all debt is written like it. -/
theorem ofAllDebtParameter_eq {p : Decimal} (hp : p.IsPlain FixedPoint.decimalPlaces) :
    ofAllDebtParameter p = if p = FixedPoint.maxValue then .ok allDebt
      else .error (.allDebtParameter p FixedPoint.maxValue) := by
  have hwritten : p.toRat = FixedPoint.maxValue.toRat ↔ p = FixedPoint.maxValue :=
    ⟨hp.eq_of_toRat_eq isPlain_maxValue, congrArg Decimal.toRat⟩
  rw [ofAllDebtParameter, Decimal.same_eq hp.isFinite rfl]
  by_cases hmax : p = FixedPoint.maxValue
  · simp [hmax]
  · simp [hmax, mt hwritten.mp hmax]

theorem typeId?_of_ofTypeId? {o : Opportunity} {id : Nat} {make : Decimal → Result Opportunity}
    {p : Decimal} (h : ofTypeId? id = some make) (hp : p.IsPlain FixedPoint.decimalPlaces)
    (ho : make p = .ok o) : o.typeId? = some id ∧ o.parameter = p := by
  unfold ofTypeId? at h
  split at h
  · obtain rfl := Option.some.inj h
    obtain rfl : debtAmount p = o := Except.ok.inj ho
    exact ⟨rfl, rfl⟩
  · obtain rfl := Option.some.inj h
    rw [ofAllDebtParameter_eq hp] at ho
    split_ifs at ho with hmax
    obtain rfl : allDebt = o := Except.ok.inj ho
    exact ⟨rfl, hmax.symm⟩
  · simp at h

end Opportunity

namespace SlotState

theorem checkBonus_eq_valid {name : String} {bps : ℤ} {n : Nat} (h : checkBonus name bps = .valid n) :
    bps = n ∧ n ≤ Rate.maxBonusBps := by
  simp only [checkBonus, Data.asNatUpTo, Data.asWholeBetween, Data.asWhole, Validated.andThen,
    Option.map_some, Option.any_some, decide_eq_true_eq] at h
  split_ifs at h with hlow hhigh
  · simp [Validated.fault, Validated.map, Validated.under] at h
  · simp [Validated.fault, Validated.map, Validated.under] at h
  · simp only [Validated.map, Validated.under, Validated.valid.injEq] at h
    have : ¬(Rate.maxBonusBps : ℤ) < bps := hhigh
    omega

theorem checkBonus_natCast (name : String) {n : Nat} (hn : n ≤ Rate.maxBonusBps) :
    checkBonus name n = .valid n := by
  have hlow : ¬((n : ℤ) < 0) := by omega
  have hhigh : ¬(Int.ofNat Rate.maxBonusBps < n) := by
    have : (n : ℤ) ≤ Rate.maxBonusBps := by exact_mod_cast hn
    exact not_lt.mpr this
  simp only [checkBonus, Data.asNatUpTo, Data.asWholeBetween, Data.asWhole, Validated.andThen,
    Option.map_some, Option.any_some, decide_eq_true_eq, if_neg hlow, if_neg hhigh, Validated.map,
    Validated.under, Int.toNat_natCast]

theorem withBonuses_eq_ok {a b c d : Nat} {min max : ℤ} {s : SlotState} :
    withBonuses a b c d min max = .ok s ↔ ∃ m n : Nat, min = m ∧ max = n ∧
      m ≤ Rate.maxBonusBps ∧ n ≤ Rate.maxBonusBps ∧ s = ⟨a, b, c, d, m, n⟩ := by
  unfold withBonuses
  constructor
  · intro h
    cases hmin : checkBonus "min_execution_bonus_bps" min with
    | faulty =>
      rw [hmin] at h
      cases hmax : checkBonus "max_execution_bonus_bps" max <;> rw [hmax] at h <;> cases h
    | valid m =>
      cases hmax : checkBonus "max_execution_bonus_bps" max with
      | faulty =>
        rw [hmin, hmax] at h
        cases h
      | valid n =>
        rw [hmin, hmax] at h
        obtain ⟨hm, hmle⟩ := checkBonus_eq_valid hmin
        obtain ⟨hn, hnle⟩ := checkBonus_eq_valid hmax
        exact ⟨m, n, hm, hn, hmle, hnle, (Except.ok.inj h).symm⟩
  · rintro ⟨m, n, rfl, rfl, hm, hn, rfl⟩
    rw [checkBonus_natCast _ hm, checkBonus_natCast _ hn]
    rfl

end SlotState

namespace Order

variable {o : Order} {s : SlotState}

theorem bonusBps_eq {rate : Decimal} (hr : rate.isFinite) (h₀ : 0 ≤ rate.toRat)
    (h : rate.toRat * Rate.fullBps < 10 ^ (6 : ℤ)) :
    bonusBps rate = .ok (Rate.wholeBps rate.toRat) := by
  obtain ⟨bps, hbps⟩ := Rate.exists_toBps hr h₀ h
  obtain ⟨y, hy, hyfin, hyval⟩ := Rate.exists_roundNearest hr h₀ hbps
  have hint := FixedPoint.toInteger_eq hyfin hyval
  simp only [bonusBps, hbps, hy, liftM_ok, ok_bind, hint]

theorem bonusBps_ok {rate : Decimal} {n : ℤ} (hr : rate.isFinite) (h₀ : 0 ≤ rate.toRat)
    (h : bonusBps rate = .ok n) :
    n = Rate.wholeBps rate.toRat ∧ ∃ p bps, Rate.toBps rate = .ok p ∧
      FixedPoint.roundNearest p = .ok bps ∧ bps.isFinite ∧ bps.toRat = Rate.wholeBps rate.toRat := by
  simp only [bonusBps, bind_eq_ok, liftM_eq_ok] at h
  obtain ⟨p, hp, bps, hbps, hn⟩ := h
  obtain ⟨bps', hbps', hfin, hval⟩ := Rate.exists_roundNearest hr h₀ hp
  obtain rfl : bps' = bps := Except.ok.inj (hbps'.symm.trans hbps)
  have hint := FixedPoint.toInteger_eq hfin hval
  exact ⟨Except.ok.inj (hn.symm.trans hint), p, bps', hp, hbps, hfin, hval⟩

/-- Rates within the limits pass the checks of a bonus range. -/
theorem ofBonusRange_of_bonusBps {x y low high : Decimal} {n : ℤ} (hlow : Rate.ofBps x = .ok low)
    (hhigh : Rate.ofBps y = .ok high) (hrange : Rate.IsBonusRange low high)
    (h : bonusBps high = .ok n) : Rate.ofBonusRange x y = .ok (low, high) := by
  obtain ⟨hlowfin, hhighfin, hnonneg, hle, hlimit⟩ := hrange
  obtain ⟨-, p, bps, hp, hbps, hfin, hval⟩ := bonusBps_ok hhighfin (hnonneg.trans hle) h
  have hlimit' : (Rate.wholeBps high.toRat : ℚ) ≤ Rate.maxBonusBps := by exact_mod_cast hlimit
  have hfirst : low.ge .zero = .ok true := by
    rw [Decimal.ge_zero hlowfin, decide_eq_true hnonneg]
  have hsecond : high.ge low = .ok true := by
    rw [Decimal.ge_eq hhighfin hlowfin, decide_eq_true hle]
  have hthird : bps.le (.ofNat Rate.maxBonusBps) = .ok true := by
    rw [Decimal.le_eq hfin (Decimal.isFinite_ofNat _), hval, Decimal.toRat_ofNat,
      decide_eq_true hlimit']
  simp only [Rate.ofBonusRange, Given.read, hlow, hhigh, hfirst, hsecond, hp, hbps, hthird, liftM_ok,
    ok_bind, check_true, pure_eq_ok]

theorem bonusBps_of_whole {rate : Decimal} {n : Nat} (hr : rate.isFinite)
    (hval : rate.toRat = n / Rate.fullBps) (hn : n ≤ Rate.maxBonusBps) :
    bonusBps rate = .ok n := by
  have hbps := Rate.wholeBps_eq hn
  rw [← hval] at hbps
  rw [bonusBps_eq hr (by rw [hval]; positivity) (Rate.lt_of_wholeBps_le (by omega)), hbps]

theorem exists_bonusBps {low high : Decimal} (h : Rate.IsBonusRange low high) :
    ∃ m n : Nat, bonusBps low = .ok m ∧ bonusBps high = .ok n ∧ m ≤ n ∧ n ≤ Rate.maxBonusBps ∧
      (m : ℤ) = Rate.wholeBps low.toRat ∧ (n : ℤ) = Rate.wholeBps high.toRat := by
  have hhigh := Rate.lt_of_wholeBps_le h.high_le
  have hlow : low.toRat * Rate.fullBps < 10 ^ (6 : ℤ) :=
    (mul_le_mul_of_nonneg_right h.low_le_high (Nat.cast_nonneg _)).trans_lt hhigh
  have hm := Rate.wholeBps_nonneg h.low_nonneg
  have hmn := Rate.wholeBps_mono h.low_le_high
  have hn := h.high_le
  refine ⟨(Rate.wholeBps low.toRat).toNat, (Rate.wholeBps high.toRat).toNat, ?_, ?_, by omega,
    by omega, by omega, by omega⟩
  · rw [bonusBps_eq h.low_finite h.low_nonneg hlow, Int.toNat_of_nonneg hm]
  · rw [bonusBps_eq h.high_finite (h.low_nonneg.trans h.low_le_high) hhigh,
      Int.toNat_of_nonneg (hm.trans hmn)]

/-- What a state is made of. -/
structure IsStoredAs (o : Order) (s : SlotState) : Prop where
  conditionType : o.condition.typeId? = some s.conditionType
  opportunityType : o.opportunity.typeId? = some s.opportunityType
  threshold : FixedPoint.encode o.condition.threshold = .ok s.threshold
  parameter : FixedPoint.encode o.opportunity.parameter = .ok s.parameter
  minBonus : bonusBps o.minRate = .ok s.minBonusBps
  maxBonus : bonusBps o.maxRate = .ok s.maxBonusBps
  minBonus_le : s.minBonusBps ≤ Rate.maxBonusBps
  maxBonus_le : s.maxBonusBps ≤ Rate.maxBonusBps

theorem encode_eq_ok : o.encode = .ok s ↔ o.IsStoredAs s := by
  constructor
  · intro h
    unfold encode at h
    cases hc : o.condition.typeId? with
    | none => simp [hc] at h
    | some conditionType =>
      cases hopp : o.opportunity.typeId? with
      | none => simp [hc, hopp] at h
      | some opportunityType =>
        simp only [hc, hopp, bind_eq_ok] at h
        obtain ⟨t, ht, p, hp, min, hmin, max, hmax, h⟩ := h
        obtain ⟨m, n, rfl, rfl, hm, hn, rfl⟩ := SlotState.withBonuses_eq_ok.mp h
        exact ⟨hc, hopp, ht, hp, hmin, hmax, hm, hn⟩
  · intro h
    simp only [encode, h.conditionType, h.opportunityType, h.threshold, h.parameter, h.minBonus,
      h.maxBonus, ok_bind]
    exact SlotState.withBonuses_eq_ok.mpr ⟨_, _, rfl, rfl, h.minBonus_le, h.maxBonus_le, rfl⟩

/-- What a slot says of the order that it holds. -/
structure IsHeldIn (o : Order) (s : SlotState) : Prop where
  conditionType : o.condition.typeId? = some s.conditionType
  opportunityType : o.opportunity.typeId? = some s.opportunityType
  threshold : FixedPoint.decode s.threshold = .ok o.condition.threshold
  parameter : FixedPoint.decode s.parameter = .ok o.opportunity.parameter
  minRate : Rate.ofBps (.ofNat s.minBonusBps) = .ok o.minRate
  maxRate : Rate.ofBps (.ofNat s.maxBonusBps) = .ok o.maxRate

theorem ofState_eq_ok : ofState s = .ok o ↔ o.IsHeldIn s := by
  constructor
  · intro h
    unfold ofState at h
    cases hc : Condition.ofTypeId? s.conditionType with
    | none => simp [hc] at h
    | some condition =>
      cases hopp : Opportunity.ofTypeId? s.opportunityType with
      | none => simp [hc, hopp] at h
      | some make =>
        simp only [hc, hopp, bind_eq_ok, liftM_eq_ok, pure_eq_ok, Except.ok.injEq] at h
        obtain ⟨t, ht, p, hp, opportunity, hmake, min, hmin, max, hmax, rfl⟩ := h
        obtain ⟨hctype, hthreshold⟩ := Condition.typeId?_of_ofTypeId? hc t
        obtain ⟨hotype, hparameter⟩ :=
          Opportunity.typeId?_of_ofTypeId? hopp (FixedPoint.decode_ok hp).1 hmake
        exact ⟨hctype, hotype, by rw [ht, hthreshold], by rw [hp, hparameter], hmin, hmax⟩
  · intro h
    obtain ⟨hcond, -⟩ := Condition.ofTypeId?_typeId? h.conditionType
    obtain ⟨make, hopp, hmake⟩ := Opportunity.ofTypeId?_typeId? h.opportunityType
    simp only [ofState, hcond, hopp, h.threshold, h.parameter, hmake, h.minRate, h.maxRate, liftM_ok,
      ok_bind, pure_eq_ok, Condition.withThreshold_threshold]

theorem decode_eq_some : decode s = .ok (some o) ↔ o.IsHeldIn s := by
  rw [← ofState_eq_ok, decode]
  split_ifs with hempty
  · constructor
    · intro h
      simp at h
    · intro h
      have hid := (Condition.ofTypeId?_typeId? (ofState_eq_ok.mp h).conditionType).2
      exact absurd (by simpa [SlotState.isEmpty] using hempty) hid
  · cases ofState s <;> simp

/-- What an order is read back as. -/
structure IsReadFrom (read o : Order) (s : SlotState) : Prop where
  condition : ∃ t, t.isFinite ∧ t.toRat = FixedPoint.unscaled s.threshold ∧
    read.condition = o.condition.withThreshold t
  opportunity : ∃ p, p.isFinite ∧ p.toRat = FixedPoint.unscaled s.parameter ∧
    read.opportunity = o.opportunity.withParameter p
  minBonus : ∃ bps, Rate.toBps read.minRate = .ok bps ∧ bps.isFinite ∧ bps.toRat = s.minBonusBps
  maxBonus : ∃ bps, Rate.toBps read.maxRate = .ok bps ∧ bps.isFinite ∧ bps.toRat = s.maxBonusBps

theorem parameter_withParameter {o : Opportunity} {n : Nat} {p : Decimal}
    (hn : FixedPoint.encode o.parameter = .ok n) (hp : FixedPoint.decode n = .ok p) :
    FixedPoint.decode n = .ok (o.withParameter p).parameter := by
  cases o with
  | debtAmount | foreign => exact hp
  | allDebt =>
    obtain rfl : FixedPoint.maxEncoded = n := Except.ok.inj (FixedPoint.encode_maxValue.symm.trans hn)
    exact FixedPoint.decode_maxEncoded

theorem exists_decode (h : o.encode = .ok s) : ∃ r, decode s = .ok (some r) ∧ r.IsReadFrom o s := by
  have hs := encode_eq_ok.mp h
  obtain ⟨-, -, hmax⟩ := FixedPoint.encode_ok hs.threshold
  obtain ⟨t, ht, htfin, htval⟩ := FixedPoint.decode_eq hmax
  obtain ⟨-, -, hmax⟩ := FixedPoint.encode_ok hs.parameter
  obtain ⟨p, hp, hpfin, hpval⟩ := FixedPoint.decode_eq hmax
  obtain ⟨min, minBps, hmin, -, -, hminBps, hminFin, hminVal⟩ := Rate.exists_ofBps hs.minBonus_le
  obtain ⟨max, maxBps, hmax, -, -, hmaxBps, hmaxFin, hmaxVal⟩ := Rate.exists_ofBps hs.maxBonus_le
  refine ⟨⟨o.condition.withThreshold t, o.opportunity.withParameter p, min, max⟩,
    decode_eq_some.mpr ⟨?_, ?_, ?_, parameter_withParameter hs.parameter hp, hmin, hmax⟩,
    ⟨t, htfin, htval, rfl⟩, ⟨p, hpfin, hpval, rfl⟩, ⟨minBps, hminBps, hminFin, hminVal⟩,
    ⟨maxBps, hmaxBps, hmaxFin, hmaxVal⟩⟩
  · rw [Condition.typeId?_withThreshold, hs.conditionType]
  · rw [Opportunity.typeId?_withParameter, hs.opportunityType]
  · rw [Condition.threshold_withThreshold, ht]

end Order

end LoanOrders
