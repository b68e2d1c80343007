import LoanOrders.Proofs.Restored

/-! What becomes of each state that is decoded, also of one with numbers of more than 128 bits. Some
of these are decoded all the same, to orders that cannot be stored again. -/

namespace LoanOrders

namespace FixedPoint

variable {x : Decimal} {n : Nat}

/-- A number that has at most 80 digits when it is rounded to 18 decimal places. -/
def IsDecodable (n : Nat) : Prop := 2 * 10 ^ 18 * n + 2 ^ 60 < 2 * 10 ^ 80 * 2 ^ 60

instance : Decidable (IsDecodable n) := Nat.decLt _ _

theorem isDecodable_iff : IsDecodable n ↔ Context.wide.rounded (n / scale) < 10 ^ (62 : ℤ) := by
  have hround := Context.rounded_lt_iff (c := Context.wide) (q := n / scale) (n := 10 ^ 80)
    (k := -18) (by decide) (by decide) (by norm_num [Context.wide]) (by norm_num [Context.wide])
  have hpow : ((10 ^ 80 : ℤ) : ℚ) * 10 ^ (-18 : ℤ) = 10 ^ (62 : ℤ) := by norm_num
  have hcast : IsDecodable n ↔ (2 * 10 ^ 18 * n + 2 ^ 60 : ℚ) < 2 * 10 ^ 80 * 2 ^ 60 := by
    rw [IsDecodable]
    exact_mod_cast Iff.rfl
  rw [← hpow, hround, hcast, scale_eq, div_lt_iff₀ (by positivity)]
  push_cast
  constructor <;> intro h <;> linarith

theorem exists_decode_iff : (∃ x, decode n = .ok x) ↔ IsDecodable n := by
  rw [isDecodable_iff]
  refine ⟨fun ⟨x, hx⟩ => ?_, exists_decode⟩
  obtain ⟨-, hval, hlt⟩ := decode_ok hx
  by_contra! hlarge
  have hplaces : (10 : ℚ) ^ decimalPlaces = 10 ^ 18 := rfl
  have hround : 10 ^ 80 ≤ nearestEven (Context.wide.rounded (n / scale) * 10 ^ 18) := by
    apply le_nearestEven_of_le
    norm_num at hlarge ⊢
    linarith
  have hround' : (10 ^ 80 : ℚ) ≤ nearestEven (Context.wide.rounded (n / scale) * 10 ^ 18) := by
    exact_mod_cast hround
  rw [hval, hplaces, div_lt_iff₀ (by positivity)] at hlt
  norm_num at hlt hround'
  linarith

theorem isDecodable_of_le (h : n ≤ maxEncoded) : IsDecodable n :=
  have ⟨x, hx, _⟩ := decode_eq h
  exists_decode_iff.mp ⟨x, hx⟩

/-- A decoded number is stored again if it was given in 128 bits, and is refused otherwise. -/
theorem encode_of_decode (h : decode n = .ok x) :
    n ≤ maxEncoded ∧ (∃ m, encode x = .ok m) ∨
      maxEncoded < n ∧ encode x = .error (.notFraction x.text) := by
  rcases Nat.lt_or_ge maxEncoded n with hlarge | hsmall
  · have hx := isSlotNumber_of_decode h
    have hnonneg := hx.nonneg
    have hsize : |x.toRat * (Decimal.ofNat scale).toRat| < 10 ^ Context.maxExponent := by
      have hscale : (scale : ℚ) < 10 ^ (19 : ℤ) := by norm_num [scale, fractionBits]
      rw [Decimal.toRat_ofNat, abs_of_nonneg (by positivity)]
      calc x.toRat * scale < 10 ^ (62 : ℤ) * 10 ^ (19 : ℤ) :=
            mul_lt_mul'' hx.lt hscale hnonneg (by positivity)
        _ ≤ 10 ^ Context.maxExponent := by
            rw [← zpow_add₀ (by norm_num)]
            exact ten_zpow_le (by decide)
    obtain ⟨p, hp⟩ := Context.exists_mul (c := Context.wide) hx.finite
      (Decimal.isFinite_ofNat scale) hsize
    refine .inr ⟨hlarge, ?_⟩
    rw [encode_eq hp hx.finite, if_pos]
    right
    by_contra! hle
    rw [scaled_le_iff] at hle
    exact absurd (le_maxEncoded_of_decode h (by linarith)) (not_le.mpr hlarge)
  · obtain ⟨m, hm, -⟩ := exists_encode_of_decode hsmall h
    exact .inl ⟨hsmall, m, hm⟩

end FixedPoint

namespace Condition

theorem isSome_ofTypeId? {id : Nat} : (ofTypeId? id).isSome ↔ 1 ≤ id ∧ id ≤ 4 := by
  rcases id with _ | _ | _ | _ | _ | id <;> simp [ofTypeId?]

end Condition

namespace Opportunity

theorem isSome_ofTypeId? {id : Nat} : (ofTypeId? id).isSome ↔ id ≤ 1 := by
  rcases id with _ | _ | id <;> simp [ofTypeId?]

end Opportunity

namespace SlotState

/-- A state with the ids of a condition and of an opportunity that there are. -/
structure HasKnownTypes (s : SlotState) : Prop where
  condition : 1 ≤ s.conditionType ∧ s.conditionType ≤ 4
  opportunity : s.opportunityType ≤ 1

def IsDecodable (s : SlotState) : Prop :=
  FixedPoint.IsDecodable s.threshold ∧ FixedPoint.IsDecodable s.parameter

end SlotState

namespace Order

variable {o : Order} {s : SlotState} {condition : Decimal → Condition}
  {make : Decimal → Result Opportunity}

/-- What decoding a state comes to. -/
inductive Outcome (s : SlotState) : Result (Option Order) → Prop
  | empty (hempty : s.conditionType = 0) : Outcome s (.ok none)
  | unknown {e : Error} (hempty : s.conditionType ≠ 0) (htypes : ¬s.HasKnownTypes)
      (hkind : e.kind = .validation) : Outcome s (.error e)
  | undecodable {signal : Signal} (htypes : s.HasKnownTypes) (hnumbers : ¬s.IsDecodable) :
      Outcome s (.error (.signal signal))
  | otherDebt {p : Decimal} (htypes : s.HasKnownTypes) (hnumbers : s.IsDecodable)
      (hall : s.opportunityType = 1) (hdebt : s.parameter ≠ FixedPoint.maxEncoded) :
      Outcome s (.error (.allDebtParameter p FixedPoint.maxValue))
  | held {o : Order} (htypes : s.HasKnownTypes) (hnumbers : s.IsDecodable)
      (hdebt : s.opportunityType = 1 → s.parameter = FixedPoint.maxEncoded) :
      Outcome s (.ok (some o))

section Known

variable (hc : Condition.ofTypeId? s.conditionType = some condition)
  (hopp : Opportunity.ofTypeId? s.opportunityType = some make)
include hc hopp

theorem exists_signal_of_not_isDecodable (h : ¬s.IsDecodable) :
    ∃ signal, ofState s = .error (.signal signal) := by
  cases ht : FixedPoint.decode s.threshold with
  | error signal => exact ⟨signal, by simp [ofState, hc, hopp, ht]⟩
  | ok t =>
    cases hp : FixedPoint.decode s.parameter with
    | error signal => exact ⟨signal, by simp [ofState, hc, hopp, ht, hp]⟩
    | ok p =>
      exact absurd ⟨FixedPoint.exists_decode_iff.mp ⟨t, ht⟩, FixedPoint.exists_decode_iff.mp ⟨p, hp⟩⟩ h

/-- Apart from its numbers, only the parameter for all debt can keep an order from being decoded. -/
theorem exists_ofState_eq (h : s.IsDecodable) (hmin : s.minBonusBps ≤ Rate.maxBonusBps)
    (hmax : s.maxBonusBps ≤ Rate.maxBonusBps) :
    ∃ t p min max, FixedPoint.decode s.parameter = .ok p ∧
      ofState s = make p >>= fun opportunity => .ok ⟨condition t, opportunity, min, max⟩ := by
  obtain ⟨t, ht⟩ := FixedPoint.exists_decode_iff.mpr h.1
  obtain ⟨p, hp⟩ := FixedPoint.exists_decode_iff.mpr h.2
  obtain ⟨min, -, hmin, -⟩ := Rate.exists_ofBps hmin
  obtain ⟨max, -, hmax, -⟩ := Rate.exists_ofBps hmax
  refine ⟨t, p, min, max, hp, ?_⟩
  simp only [ofState, hc, hopp, ht, hp, hmin, hmax, liftM_ok, ok_bind, pure_eq_ok]

theorem outcome_of_known (hmin : s.minBonusBps ≤ Rate.maxBonusBps)
    (hmax : s.maxBonusBps ≤ Rate.maxBonusBps) : Outcome s (some <$> ofState s) := by
  have htypes : s.HasKnownTypes := ⟨Condition.isSome_ofTypeId?.mp (by rw [hc]; rfl),
    Opportunity.isSome_ofTypeId?.mp (by rw [hopp]; rfl)⟩
  by_cases hnumbers : s.IsDecodable
  · obtain ⟨t, p, min, max, hp, heq⟩ := exists_ofState_eq hc hopp hnumbers hmin hmax
    rw [heq]
    rcases Nat.le_one_iff_eq_zero_or_eq_one.mp htypes.opportunity with hsome | hall
    · rw [hsome] at hopp
      obtain rfl := Option.some.inj hopp
      exact .held htypes hnumbers (by omega)
    · rw [hall] at hopp
      obtain rfl := Option.some.inj hopp
      rw [Opportunity.ofAllDebtParameter_eq (FixedPoint.decode_ok hp).1]
      split_ifs with hwritten
      · subst hwritten
        exact .held htypes hnumbers fun _ => FixedPoint.decode_eq_maxValue.mp hp
      · refine .otherDebt htypes hnumbers hall fun hparameter => hwritten ?_
        rw [hparameter, FixedPoint.decode_maxEncoded] at hp
        exact (Except.ok.inj hp).symm
  · obtain ⟨signal, hfail⟩ := exists_signal_of_not_isDecodable hc hopp hnumbers
    rw [hfail]
    exact .undecodable htypes hnumbers

end Known

theorem outcome_decode (hmin : s.minBonusBps ≤ Rate.maxBonusBps)
    (hmax : s.maxBonusBps ≤ Rate.maxBonusBps) : Outcome s (decode s) := by
  by_cases hempty : s.conditionType = 0
  · have hnone : decode s = .ok none := by simp [decode, SlotState.isEmpty, hempty]
    rw [hnone]
    exact .empty hempty
  have hsome : decode s = some <$> ofState s := by simp [decode, SlotState.isEmpty, hempty]
  rw [hsome]
  cases hc : Condition.ofTypeId? s.conditionType with
  | none =>
    have hfail : ofState s = .error (.unknownConditionId s.conditionType) := by simp [ofState, hc]
    have hunknown : ¬s.HasKnownTypes := fun htypes => by
      simpa [hc] using Condition.isSome_ofTypeId?.mpr htypes.condition
    rw [hfail]
    exact .unknown hempty hunknown rfl
  | some condition =>
    cases hopp : Opportunity.ofTypeId? s.opportunityType with
    | none =>
      have hfail : ofState s = .error (.unknownOpportunityId s.opportunityType) := by
        simp [ofState, hc, hopp]
      have hunknown : ¬s.HasKnownTypes := fun htypes => by
        simpa [hopp] using Opportunity.isSome_ofTypeId?.mpr htypes.opportunity
      rw [hfail]
      exact .unknown hempty hunknown rfl
    | some make => exact outcome_of_known hc hopp hmin hmax

/-- A decoded order is stored again unless one of its numbers was given in more than 128 bits. -/
theorem IsHeldIn.encode_cases (hs : o.IsHeldIn s) (hmin : s.minBonusBps ≤ Rate.maxBonusBps)
    (hmax : s.maxBonusBps ≤ Rate.maxBonusBps) :
    (s.threshold ≤ FixedPoint.maxEncoded ∧ s.parameter ≤ FixedPoint.maxEncoded ∧
        ∃ t, o.encode = .ok t) ∨
      ((FixedPoint.maxEncoded < s.threshold ∨ FixedPoint.maxEncoded < s.parameter) ∧
        ∃ shown, o.encode = .error (.notFraction shown)) := by
  rcases FixedPoint.encode_of_decode hs.threshold with ⟨hthreshold, t, ht⟩ | ⟨hlarge, hfail⟩
  · rcases FixedPoint.encode_of_decode hs.parameter with ⟨hparameter, -⟩ | ⟨hlarge, hfail⟩
    · obtain ⟨state, hstored, -⟩ := hs.exists_isStoredAs ⟨hthreshold, hparameter, hmin, hmax⟩
      exact .inl ⟨hthreshold, hparameter, state, encode_eq_ok.mpr hstored⟩
    · refine .inr ⟨.inr hlarge, o.opportunity.parameter.text, ?_⟩
      simp only [encode, hs.conditionType, hs.opportunityType, ht, hfail, ok_bind, error_bind]
  · refine .inr ⟨.inl hlarge, o.condition.threshold.text, ?_⟩
    simp only [encode, hs.conditionType, hs.opportunityType, hfail, error_bind]

/-- Which states are decoded, why any other is refused, and which of the decoded orders can be stored
again. -/
theorem decode_iff (hmin : s.minBonusBps ≤ Rate.maxBonusBps)
    (hmax : s.maxBonusBps ≤ Rate.maxBonusBps) :
    (decode s = .ok none ↔ s.conditionType = 0) ∧
    ((∃ o, decode s = .ok (some o)) ↔ s.HasKnownTypes ∧ s.IsDecodable ∧
      (s.opportunityType = 1 → s.parameter = FixedPoint.maxEncoded)) ∧
    ((∃ e, decode s = .error e ∧ e.kind = .validation) ↔ s.conditionType ≠ 0 ∧
      (¬s.HasKnownTypes ∨
        s.IsDecodable ∧ s.opportunityType = 1 ∧ s.parameter ≠ FixedPoint.maxEncoded)) ∧
    ((∃ signal, decode s = .error (.signal signal)) ↔ s.HasKnownTypes ∧ ¬s.IsDecodable) ∧
    (s.threshold ≤ FixedPoint.maxEncoded → s.parameter ≤ FixedPoint.maxEncoded → s.IsDecodable) ∧
    ∀ o, decode s = .ok (some o) →
      (s.threshold ≤ FixedPoint.maxEncoded ∧ s.parameter ≤ FixedPoint.maxEncoded ∧
        ∃ t, o.encode = .ok t) ∨
      ((FixedPoint.maxEncoded < s.threshold ∨ FixedPoint.maxEncoded < s.parameter) ∧
        ∃ shown, o.encode = .error (.notFraction shown)) := by
  have hheld : ∀ o, decode s = .ok (some o) → _ := fun o h =>
    (decode_eq_some.mp h).encode_cases hmin hmax
  have hempty (htypes : s.HasKnownTypes) : s.conditionType ≠ 0 := by
    have := htypes.condition
    omega
  have hsmall : s.threshold ≤ FixedPoint.maxEncoded → s.parameter ≤ FixedPoint.maxEncoded →
      s.IsDecodable := fun ht hp => ⟨FixedPoint.isDecodable_of_le ht, FixedPoint.isDecodable_of_le hp⟩
  have houtcome := outcome_decode hmin hmax
  generalize decode s = result at houtcome hheld ⊢
  cases houtcome with
  | empty hnone =>
    have htypes : ¬s.HasKnownTypes := fun htypes => hempty htypes hnone
    refine ⟨?_, ?_, ?_, ?_, hsmall, hheld⟩ <;> simp [hnone, htypes]
  | unknown hsome htypes hkind =>
    refine ⟨?_, ?_, ?_, ?_, hsmall, hheld⟩
    · simp [hsome]
    · simp [htypes]
    · simp [hsome, htypes, hkind]
    · simp only [htypes, false_and, iff_false]
      rintro ⟨signal, heq⟩
      rw [Except.error.inj heq] at hkind
      cases hkind
  | undecodable htypes hnumbers =>
    refine ⟨?_, ?_, ?_, ?_, hsmall, hheld⟩ <;> simp [hempty htypes, htypes, hnumbers, Error.kind]
  | otherDebt htypes hnumbers hall hdebt =>
    refine ⟨?_, ?_, ?_, ?_, hsmall, hheld⟩ <;>
      simp [hempty htypes, htypes, hnumbers, hall, hdebt, Error.kind]
  | held htypes hnumbers hdebt =>
    refine ⟨?_, ?_, ?_, ?_, hsmall, hheld⟩
    · simp [hempty htypes]
    · simp only [htypes, hnumbers, true_and, Except.ok.injEq, Option.some.injEq, exists_eq',
        true_iff]
      exact hdebt
    · simp only [hempty htypes, htypes, hnumbers, reduceCtorEq, not_true_eq_false, false_and,
        exists_false, false_or, true_and, ne_eq, not_false_eq_true, false_iff]
      exact fun ⟨hall, hother⟩ => hother (hdebt hall)
    · simp [htypes, hnumbers]

/-- A threshold of `2 ^ 68`, one unit above what a slot stores, is decoded nevertheless. -/
theorem decode_iff_wide : ∃ o, decode ⟨3, 2 ^ 128, 1, FixedPoint.maxEncoded, 50, 200⟩ = .ok (some o) ∧
    ∃ shown, o.encode = .error (.notFraction shown) := by
  obtain ⟨-, hsome, -, -, -, hencode⟩ :=
    decode_iff (s := ⟨3, 2 ^ 128, 1, FixedPoint.maxEncoded, 50, 200⟩) (by decide) (by decide)
  obtain ⟨o, ho⟩ := hsome.mpr ⟨⟨by decide, by decide⟩, ⟨by decide, by decide⟩, fun _ => rfl⟩
  rcases hencode o ho with ⟨hle, -⟩ | ⟨-, hfail⟩
  · exact absurd hle (by decide)
  · exact ⟨o, ho, hfail⟩

/-- A state with known types whose order cannot be stored again, and one that is not decoded at all
for its number of digits. -/
theorem encode_of_wide :
    decode ⟨1, 2 ^ 128, 0, 0, 50, 200⟩ = .ok (some ⟨.ltvAbove (.ofNat (2 ^ 68)), .debtAmount .zero,
      .finite false 5 (-3), .finite false 2 (-2)⟩) ∧
    encode ⟨.ltvAbove (.ofNat (2 ^ 68)), .debtAmount .zero, .finite false 5 (-3),
      .finite false 2 (-2)⟩ = .error (.notFraction "295147905179352825856") ∧
    decode ⟨1, 10 ^ 82, 0, 0, 50, 200⟩ = .error (.signal .invalidOperation) := by
  refine ⟨?_, ?_, ?_⟩ <;> decide +kernel

end Order

end LoanOrders
