import LoanOrders.Proofs.Decoded
import LoanOrders.Proofs.Specification

/-! Orders that are stored and decoded, and decoded and stored again. A slot loses nothing of a
number that has no more digits than it decodes to, so that the first decoding settles the order. -/

namespace LoanOrders

namespace FixedPoint

variable {x : Decimal} {n m : Nat}

/-- A number that a slot has room for, with all of its digits. -/
structure IsLossless (x : Decimal) : Prop where
  finite : x.isFinite
  nonneg : 0 ≤ x.toRat
  lt : x.toRat < 2 ^ 68
  places : FitsPlaces 18 x.toRat

theorem IsLossless.exists_encode (hx : IsLossless x) : ∃ n, encode x = .ok n :=
  exists_encode_of_places hx.finite hx.nonneg hx.lt hx.places

theorem IsLossless.unscaled_eq (hx : IsLossless x) (h : encode x = .ok n) :
    unscaled n = x.toRat := by
  obtain ⟨-, hn, hmax⟩ := encode_ok h
  exact unscaled_eq_of_places hn hmax hx.places

theorem toRat_maxValue : maxValue.toRat = 2 ^ 68 - 1 / 10 ^ 18 := by
  rw [maxValue, Decimal.toRat_finite]
  norm_num [Context.signed]

theorem isLossless_maxValue : IsLossless maxValue := by
  refine ⟨rfl, ?_, ?_, 2 ^ 68 * 10 ^ 18 - 1, ?_⟩ <;> rw [toRat_maxValue] <;> norm_num

theorem toRat_of_decode (hn : n ≤ maxEncoded) (h : decode n = .ok x) : x.toRat = unscaled n := by
  obtain ⟨y, hy, -, hval⟩ := decode_eq hn
  obtain rfl : y = x := Except.ok.inj (hy.symm.trans h)
  exact hval

theorem isLossless_of_decode (hn : n ≤ maxEncoded) (h : decode n = .ok x) : IsLossless x := by
  have hval := toRat_of_decode hn h
  refine ⟨(decode_ok h).1.isFinite, by rw [hval]; exact unscaled_nonneg n, ?_, ?_⟩
  · have hround : nearestEven ((n : ℚ) / scale * 10 ^ decimalPlaces) < 2 ^ 68 * 10 ^ 18 := by
      have hn' : (n : ℚ) ≤ maxEncoded := by exact_mod_cast hn
      have hplaces : (10 : ℚ) ^ decimalPlaces = 10 ^ 18 := rfl
      rw [maxEncoded_eq] at hn'
      rw [nearestEven_lt_iff (by decide), scale_eq, hplaces]
      push_cast
      linarith
    rw [hval, unscaled, div_lt_iff₀ (by positivity)]
    exact_mod_cast hround
  · exact ⟨_, by rw [hval, unscaled]; exact div_mul_cancel₀ _ (by positivity)⟩

theorem decode_of_near {y : Decimal} (hn : n ≤ maxEncoded) (h : decode n = .ok x)
    (hm : encode y = .ok m) (hnear : |y.toRat - x.toRat| ≤ 2 / 10 ^ 20) : decode m = .ok x := by
  obtain ⟨-, hscaled, hmax⟩ := encode_ok hm
  obtain ⟨z, hz, -, hval⟩ := decode_eq hmax
  rw [unscaled_eq_of_near hscaled hmax (isLossless_of_decode hn h).places hnear] at hval
  obtain rfl : z = x := (decode_ok hz).1.eq_of_toRat_eq (decode_ok h).1 hval
  exact hz

/-- Storing a decoded number again moves the encoding by one at most. -/
theorem exists_encode_of_decode (hn : n ≤ maxEncoded) (h : decode n = .ok x) :
    ∃ m, encode x = .ok m ∧ m ≤ n + 1 ∧ n ≤ m + 1 ∧ decode m = .ok x := by
  obtain ⟨m, hm⟩ := (isLossless_of_decode hn h).exists_encode
  obtain ⟨-, hscaled, hmax⟩ := encode_ok hm
  have hstore := abs_le.mp (abs_natCast_sub_le hscaled hmax)
  have hread := abs_le.mp (abs_unscaled_sub_div_le n)
  rw [← toRat_of_decode hn h] at hread
  rw [scale_eq] at hstore hread
  have hup : (m : ℚ) < n + 2 := by linarith
  have hdown : (n : ℚ) < m + 2 := by linarith
  exact ⟨m, hm, Nat.le_of_lt_succ (by exact_mod_cast hup), Nat.le_of_lt_succ (by exact_mod_cast hdown),
    decode_of_near hn h hm (by rw [sub_self, abs_zero]; positivity)⟩

/-- A number of more than 128 bits is not decoded to one that a slot has room for. -/
theorem le_maxEncoded_of_decode (h : decode n = .ok x) (hx : x.toRat < 2 ^ 68) :
    n ≤ maxEncoded := by
  by_contra! hn
  have hpow : (2 ^ 128 : ℚ) ≤ n := by
    have : 2 ^ 128 ≤ n := hn
    exact_mod_cast this
  have hself : Context.wide.rounded (2 ^ 68) = 2 ^ 68 := by
    have hfits := Context.rounded_eq_self_of_lt (c := Context.wide) (n := 2 ^ 68) (k := 0)
      (by decide) (by decide)
    norm_num at hfits ⊢
    exact hfits
  have hmono : (2 ^ 68 : ℚ) ≤ Context.wide.rounded (n / scale) := by
    rw [← hself, scale_eq]
    exact Context.rounded_mono (by linarith)
  have hplaces : (10 : ℚ) ^ decimalPlaces = 10 ^ 18 := rfl
  have hround : 2 ^ 68 * 10 ^ 18 ≤ nearestEven (Context.wide.rounded (n / scale) * 10 ^ 18) := by
    apply le_nearestEven_of_le
    push_cast
    linarith
  rw [(decode_ok h).2.1, hplaces, div_lt_iff₀ (by positivity)] at hx
  exact absurd (by exact_mod_cast hx) (not_lt.mpr hround)

theorem decode_eq_maxValue : decode n = .ok maxValue ↔ n = maxEncoded := by
  constructor
  · intro h
    have hn := le_maxEncoded_of_decode h isLossless_maxValue.lt
    have hread := abs_le.mp (abs_unscaled_sub_div_le n)
    rw [← toRat_of_decode hn h, toRat_maxValue, scale_eq] at hread
    have hlow : (maxEncoded : ℚ) < n + 1 := by
      rw [maxEncoded_eq]
      linarith
    exact le_antisymm hn (Nat.le_of_lt_succ (by exact_mod_cast hlow))
  · rintro rfl
    exact decode_maxEncoded

end FixedPoint

namespace Order

variable {o : Order} {s : SlotState}

/-- An order that a slot has room for, with all digits of its numbers. -/
structure IsLossless (o : Order) : Prop where
  condition : ∀ name t, o.condition ≠ .foreign name t
  threshold : FixedPoint.IsLossless o.condition.threshold
  opportunity : o.opportunity = .allDebt ∨
    ∃ amount, FixedPoint.IsLossless amount ∧ o.opportunity = .debtAmount amount
  minRate : o.minRate.isFinite ∧ ∃ n ≤ Rate.maxBonusBps, o.minRate.toRat = n / Rate.fullBps
  maxRate : o.maxRate.isFinite ∧ ∃ n ≤ Rate.maxBonusBps, o.maxRate.toRat = n / Rate.fullBps

/-- Orders that differ at most in how their numbers are written. -/
structure Same (o r : Order) : Prop where
  condition : ∃ t, r.condition = o.condition.withThreshold t ∧
    Decimal.Related Eq o.condition.threshold t
  opportunity : ∃ p, r.opportunity = o.opportunity.withParameter p ∧
    Decimal.Related Eq o.opportunity.parameter p
  minRate : Decimal.Related Eq o.minRate r.minRate
  maxRate : Decimal.Related Eq o.maxRate r.maxRate

theorem IsLossless.parameter (h : o.IsLossless) : FixedPoint.IsLossless o.opportunity.parameter := by
  rcases h.opportunity with hopp | ⟨amount, hamount, hopp⟩
  · rw [hopp]
    exact FixedPoint.isLossless_maxValue
  · rw [hopp]
    exact hamount

theorem IsLossless.exists_encode (h : o.IsLossless) : ∃ s, o.encode = .ok s ∧
    o.minRate.toRat = s.minBonusBps / Rate.fullBps ∧
    o.maxRate.toRat = s.maxBonusBps / Rate.fullBps := by
  obtain ⟨conditionType, hc⟩ : ∃ id, o.condition.typeId? = some id := by
    have hforeign := h.condition
    cases hcond : o.condition with
    | foreign name t => exact absurd hcond (hforeign name t)
    | _ => exact ⟨_, rfl⟩
  obtain ⟨opportunityType, hopp⟩ : ∃ id, o.opportunity.typeId? = some id := by
    rcases h.opportunity with hopp | ⟨amount, -, hopp⟩ <;> exact ⟨_, by rw [hopp]; rfl⟩
  obtain ⟨threshold, hthreshold⟩ := h.threshold.exists_encode
  obtain ⟨parameter, hparameter⟩ := h.parameter.exists_encode
  obtain ⟨min, hminLe, hmin⟩ := h.minRate.2
  obtain ⟨max, hmaxLe, hmax⟩ := h.maxRate.2
  exact ⟨⟨conditionType, threshold, opportunityType, parameter, min, max⟩,
    encode_eq_ok.mpr ⟨hc, hopp, hthreshold, hparameter, bonusBps_of_whole h.minRate.1 hmin hminLe,
      bonusBps_of_whole h.maxRate.1 hmax hmaxLe, hminLe, hmaxLe⟩, hmin, hmax⟩

/-- A slot with room for all digits of an order loses nothing of it. -/
theorem decode_encode (h : o.IsLossless) :
    ∃ s r, o.encode = .ok s ∧ decode s = .ok (some r) ∧ o.Same r := by
  obtain ⟨s, hs, hmin, hmax⟩ := h.exists_encode
  have hstored := encode_eq_ok.mp hs
  obtain ⟨r, hr, hread⟩ := exists_decode hs
  have hdecoded := isDecoded_of_decode hstored.minBonus_le hstored.maxBonus_le hr
  obtain ⟨t, htfin, htval, hcond⟩ := hread.condition
  obtain ⟨p, hpfin, hpval, hopp⟩ := hread.opportunity
  refine ⟨s, r, hs, hr, ⟨t, hcond, h.threshold.finite, htfin, ?_⟩,
    ⟨p, hopp, h.parameter.finite, hpfin, ?_⟩, ⟨h.minRate.1, hdecoded.minRate.1, ?_⟩,
    ⟨h.maxRate.1, hdecoded.maxRate.1, ?_⟩⟩
  · rw [htval, h.threshold.unscaled_eq hstored.threshold]
  · rw [hpval, h.parameter.unscaled_eq hstored.parameter]
  · rw [hmin, hdecoded.minRate.2]
  · rw [hmax, hdecoded.maxRate.2]

/-- The largest threshold with a zero too many, an amount that leaves its zeros to the exponent, and
no bonus at all up to the largest one. -/
def unevenlyWritten : Order where
  condition := .priceRatioBelow (.finite false 2951479051793528258559999999999999999990 (-19))
  opportunity := .debtAmount (.finite false 12 3)
  minRate := .finite true 0 (-4)
  maxRate := .finite false 655350 (-5)

theorem isLossless_unevenlyWritten : unevenlyWritten.IsLossless := by
  have hthreshold : unevenlyWritten.condition.threshold.toRat = FixedPoint.maxValue.toRat := by
    rw [FixedPoint.toRat_maxValue, unevenlyWritten, Condition.threshold, Decimal.toRat_finite]
    norm_num [Context.signed]
  obtain ⟨-, hnonneg, hlt, hplaces⟩ := FixedPoint.isLossless_maxValue
  rw [← hthreshold] at hnonneg hlt hplaces
  have hamount : FixedPoint.IsLossless (.finite false 12 3) := by
    have hval : (Decimal.finite false 12 3).toRat = 12000 := by
      rw [Decimal.toRat_finite]
      norm_num [Context.signed]
    refine ⟨rfl, ?_, ?_, 12000 * 10 ^ 18, ?_⟩ <;> rw [hval] <;> norm_num
  refine ⟨fun _ _ => Condition.noConfusion, ⟨rfl, hnonneg, hlt, hplaces⟩, .inr ⟨_, hamount, rfl⟩,
    ⟨rfl, 0, by decide, ?_⟩, ⟨rfl, 65535, by decide, ?_⟩⟩
  · rw [unevenlyWritten, Decimal.toRat_finite]
    norm_num [Context.signed]
  · rw [unevenlyWritten, Decimal.toRat_finite]
    norm_num [Context.signed, Rate.fullBps]

theorem decode_encode_unevenlyWritten : unevenlyWritten.IsLossless ∧
    unevenlyWritten.encode =
      .ok ⟨4, FixedPoint.maxEncoded, 0, 12000 * FixedPoint.scale, 0, 65535⟩ ∧
    ∃ r, decode ⟨4, FixedPoint.maxEncoded, 0, 12000 * FixedPoint.scale, 0, 65535⟩ = .ok (some r) ∧
      unevenlyWritten.Same r := by
  have hstate : unevenlyWritten.encode =
      .ok ⟨4, FixedPoint.maxEncoded, 0, 12000 * FixedPoint.scale, 0, 65535⟩ := by decide +kernel
  obtain ⟨s, r, hs, hr, hsame⟩ := decode_encode isLossless_unevenlyWritten
  obtain rfl := Except.ok.inj (hstate.symm.trans hs)
  exact ⟨isLossless_unevenlyWritten, hstate, r, hr, hsame⟩

end Order

namespace SlotState

/-- A state with numbers within the limits of a slot. -/
structure IsBounded (s : SlotState) : Prop where
  threshold : s.threshold ≤ FixedPoint.maxEncoded
  parameter : s.parameter ≤ FixedPoint.maxEncoded
  minBonus : s.minBonusBps ≤ Rate.maxBonusBps
  maxBonus : s.maxBonusBps ≤ Rate.maxBonusBps

/-- States that differ by one unit of the encoding at most. -/
structure IsNear (s t : SlotState) : Prop where
  conditionType : t.conditionType = s.conditionType
  opportunityType : t.opportunityType = s.opportunityType
  threshold : t.threshold ≤ s.threshold + 1 ∧ s.threshold ≤ t.threshold + 1
  parameter : t.parameter ≤ s.parameter + 1 ∧ s.parameter ≤ t.parameter + 1
  minBonus : t.minBonusBps = s.minBonusBps
  maxBonus : t.maxBonusBps = s.maxBonusBps

end SlotState

namespace Order

variable {o : Order} {s : SlotState}

theorem IsStoredAs.isBounded (h : o.IsStoredAs s) : s.IsBounded := by
  obtain ⟨-, -, hthreshold⟩ := FixedPoint.encode_ok h.threshold
  obtain ⟨-, -, hparameter⟩ := FixedPoint.encode_ok h.parameter
  exact ⟨hthreshold, hparameter, h.minBonus_le, h.maxBonus_le⟩

theorem IsHeldIn.parameter_of_allDebt (h : o.IsHeldIn s) (htype : s.opportunityType = 1) :
    s.parameter = FixedPoint.maxEncoded := by
  have hopp := h.opportunityType
  have hparameter := h.parameter
  rw [htype] at hopp
  cases ho : o.opportunity with
  | allDebt =>
    rw [ho] at hparameter
    exact FixedPoint.decode_eq_maxValue.mp hparameter
  | debtAmount | foreign => simp [ho, Opportunity.typeId?] at hopp

/-- An order that a slot does not tell from the one that it holds is stored as a state that holds
this one too. -/
theorem IsHeldIn.exists_isStoredAs_of_near {r : Order} {y : Decimal} {n : Nat} (hs : o.IsHeldIn s)
    (hbounded : s.IsBounded) (hcondition : r.condition = o.condition.withThreshold y)
    (hn : FixedPoint.encode y = .ok n)
    (hnear : |y.toRat - o.condition.threshold.toRat| ≤ 2 / 10 ^ 20)
    (hopportunity : r.opportunity = o.opportunity)
    (hmin : r.minRate.isFinite ∧ r.minRate.toRat = s.minBonusBps / Rate.fullBps)
    (hmax : r.maxRate.isFinite ∧ r.maxRate.toRat = s.maxBonusBps / Rate.fullBps) :
    ∃ p, p ≤ s.parameter + 1 ∧ s.parameter ≤ p + 1 ∧
      r.IsStoredAs { s with threshold := n, parameter := p } ∧
      o.IsHeldIn { s with threshold := n, parameter := p } := by
  obtain ⟨p, hp, hple, hpge, hpread⟩ :=
    FixedPoint.exists_encode_of_decode hbounded.parameter hs.parameter
  refine ⟨p, hple, hpge, ⟨?_, ?_, ?_, ?_, bonusBps_of_whole hmin.1 hmin.2 hbounded.minBonus,
    bonusBps_of_whole hmax.1 hmax.2 hbounded.maxBonus, hbounded.minBonus, hbounded.maxBonus⟩,
    ⟨hs.conditionType, hs.opportunityType,
      FixedPoint.decode_of_near hbounded.threshold hs.threshold hn hnear, hpread, hs.minRate,
      hs.maxRate⟩⟩
  · rw [hcondition, Condition.typeId?_withThreshold, hs.conditionType]
  · rw [hopportunity, hs.opportunityType]
  · rw [hcondition, Condition.threshold_withThreshold, hn]
  · rw [hopportunity, hp]

theorem IsHeldIn.exists_isStoredAs (hs : o.IsHeldIn s) (hbounded : s.IsBounded) :
    ∃ t, o.IsStoredAs t ∧ o.IsHeldIn t ∧ s.IsNear t := by
  have hdecoded := isDecoded_of_decode hbounded.minBonus hbounded.maxBonus (decode_eq_some.mpr hs)
  obtain ⟨n, hn, hle, hge, -⟩ := FixedPoint.exists_encode_of_decode hbounded.threshold hs.threshold
  obtain ⟨p, hple, hpge, hstored, hheld⟩ := hs.exists_isStoredAs_of_near hbounded
    (Condition.withThreshold_threshold _).symm hn (by rw [sub_self, abs_zero]; positivity) rfl
    hdecoded.minRate hdecoded.maxRate
  exact ⟨_, hstored, hheld, rfl, rfl, ⟨hle, hge⟩, ⟨hple, hpge⟩, rfl, rfl⟩

/-- A decoded order can be stored again, and is then decoded as it was. -/
theorem encode_decode (hbounded : s.IsBounded) (h : decode s = .ok (some o)) :
    ∃ t, o.encode = .ok t ∧ s.IsNear t ∧ decode t = .ok (some o) ∧
      (s.opportunityType = 1 →
        s.parameter = FixedPoint.maxEncoded ∧ t.parameter = FixedPoint.maxEncoded) := by
  have hs := decode_eq_some.mp h
  obtain ⟨t, hstored, ht, hnear⟩ := hs.exists_isStoredAs hbounded
  refine ⟨t, encode_eq_ok.mpr hstored, hnear, decode_eq_some.mpr ht, fun htype => ?_⟩
  exact ⟨hs.parameter_of_allDebt htype, ht.parameter_of_allDebt (hnear.opportunityType.trans htype)⟩

/-- Of the neighbouring encodings three and four, both of which are read as `3E-18`, the first is
stored again. -/
theorem encode_decode_four :
    decode ⟨3, 4, 1, FixedPoint.maxEncoded, 50, 100⟩ = .ok (some ⟨.priceRatioAbove
      (.finite false 3 (-18)), .allDebt, .finite false 5 (-3), .finite false 1 (-2)⟩) ∧
    SlotState.IsNear ⟨3, 4, 1, FixedPoint.maxEncoded, 50, 100⟩
      ⟨3, 3, 1, FixedPoint.maxEncoded, 50, 100⟩ ∧
    decode ⟨3, 3, 1, FixedPoint.maxEncoded, 50, 100⟩ = .ok (some ⟨.priceRatioAbove
      (.finite false 3 (-18)), .allDebt, .finite false 5 (-3), .finite false 1 (-2)⟩) := by
  have hread : decode ⟨3, 4, 1, FixedPoint.maxEncoded, 50, 100⟩ = .ok (some ⟨.priceRatioAbove
      (.finite false 3 (-18)), .allDebt, .finite false 5 (-3), .finite false 1 (-2)⟩) := by
    decide +kernel
  obtain ⟨t, ht, hnear, hback, -⟩ :=
    encode_decode ⟨by decide, le_rfl, by decide, by decide⟩ hread
  obtain rfl : ⟨3, 3, 1, FixedPoint.maxEncoded, 50, 100⟩ = t :=
    Except.ok.inj ((by decide +kernel : _ = Except.ok _).symm.trans ht)
  exact ⟨hread, hnear, hback⟩

end Order

end LoanOrders
