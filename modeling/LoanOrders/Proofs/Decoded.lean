import LoanOrders.Proofs.Order

/-! What an order holds that was decoded from a slot, whichever numbers the slot has: multiples of
the last decimal place of a slot, and rates of whole basis points. -/

namespace LoanOrders

namespace FixedPoint

variable {x : Decimal} {n : Nat}

/-- A number that a slot can be decoded to. -/
structure IsSlotNumber (x : Decimal) : Prop where
  finite : x.isFinite
  places : ∃ k : Nat, k < 10 ^ 80 ∧ x.toRat = k / 10 ^ 18

theorem IsSlotNumber.nonneg (hx : IsSlotNumber x) : 0 ≤ x.toRat := by
  obtain ⟨k, -, hk⟩ := hx.places
  rw [hk]
  positivity

theorem IsSlotNumber.lt (hx : IsSlotNumber x) : x.toRat < 10 ^ (62 : ℤ) := by
  obtain ⟨k, hlt, hk⟩ := hx.places
  have hlt' : (k : ℚ) < 10 ^ 80 := by exact_mod_cast hlt
  rw [hk, div_lt_iff₀ (by positivity)]
  norm_num at hlt' ⊢
  exact hlt'

theorem IsSlotNumber.ten_zpow_le (hx : IsSlotNumber x) (h : 0 < x.toRat) :
    10 ^ (-18 : ℤ) ≤ x.toRat := by
  obtain ⟨k, -, hk⟩ := hx.places
  have hpos : 0 < k := by
    rw [hk] at h
    exact_mod_cast (div_pos_iff_of_pos_right (by positivity)).mp h
  have hone : (1 : ℚ) ≤ k := by exact_mod_cast hpos
  rw [hk, zpow_neg, zpow_ofNat, div_eq_mul_inv]
  exact le_mul_of_one_le_left (by positivity) hone

theorem isSlotNumber_of_decode (h : decode n = .ok x) : IsSlotNumber x := by
  obtain ⟨hplain, hval, hlt⟩ := decode_ok h
  have hnonneg : 0 ≤ nearestEven (Context.wide.rounded (n / scale) * 10 ^ decimalPlaces) :=
    nearestEven_nonneg (mul_nonneg (Context.rounded_nonneg (by positivity)) (by positivity))
  have hplaces : (10 : ℚ) ^ decimalPlaces = 10 ^ 18 := rfl
  rw [hplaces] at hval hnonneg
  lift nearestEven (Context.wide.rounded (n / scale) * 10 ^ 18) to Nat using hnonneg with k
  rw [Int.cast_natCast] at hval
  refine ⟨hplain.isFinite, k, ?_, hval⟩
  rw [hval, div_lt_iff₀ (by positivity)] at hlt
  norm_num at hlt
  exact_mod_cast hlt

end FixedPoint

namespace Order

/-- The rates are whole basis points, of which a slot has room for some. -/
structure IsDecoded (order : Order) (min max : Nat) : Prop where
  condition : ∀ name t, order.condition ≠ .foreign name t
  threshold : FixedPoint.IsSlotNumber order.condition.threshold
  opportunity : order.opportunity = .allDebt ∨
    ∃ amount, FixedPoint.IsSlotNumber amount ∧ order.opportunity = .debtAmount amount
  minRate : order.minRate.isFinite ∧ order.minRate.toRat = min / Rate.fullBps
  maxRate : order.maxRate.isFinite ∧ order.maxRate.toRat = max / Rate.fullBps

variable {order : Order} {s : SlotState}

theorem isDecoded_of_decode (hmin : s.minBonusBps ≤ Rate.maxBonusBps)
    (hmax : s.maxBonusBps ≤ Rate.maxBonusBps) (h : decode s = .ok (some order)) :
    order.IsDecoded s.minBonusBps s.maxBonusBps := by
  have hs := decode_eq_some.mp h
  refine ⟨fun name t hforeign => ?_, FixedPoint.isSlotNumber_of_decode hs.threshold, ?_,
    Rate.ofBps_whole hmin (Decimal.isFinite_ofNat _) (Decimal.toRat_ofNat _) hs.minRate,
    Rate.ofBps_whole hmax (Decimal.isFinite_ofNat _) (Decimal.toRat_ofNat _) hs.maxRate⟩
  · have htype := hs.conditionType
    rw [hforeign] at htype
    simp [Condition.typeId?] at htype
  · have htype := hs.opportunityType
    have hparameter := FixedPoint.isSlotNumber_of_decode hs.parameter
    cases hopp : order.opportunity with
    | allDebt => exact .inl rfl
    | debtAmount amount =>
      rw [hopp] at hparameter
      exact .inr ⟨amount, hparameter, rfl⟩
    | foreign =>
      rw [hopp] at htype
      simp [Opportunity.typeId?] at htype

end Order

end LoanOrders
