import LoanOrders.Proofs.Order

/-! The threshold and the bonus are checked when an order is created, and once more by the state that
the order is stored as. The two checks are written apart and look at different numbers, but let the
same orders pass: both come down to the integers that the numbers are rounded to. -/

namespace LoanOrders

namespace Order

variable {c : Condition} {min max low high : Decimal} {s : SlotState}

/-- A stored bonus lies within the limits, of which only the upper one is checked with the state. -/
theorem IsStoredAs.isBonusRange {o : Order} (h : o.IsStoredAs s) (hlow : o.minRate.isFinite)
    (hhigh : o.maxRate.isFinite) (h₀ : 0 ≤ o.minRate.toRat) (hle : o.minRate.toRat ≤ o.maxRate.toRat) :
    Rate.IsBonusRange o.minRate o.maxRate ∧ s.minBonusBps ≤ s.maxBonusBps := by
  obtain ⟨hmin, -⟩ := bonusBps_ok hlow h₀ h.minBonus
  obtain ⟨hmax, -⟩ := bonusBps_ok hhigh (h₀.trans hle) h.maxBonus
  have hmono := Rate.wholeBps_mono hle
  have hlimit := h.maxBonus_le
  exact ⟨⟨hlow, hhigh, h₀, hle, by omega⟩, by omega⟩

/-- The checks that are made of the threshold and the bonus when an order is created are exactly
those that its state makes. What is stored of the bonus then keeps its order and its limit. -/
theorem checks_iff_encode (hc : ∃ id, c.typeId? = some id) (hmin : min.isFinite) (hmax : max.isFinite)
    (h₀ : 0 ≤ min.toRat) (hle : min.toRat ≤ max.toRat) :
    (c.checkStorable = .ok () ∧ Rate.ofBonusRange min max = .ok (low, high) ↔
      Rate.ofBps min = .ok low ∧ Rate.ofBps max = .ok high ∧
        ∃ s, encode ⟨c, .allDebt, low, high⟩ = .ok s ∧ s.threshold ≠ 0) ∧
    ∀ s, Rate.ofBps min = .ok low → Rate.ofBps max = .ok high →
      encode ⟨c, .allDebt, low, high⟩ = .ok s →
      s.minBonusBps ≤ s.maxBonusBps ∧ s.maxBonusBps ≤ 65535 := by
  have hstored (s : SlotState) (hlow : Rate.ofBps min = .ok low) (hhigh : Rate.ofBps max = .ok high)
      (hs : encode ⟨c, .allDebt, low, high⟩ = .ok s) :
      Rate.IsBonusRange low high ∧ s.minBonusBps ≤ s.maxBonusBps := by
    obtain ⟨hlowfin, hlowval⟩ := Rate.ofBps_ok hmin hlow
    obtain ⟨hhighfin, hhighval⟩ := Rate.ofBps_ok hmax hhigh
    refine (encode_eq_ok.mp hs).isBonusRange hlowfin hhighfin ?_ ?_
    · rw [hlowval]
      exact Context.rounded_nonneg (div_nonneg h₀ (Nat.cast_nonneg _))
    · rw [hlowval, hhighval]
      exact Context.rounded_mono (div_le_div_of_nonneg_right hle (Nat.cast_nonneg _))
  refine ⟨⟨?_, ?_⟩, fun s hlow hhigh hs => ?_⟩
  · rintro ⟨hstorable, hrates⟩
    obtain ⟨n, hn, hpos⟩ := Condition.checkStorable_ok hstorable
    obtain ⟨x, y, hx, hy, -, -, hlow, hhigh, hrange⟩ := Rate.ofBonusRange_ok hrates
    obtain rfl : min = x := Except.ok.inj hx
    obtain rfl : max = y := Except.ok.inj hy
    obtain ⟨id, hid⟩ := hc
    obtain ⟨m, k, hm, hk, hmk, hlimit, -⟩ := exists_bonusBps hrange
    exact ⟨hlow, hhigh, ⟨id, n, 1, FixedPoint.maxEncoded, m, k⟩,
      encode_eq_ok.mpr ⟨hid, rfl, hn, FixedPoint.encode_maxValue, hm, hk, hmk.trans hlimit, hlimit⟩,
      hpos.ne'⟩
  · rintro ⟨hlow, hhigh, s, hs, hne⟩
    have hs' := encode_eq_ok.mp hs
    exact ⟨Condition.checkStorable_of_encode hs'.threshold (Nat.pos_of_ne_zero hne),
      ofBonusRange_of_bonusBps hlow hhigh (hstored s hlow hhigh hs).1 hs'.maxBonus⟩
  · exact ⟨(hstored s hlow hhigh hs).2, (encode_eq_ok.mp hs).maxBonus_le⟩

/-- A bonus of less than 65535.5 basis points by one in the last of 28 digits is still stored, as
65535 of them. -/
theorem checks_iff_encode_limit : ∃ s,
    encode ⟨.ltvAbove (.finite false 6 (-1)), .allDebt, .finite false 5 (-3),
      .finite false 6553549999999999999999999999 (-27)⟩ = .ok s ∧ s.threshold ≠ 0 ∧
      s.maxBonusBps ≤ 65535 := by
  have hrates : Rate.ofBonusRange (Decimal.ofNat 50)
      (Decimal.finite false 6553549999999999999999999999 (-23)) =
      .ok (.finite false 5 (-3), .finite false 6553549999999999999999999999 (-27)) := by
    decide +kernel
  have hstorable : (Condition.ltvAbove (.finite false 6 (-1))).checkStorable = .ok () := by
    decide +kernel
  have hnonneg : 0 ≤ (Decimal.ofNat 50).toRat := by
    norm_num [Decimal.toRat_ofNat]
  have hle : (Decimal.ofNat 50).toRat ≤
      (Decimal.finite false 6553549999999999999999999999 (-23)).toRat := by
    rw [Decimal.toRat_ofNat, Decimal.toRat_finite]
    norm_num [Context.signed]
  obtain ⟨hlow, hhigh, s, hs, hne⟩ :=
    (checks_iff_encode ⟨1, rfl⟩ rfl rfl hnonneg hle).1.mp ⟨hstorable, hrates⟩
  exact ⟨s, hs, hne, ((checks_iff_encode ⟨1, rfl⟩ rfl rfl hnonneg hle).2 s hlow hhigh hs).2⟩

/-- With one digit more it is rounded up to them when it is made a rate, and refused by both. -/
example : Rate.ofBonusRange (Decimal.ofNat 50)
    (Decimal.finite false 655354999999999999999999999996 (-25)) =
      .error (.bonusAboveLimit (.ofNat 65536) 65535) := by
  decide +kernel

end Order

end LoanOrders
