import LoanOrders.Proofs.Family
import LoanOrders.Proofs.Inverse
import LoanOrders.Proofs.Mapping
import LoanOrders.Proofs.Snapshot

/-! An order by a price that is stored and read back. The price of a short position is stored as it
is. That of a long one is stored by its inverse, whose error is bounded for the inverse itself and
not for the price: a high price has a low inverse, of which a slot keeps few digits. -/

namespace LoanOrders.PriceFamily

section Accepted

variable {position : PositionType} {type : OrderType} {trigger : Trigger} {c : Condition}
  {x y t : Decimal} {n : Nat}

theorem toCondition_ok (h : toCondition position type trigger = .ok c) :
    ∃ t x, trigger = .price (.make t x) ∧ t.position = position ∧
      convert position x = .ok c.threshold ∧
      ∀ y z, convert position y = .ok z → z.isFinite → 0 < z.toRat →
        triggerOf position type (c.withThreshold y) = .ok (.price (.make t z)) := by
  obtain ⟨x, t, rfl, hconvert, rfl⟩ := toCondition_eq_ok.mp h
  refine ⟨type.priceTrigger position, x, rfl, type.position_priceTrigger position,
    by rwa [type.threshold_priceCondition], fun y z hz hfin hpos => ?_⟩
  cases position with
  | long =>
    have hz : Rate.inverse y = .ok z := hz
    cases type <;>
      simp only [OrderType.priceCondition, OrderType.priceTrigger, triggerOf, Condition.withThreshold,
        hz, liftM_ok, ok_bind, PriceTrigger.ofPrice_eq hfin hpos, pure_eq_ok]
  | short =>
    obtain rfl : y = z := Except.ok.inj hz
    cases type <;>
      simp only [OrderType.priceCondition, OrderType.priceTrigger, triggerOf, Condition.withThreshold,
        ok_bind, PriceTrigger.ofPrice_eq hfin hpos, pure_eq_ok]

theorem inverse_ok (h : Rate.inverse x = .ok t) (ht : t.isFinite) (hne : t.toRat ≠ 0) :
    x.isFinite ∧ t.toRat = Context.standard.rounded (1 / x.toRat) := by
  have hx : x.isFinite := by
    cases x with
    | finite => rfl
    | infinite s =>
      obtain rfl : .finite (false != s) 0 Context.standard.lowestPlace = t := Except.ok.inj h
      simp [Context.signed] at hne
    | nan s signaling p =>
      cases signaling with
      | false =>
        obtain rfl : Context.standard.quietNaN s p = t := Except.ok.inj h
        simp [Context.quietNaN, Decimal.isFinite] at ht
      | true => cases h
  obtain ⟨-, -, hval⟩ := Context.div_ok (x := .one) rfl hx h
  exact ⟨hx, by rw [hval, Decimal.toRat_one]⟩

/-- The price that is read back for a given one. -/
def PriceKept : PositionType → ℚ → ℚ → Prop
  | .short, given, read => FixedPoint.Kept given read
  | .long, given, read => |1 / read - 1 / given| ≤ 1 / 10 ^ 18 + 2 / 10 ^ 27 / given ∧
    (FitsDigits 28 given → FitsPlaces 18 (1 / given) →
      (∀ j ∈ [43, 46, 53], ∀ x : ℤ, given ≠ 2 ^ j * 10 ^ x) → read = given)

/-- A stored threshold has an inverse, which is a price again. -/
theorem exists_inverse {u : ℚ} (hlow : 1 / 10 ^ 18 ≤ u) (hhigh : u ≤ 10 ^ 21) (hy : y.isFinite)
    (hval : y.toRat = u) : ∃ z, Rate.inverse y = .ok z ∧ z.isFinite ∧
      z.toRat = Context.standard.rounded (1 / u) ∧ 0 < z.toRat := by
  have hu : 0 < u := lt_of_lt_of_le (by norm_num) hlow
  have hsize : |Decimal.one.toRat / y.toRat| < 10 ^ Context.maxExponent := by
    refine lt_of_lt_of_le ?_ (ten_zpow_le (by decide : (19 : ℤ) ≤ Context.maxExponent))
    rw [hval, Decimal.toRat_one, abs_of_pos (one_div_pos.mpr hu), div_lt_iff₀ hu]
    norm_num at hlow ⊢
    linarith
  obtain ⟨z, hz⟩ := Context.exists_div (c := Context.standard) (x := .one) rfl hy
    (hval ▸ hu.ne') hsize
  obtain ⟨-, hzfin, hzval⟩ := Context.div_ok (x := .one) rfl hy hz
  rw [Decimal.toRat_one, hval] at hzval
  have hinv : 10 ^ (-21 : ℤ) ≤ 1 / u := by
    rw [le_div_iff₀ hu]
    norm_num at hhigh ⊢
    linarith
  have hmono := Context.rounded_mono (c := Context.standard) hinv
  rw [Context.rounded_ten_zpow (by decide), ← hzval] at hmono
  exact ⟨z, hz, hzfin, hzval, (ten_zpow_pos _).trans_le hmono⟩

theorem exists_convert (hconvert : convert position x = .ok t)
    (hn : FixedPoint.encode t = .ok n) (hpos : 0 < n) (hy : y.isFinite)
    (hval : y.toRat = FixedPoint.unscaled n) : ∃ z, convert position y = .ok z ∧ 0 < z.toRat ∧
      Decimal.Related (PriceKept position) x z := by
  obtain ⟨ht, hscaled, hmax⟩ := FixedPoint.encode_ok hn
  cases position with
  | short =>
    obtain rfl : x = t := Except.ok.inj hconvert
    have hlow := FixedPoint.le_unscaled hpos
    have hkept := FixedPoint.kept_of_encode hn
    rw [← hval] at hlow hkept
    exact ⟨y, rfl, lt_of_lt_of_le (by norm_num) hlow, ht, hy, hkept⟩
  | long =>
    have hne : t.toRat ≠ 0 := by
      intro hzero
      simp only [hzero, FixedPoint.scaled, zero_mul, Context.rounded_zero, nearestEven_zero] at hscaled
      omega
    obtain ⟨hx, htval⟩ := inverse_ok hconvert ht hne
    rw [htval] at hscaled
    obtain ⟨hlow, hhigh⟩ := Rate.unscaled_bounds hscaled hmax hpos
    obtain ⟨z, hz, hzfin, hzval, hzpos⟩ := exists_inverse hlow hhigh hy hval
    refine ⟨z, hz, hzpos, hx, hzfin, ?_⟩
    rw [hzval]
    exact ⟨Rate.abs_inverse_sub_le hscaled hmax hpos, Rate.inverse_eq_of_places hscaled hmax hpos⟩

end Accepted

/-- An order that is created and stored is read back, as the same order at a price whose inverse, on
a long position, lies near that of the given one. -/
theorem read_create_price {stablecoins : List Token} {context : OrderContext} {typeName : String}
    {s : Specification} {u : SlotUpdate} {state : SlotState}
    (hcreate : (priceFamily stablecoins).create context typeName (some s) = .ok u)
    (hstate : u.state = .ok state)
    (hother : ∀ i ≠ u.index, ∃ other, Order.decode (context.obligation.slots.get i) = .ok other) :
    ∃ t, (priceFamily stablecoins).read (context.store u.index state) typeName = .ok (some t) ∧
      (∃ o, Order.decode state = .ok (some o) ∧ 0 < o.condition.threshold.toRat) ∧
      s.action.Related (fun a b => |b - a| < 1 / 10 ^ 18) t.action ∧
      ∃ type p q, s.trigger = .price (.make type p) ∧ t.trigger = .price (.make type q) ∧
        p.isFinite ∧ q.isFinite ∧
        (type.position = .short → |q.toRat - p.toRat| < 1 / 10 ^ 18 ∧
          (FitsPlaces 18 p.toRat → q.toRat = p.toRat)) ∧
        (type.position = .long →
          |1 / q.toRat - 1 / p.toRat| ≤ 1 / 10 ^ 18 + 2 / 10 ^ 27 / p.toRat ∧
          (FitsDigits 28 p.toRat → FitsPlaces 18 (1 / p.toRat) →
            (∀ j ∈ [43, 46, 53], ∀ x : ℤ, p.toRat ≠ 2 ^ j * 10 ^ x) → q.toRat = p.toRat)) := by
  obtain ⟨position, type, c, o, hprofile, htype, hcond, -, ho, rfl⟩ := Family.create_ok hcreate
  obtain ⟨t, x, htrigger, rfl, hconvert, hback⟩ := toCondition_ok hcond
  obtain ⟨n, hn, hpos⟩ := ho.storable
  obtain rfl : n = state.threshold := by
    have hthreshold := (Order.encode_eq_ok.mp hstate).threshold
    rw [ho.condition_eq, hn] at hthreshold
    exact Except.ok.inj hthreshold
  have hstoredPos {y : Decimal} (hy : y.toRat = FixedPoint.unscaled state.threshold) : 0 < y.toRat := by
    rw [hy]
    exact lt_of_lt_of_le (by norm_num) (FixedPoint.le_unscaled hpos)
  have hkeep (y : Decimal) (hy : y.isFinite) (hyval : y.toRat = FixedPoint.unscaled state.threshold) :
      ∃ trigger, (priceFamily stablecoins).toTrigger t.position type (c.withThreshold y) =
          .ok trigger ∧
        Specification.readTrigger (priceFamily stablecoins).kind trigger.toData = .valid trigger ∧
        ∃ z, trigger = .price (.make t z) ∧ Decimal.Related (PriceKept t.position) x z := by
    obtain ⟨z, hz, hzpos, hkept⟩ := exists_convert hconvert hn hpos hy hyval
    refine ⟨.price (.make t z), ?_, Specification.readTrigger_price hkept.2.1 hzpos t, z, rfl, hkept⟩
    simp only [priceFamily, toTrigger, Condition.threshold_withThreshold, Decimal.gt_zero hy,
      hstoredPos hyval, decide_true, liftM_ok, ok_bind, check_true]
    exact hback y z hz hkept.2.1 hzpos
  obtain ⟨r, hread, ⟨z, hz, hx, hzfin, hkept⟩, haction, -⟩ :=
    ho.exists_read hstate hother hprofile htype hkeep
  obtain ⟨o', hdecode, ho'⟩ := Order.exists_decode hstate
  obtain ⟨y, -, hyval, hcondition⟩ := ho'.condition
  refine ⟨r, hread, ⟨o', hdecode, ?_⟩, haction.imp fun _ _ _ h => h.1, t, x, z, htrigger, hz, hx,
    hzfin, ?_, ?_⟩
  · rw [hcondition, Condition.threshold_withThreshold]
    exact hstoredPos hyval
  · intro hshort
    rwa [hshort] at hkept
  · intro hlong
    rwa [hlong] at hkept

/-- A stop-loss below 80 dollars, which is stored as the ratio 0.0125. -/
theorem read_create_price_longStopLoss : ∃ t q, (priceFamily [.symbol "USD"]).read
      (longPosition.store 0 ⟨3, 14411518807585587, 1, FixedPoint.maxEncoded, 50, 100⟩) "StopLoss" =
        .ok (some t) ∧ t.trigger = .price (.longStopLoss q) ∧
      |1 / q.toRat - 1 / 80| ≤ 1 / 10 ^ 18 + 2 / 10 ^ 27 / 80 := by
  have hcreate : (priceFamily [.symbol "USD"]).create longPosition "StopLoss"
      (some ⟨.price (.longStopLoss (.ofNat 80)), .fullRepay, (.ofNat 50, .ofNat 100)⟩) =
      .ok ⟨0, some ⟨.priceRatioAbove (.finite false 125 (-4)), .allDebt, .finite false 5 (-3),
        .finite false 1 (-2)⟩⟩ := by decide +kernel
  obtain ⟨t, ht, -, -, type, p, q, hp, hq, -, -, -, hlong⟩ :=
    read_create_price hcreate rfl fun i _ => ⟨none, by fin_cases i <;> rfl⟩
  cases type <;> simp only [PriceTrigger.make, Trigger.price.injEq, PriceTrigger.longStopLoss.injEq,
    reduceCtorEq] at hp
  obtain rfl := hp
  refine ⟨t, q, ht, hq, ?_⟩
  simpa using (hlong rfl).1

/-- Not every price comes back of which the inverse has few enough places. That of
`2 ^ 43 / 10 ^ 25` is `5 ^ 43 / 10 ^ 18`, whose 31 digits are cut to 28. -/
theorem read_create_price_two_pow :
    (priceFamily [.symbol "USD"]).create longPosition "StopLoss"
      (some ⟨.price (.longStopLoss (.finite false (2 ^ 43) (-25))), .fullRepay,
        (.ofNat 50, .ofNat 100)⟩) =
      .ok ⟨0, some ⟨.priceRatioAbove (.finite false 1136868377216160297393798828 (-15)), .allDebt,
        .finite false 5 (-3), .finite false 1 (-2)⟩⟩ ∧
    Order.encode ⟨.priceRatioAbove (.finite false 1136868377216160297393798828 (-15)), .allDebt,
        .finite false 5 (-3), .finite false 1 (-2)⟩ =
      .ok ⟨3, 1310719999999999999999999999856, 1, FixedPoint.maxEncoded, 50, 100⟩ ∧
    (((priceFamily [.symbol "USD"]).read (longPosition.store 0
        ⟨3, 1310719999999999999999999999856, 1, FixedPoint.maxEncoded, 50, 100⟩) "StopLoss").map
          fun t => t.bind (·.trigger.number?)) =
      .ok (some (.finite false 8796093022208000000000000001 (-40))) ∧
    FitsDigits 28 (Decimal.finite false (2 ^ 43) (-25)).toRat ∧
    FitsPlaces 18 (1 / (Decimal.finite false (2 ^ 43) (-25)).toRat) ∧
    (Decimal.finite false 8796093022208000000000000001 (-40)).toRat ≠
      (Decimal.finite false (2 ^ 43) (-25)).toRat := by
  refine ⟨by decide +kernel, rfl, by decide +kernel, ⟨2 ^ 43, -25, by norm_num, ?_⟩,
    ⟨5 ^ 43, ?_⟩, ?_⟩
  · norm_num [Context.signed]
  · norm_num [Context.signed]
  · norm_num [Context.signed]

end LoanOrders.PriceFamily
