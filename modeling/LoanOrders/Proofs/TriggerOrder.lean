import LoanOrders.Proofs.LtvRoundTrip
import LoanOrders.Proofs.OtherSlot
import LoanOrders.Proofs.PriceRoundTrip

/-! The order of triggers in a slot. On its way into a slot and back a number is rounded up to six
times, and no rounding turns two numbers around. The price of a long position is inverted twice, so
that only the thresholds between lie the other way round. -/

namespace LoanOrders

namespace Trigger

/-- How the number of a trigger is measured by a threshold. -/
inductive Scale
  | percent
  | ratio
  | inverse

namespace Scale

/-- Only the price of a long position is stored by its inverse. -/
def ofPosition : PositionType → Scale
  | .long => inverse
  | .short => ratio

/-- The order of thresholds that belongs to the one of the numbers. -/
def Before {α : Type} [LE α] : Scale → α → α → Prop
  | percent, a, b | ratio, a, b => a ≤ b
  | inverse, a, b => b ≤ a

def toThreshold : Scale → ℚ → ℚ
  | percent, q => Context.standard.rounded (q / 100)
  | ratio, q => q
  | inverse, q => Context.standard.rounded (1 / q)

def ofThreshold : Scale → ℚ → ℚ
  | percent, q => Context.standard.rounded (q * 100)
  | ratio, q => q
  | inverse, q => Context.standard.rounded (1 / q)

variable {scale : Scale} {p q : ℚ}

theorem Before.map {α β : Type} [Preorder α] [Preorder β] {f : α → β} {a b : α} (hf : Monotone f)
    (h : scale.Before a b) : scale.Before (f a) (f b) := by
  cases scale with
  | percent | ratio | inverse => exact hf h

theorem before_natCast {m n : Nat} : scale.Before (m : ℤ) n ↔ scale.Before m n := by
  cases scale with
  | percent | ratio | inverse => exact Int.ofNat_le

theorem before_toThreshold (scale : Scale) (hp : 0 < p) (h : p ≤ q) :
    scale.Before (scale.toThreshold p) (scale.toThreshold q) := by
  cases scale with
  | percent => exact Context.rounded_mono (div_le_div_of_nonneg_right h (by norm_num))
  | ratio => exact h
  | inverse => exact Context.rounded_mono (one_div_le_one_div_of_le hp h)

theorem ofThreshold_le (hq : 0 < q) (h : scale.Before p q) :
    scale.ofThreshold p ≤ scale.ofThreshold q := by
  cases scale with
  | percent => exact Context.rounded_mono (mul_le_mul_of_nonneg_right h (by norm_num))
  | ratio => exact h
  | inverse => exact Context.rounded_mono (one_div_le_one_div_of_le hq h)

theorem pos_of_toThreshold (h : 0 < scale.toThreshold q) : 0 < q := by
  by_contra hq
  have hrounded {r : ℚ} (hr : r ≤ 0) : Context.standard.rounded r ≤ 0 := by
    have hmono := Context.rounded_mono (c := Context.standard) hr
    rwa [Context.rounded_zero] at hmono
  cases scale with
  | percent => exact absurd (hrounded (by linarith)) (not_le.mpr h)
  | ratio => exact hq h
  | inverse => exact absurd (hrounded (one_div_nonpos.mpr (not_lt.mp hq))) (not_le.mpr h)

end Scale

def scale : Trigger → Scale
  | ltv _ => .percent
  | price t => .ofPosition t.type.position
  | other _ => .ratio

variable {R S : ℚ → ℚ → Prop} {a b c : Trigger}

theorem Related.scale_eq (h : a.Related R b) : a.scale = b.scale := by
  cases a <;> cases b <;> simp only [Related] at h
  · rfl
  · rw [scale, scale, h.1]

theorem Related.exists_number (h : a.Related R b) :
    ∃ x ∈ a.number?, ∃ y ∈ b.number?, R x.toRat y.toRat := by
  cases a <;> cases b <;> simp only [Related] at h
  all_goals exact ⟨_, rfl, _, rfl, h.2.2.2⟩

theorem Related.symm (h : a.Related R b) : b.Related (flip R) a := by
  cases a <;> cases b <;> simp only [Related] at h ⊢
  all_goals exact ⟨h.1.symm, h.2.2.1, h.2.1, h.2.2.2⟩

theorem Related.trans (hab : a.Related R b) (hbc : b.Related S c) :
    a.Related (Relation.Comp R S) c := by
  cases a <;> cases b <;> simp only [Related] at hab
  all_goals
    cases c <;> simp only [Related] at hbc ⊢
    exact ⟨hab.1.trans hbc.1, hab.2.1, hbc.2.2.1, _, hab.2.2.2, hbc.2.2.2⟩

end Trigger

variable {Profile : Type} {family : Family Profile} {trigger : Trigger} {index : Fin 2}

/-- A family whose thresholds measure the numbers of its triggers on their scale, when they are made
of them and when they are read after they were stored. -/
def Family.IsMeasured (family : Family Profile) : Prop :=
  ∀ {profile type trigger c n}, family.toCondition profile type trigger = .ok c →
    family.checkCondition c = .ok () → FixedPoint.encode c.threshold = .ok n → 0 < n →
    (∀ x ∈ trigger.number?, (n : ℤ) = FixedPoint.scaled (trigger.scale.toThreshold x.toRat)) ∧
    ∀ y, y.isFinite → y.toRat = FixedPoint.unscaled n →
      ∃ t, family.toTrigger profile type (c.withThreshold y) = .ok t ∧
        Specification.readTrigger family.kind t.toData = .valid t ∧ trigger.Related
          (fun _ q => q = trigger.scale.ofThreshold (FixedPoint.unscaled n)) t

theorem LtvFamily.isMeasured : ltvFamily.IsMeasured := by
  intro profile type trigger c n hcond hcheck hn hpos
  obtain ⟨t, p, rfl, hrate, hback⟩ := toCondition_ok hcond
  obtain ⟨hfin, hlow, hhigh⟩ := checkCondition_ok hcheck
  obtain ⟨-, hscaled, -⟩ := FixedPoint.encode_ok hn
  constructor
  · intro x hx
    obtain rfl : p = x := by simpa [Trigger.number?] using hx
    rw [hscaled, (ofPercent_ok hrate hfin).2]
    rfl
  · intro y hy hval
    obtain ⟨z, hz, hp, hzfin, -⟩ := exists_toPercent hrate hfin hlow hhigh hn hy hval
    obtain ⟨-, hzval⟩ := Context.mul_ok hy (Decimal.isFinite_ofNat _) hz
    rw [hval, Decimal.toRat_ofNat] at hzval
    refine ⟨.ltv (.make t z), hback y z hz hzfin, Specification.readTrigger_ltv hzfin t, ?_⟩
    rw [Trigger.Related, LtvTrigger.type_make, LtvTrigger.type_make, LtvTrigger.percent_make,
      LtvTrigger.percent_make]
    exact ⟨rfl, hp, hzfin, hzval⟩

theorem PriceFamily.toRat_convert {position : PositionType} {x t : Decimal}
    (h : convert position x = .ok t) (hx : x.isFinite) :
    t.toRat = (Trigger.Scale.ofPosition position).toThreshold x.toRat := by
  cases position with
  | long =>
    obtain ⟨-, -, hval⟩ := Context.div_ok (x := .one) rfl hx h
    rw [hval, Decimal.toRat_one]
    rfl
  | short =>
    obtain rfl : x = t := Except.ok.inj h
    rfl

theorem PriceFamily.isMeasured (stablecoins : List Token) : (priceFamily stablecoins).IsMeasured := by
  intro position type trigger c n hcond _ hn hpos
  obtain ⟨t, p, rfl, rfl, hconvert, hback⟩ := toCondition_ok hcond
  obtain ⟨-, hscaled, hmax⟩ := FixedPoint.encode_ok hn
  have hread (y : Decimal) (hy : y.isFinite) (hval : y.toRat = FixedPoint.unscaled n) :=
    exists_convert hconvert hn hpos hy hval
  constructor
  · intro x hx
    obtain rfl : p = x := by simpa [Trigger.number?] using hx
    obtain ⟨y, -, hy, hval⟩ := FixedPoint.decode_eq hmax
    obtain ⟨-, -, -, hp, -⟩ := hread y hy hval
    rw [hscaled, toRat_convert hconvert hp, Trigger.scale, PriceTrigger.type_make]
  · intro y hy hval
    obtain ⟨z, hz, hzpos, hp, hzfin, -⟩ := hread y hy hval
    have hypos : 0 < y.toRat := hval ▸ FixedPoint.unscaled_pos hpos
    refine ⟨.price (.make t z), ?_, Specification.readTrigger_price hzfin hzpos t, ?_⟩
    · simp only [priceFamily, toTrigger, Condition.threshold_withThreshold,
        Decimal.gt_zero hy, hypos, decide_true, liftM_ok, ok_bind, check_true]
      exact hback y z hz hzfin hzpos
    · rw [Trigger.Related, PriceTrigger.type_make, PriceTrigger.type_make, PriceTrigger.price_make,
        PriceTrigger.price_make]
      refine ⟨rfl, hp, hzfin, ?_⟩
      rw [toRat_convert hz hy, hval, Trigger.scale, PriceTrigger.type_make]
      cases t.position <;> rfl

namespace Family

variable {context : OrderContext} {typeName : String} {s s' : Specification} {u u' : SlotUpdate}
  {state state' : SlotState}

/-- The families that the orders of a program are created by. -/
inductive IsOffered : {Profile : Type} → Family Profile → Prop
  | ltv : IsOffered ltvFamily
  | price (stablecoins : List Token) : IsOffered (priceFamily stablecoins)

theorem IsOffered.isMeasured (h : family.IsOffered) : family.IsMeasured := by
  cases h with
  | ltv => exact LtvFamily.isMeasured
  | price stablecoins => exact PriceFamily.isMeasured stablecoins

theorem IsOffered.ignoresSlots (h : family.IsOffered) : family.IgnoresSlots := by
  cases h with
  | ltv => exact ignoresSlots_ltv
  | price stablecoins => exact ignoresSlots_price stablecoins

/-- What a slot keeps of the trigger of an order, and what is read for it. -/
structure KeepsTrigger (family : Family Profile) (context : OrderContext) (typeName : String)
    (trigger : Trigger) (index : Fin 2) (state : SlotState) : Prop where
  pos : 0 < state.threshold
  threshold : ∀ x ∈ trigger.number?,
    (state.threshold : ℤ) = FixedPoint.scaled (trigger.scale.toThreshold x.toRat)
  exists_read : (∀ i ≠ index, ∃ other, Order.decode (context.obligation.slots.get i) = .ok other) →
    ∃ t, family.read (context.store index state) typeName = .ok (some t) ∧ trigger.Related
      (fun _ q => q = trigger.scale.ofThreshold (FixedPoint.unscaled state.threshold)) t.trigger

theorem IsOffered.keepsTrigger (hfamily : family.IsOffered)
    (hcreate : family.create context typeName (some s) = .ok u) (hstate : u.state = .ok state) :
    family.KeepsTrigger context typeName s.trigger u.index state := by
  obtain ⟨profile, type, c, o, hprofile, htype, hcond, hcheck, ho, rfl⟩ := create_ok hcreate
  obtain ⟨hn, hpos⟩ := ho.encode_threshold (Order.encode_eq_ok.mp hstate)
  obtain ⟨hstored, hkeep⟩ := hfamily.isMeasured hcond hcheck hn hpos
  refine ⟨hpos, hstored, fun hother => ?_⟩
  have hprofile' := (hfamily.ignoresSlots context type.slot state).trans hprofile
  obtain ⟨t, hread, hrelated, -⟩ := ho.exists_read hstate hother hprofile' htype hkeep
  exact ⟨t, hread, hrelated⟩

namespace KeepsTrigger

variable {trigger trigger' : Trigger} {index' : Fin 2}

theorem before (h : family.KeepsTrigger context typeName trigger index state)
    (h' : family.KeepsTrigger context typeName trigger' index' state')
    (hle : trigger.Related (· ≤ ·) trigger') :
    trigger.scale.Before state.threshold state'.threshold := by
  obtain ⟨x, hx, y, hy, hxy⟩ := hle.exists_number
  have hstored := h.threshold x hx
  have hstored' := h'.threshold y hy
  rw [← hle.scale_eq] at hstored'
  have hpos : 0 < x.toRat := by
    have hscaled : 0 < FixedPoint.scaled (trigger.scale.toThreshold x.toRat) := by
      rw [← hstored]
      exact_mod_cast h.pos
    exact Trigger.Scale.pos_of_toThreshold (FixedPoint.pos_of_scaled hscaled)
  have hbefore := (trigger.scale.before_toThreshold hpos hxy).map FixedPoint.scaled_mono
  rw [← hstored, ← hstored'] at hbefore
  exact Trigger.Scale.before_natCast.mp hbefore

end KeepsTrigger

/-- Whether an order is read from one slot depends on the other slot too. -/
theorem exists_decode_of_read {r : Option Specification} (h : family.read context typeName = .ok r)
    (i : Fin 2) : ∃ other, Order.decode (context.obligation.slots.get i) = .ok other := by
  simp only [read, bind_eq_ok] at h
  obtain ⟨_, -, first, hfirst, second, hsecond, -⟩ := h
  rw [Slots.get]
  split_ifs
  · exact ⟨first, hfirst⟩
  · exact ⟨second, hsecond⟩

theorem exists_decode_of_read_store {r : Option Specification}
    (h : family.read (context.store index state) typeName = .ok r) :
    ∀ i ≠ index, ∃ other, Order.decode (context.obligation.slots.get i) = .ok other := by
  intro i hi
  have hdecode := exists_decode_of_read h i
  rwa [OrderContext.store, Slots.get_set_other _ (Ne.symm hi)] at hdecode

theorem index_of_create (hcreate : family.create context typeName (some s) = .ok u)
    (hcreate' : family.create context typeName (some s') = .ok u') : u'.index = u.index := by
  obtain ⟨_, type, _, _, -, htype, -, -, -, rfl⟩ := create_ok hcreate
  obtain ⟨_, type', _, _, -, htype', -, -, -, rfl⟩ := create_ok hcreate'
  obtain rfl : type = type' := Except.ok.inj (htype.symm.trans htype')
  rfl

/-- Of two triggers of one kind the lower one is read back as the lower one. So are their thresholds
ordered in the slot, or the other way round where a price is stored by its inverse. -/
theorem IsOffered.trigger_order (hfamily : family.IsOffered)
    (hcreate : family.create context typeName (some s) = .ok u) (hstate : u.state = .ok state)
    (hcreate' : family.create context typeName (some s') = .ok u') (hstate' : u'.state = .ok state')
    (hle : s.trigger.Related (· ≤ ·) s'.trigger) :
    s.trigger.scale.Before state.threshold state'.threshold ∧
    (∀ t t', family.read (context.store u.index state) typeName = .ok (some t) →
      family.read (context.store u'.index state') typeName = .ok (some t') →
      t.trigger.Related (· ≤ ·) t'.trigger) ∧
    ((∀ i ≠ u.index, ∃ other, Order.decode (context.obligation.slots.get i) = .ok other) →
      ∃ t t', family.read (context.store u.index state) typeName = .ok (some t) ∧
        family.read (context.store u'.index state') typeName = .ok (some t')) := by
  have h := hfamily.keepsTrigger hcreate hstate
  have h' := hfamily.keepsTrigger hcreate' hstate'
  have hbefore := h.before h' hle
  refine ⟨hbefore, fun t t' hread hread' => ?_, fun hother => ?_⟩
  · obtain ⟨r, hr, hkept⟩ := h.exists_read (exists_decode_of_read_store hread)
    obtain ⟨r', hr', hkept'⟩ := h'.exists_read (exists_decode_of_read_store hread')
    obtain rfl : r = t := Option.some.inj (Except.ok.inj (hr.symm.trans hread))
    obtain rfl : r' = t' := Option.some.inj (Except.ok.inj (hr'.symm.trans hread'))
    rw [← hle.scale_eq] at hkept'
    have hback := Trigger.Scale.ofThreshold_le (FixedPoint.unscaled_pos h'.pos)
      (hbefore.map FixedPoint.unscaled_mono)
    refine (hkept.symm.trans (hle.trans hkept')).imp fun p _ q hcomp => ?_
    obtain ⟨_, hp, _, -, hq⟩ := hcomp
    exact (le_of_eq hp).trans (hback.trans (ge_of_eq hq))
  · obtain ⟨t, hread, -⟩ := h.exists_read hother
    rw [← index_of_create hcreate hcreate'] at hother
    obtain ⟨t', hread', -⟩ := h'.exists_read hother
    exact ⟨t, t', hread, hread'⟩

/-- A stop-loss below 50 dollars and one below 80, which are stored as the ratios 0.02 and 0.0125. -/
theorem trigger_order_longStopLoss : ∃ t t',
    (priceFamily [.symbol "USD"]).read
      (longPosition.store 0 ⟨3, 23058430092136940, 1, FixedPoint.maxEncoded, 50, 100⟩) "StopLoss" =
        .ok (some t) ∧
    (priceFamily [.symbol "USD"]).read
      (longPosition.store 0 ⟨3, 14411518807585587, 1, FixedPoint.maxEncoded, 50, 100⟩) "StopLoss" =
        .ok (some t') ∧ t.trigger.Related (· ≤ ·) t'.trigger := by
  have hcreate : (priceFamily [.symbol "USD"]).create longPosition "StopLoss"
      (some ⟨.price (.longStopLoss (.ofNat 50)), .fullRepay, (.ofNat 50, .ofNat 100)⟩) =
      .ok ⟨0, some ⟨.priceRatioAbove (.finite false 2 (-2)), .allDebt, .finite false 5 (-3),
        .finite false 1 (-2)⟩⟩ := by decide +kernel
  have hcreate' : (priceFamily [.symbol "USD"]).create longPosition "StopLoss"
      (some ⟨.price (.longStopLoss (.ofNat 80)), .fullRepay, (.ofNat 50, .ofNat 100)⟩) =
      .ok ⟨0, some ⟨.priceRatioAbove (.finite false 125 (-4)), .allDebt, .finite false 5 (-3),
        .finite false 1 (-2)⟩⟩ := by decide +kernel
  have hle : Trigger.Related (· ≤ ·) (.price (.longStopLoss (.ofNat 50)))
      (.price (.longStopLoss (.ofNat 80))) := by
    refine ⟨rfl, rfl, rfl, ?_⟩
    norm_num [PriceTrigger.price, Decimal.toRat_ofNat]
  obtain ⟨-, hread, hexists⟩ :=
    (IsOffered.price [.symbol "USD"]).trigger_order hcreate rfl hcreate' rfl hle
  obtain ⟨t, t', ht, ht'⟩ := hexists fun i _ => ⟨none, by fin_cases i <;> rfl⟩
  exact ⟨t, t', ht, ht', hread t t' ht ht'⟩

end Family

end LoanOrders
