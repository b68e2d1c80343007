import LoanOrders.Proofs.Distance
import LoanOrders.Proofs.Overflow
import LoanOrders.Proofs.Progress

/-! When the value of a condition cannot be computed. Some positions have no price: one without an
amount, or with one that is next to nothing. A price may be zero, a total of debts too, and the way
to liquidation may be rounded to nothing. -/

namespace LoanOrders

open Decimal

theorem liftM_bind {α β : Type} (x : Except Signal α) (f : α → Except Signal β) :
    (liftM (x >>= f) : Result β) = liftM x >>= fun a => liftM (f a) := by
  cases x <;> rfl

theorem meets_check (condition : Bool) {e : Error} (h : e.IsModel) :
    (check condition e).Meets Error.IsModel fun _ => True := by
  cases condition with
  | false => exact h
  | true => exact trivial

namespace Result

variable {α β : Type} {p q : Prop} {x : Result α}

/-- A signal is raised exactly under a condition. Otherwise there is a result, or a refusal with an
error about the request. -/
structure SignalsIf (p : Prop) (x : Result α) : Prop where
  raised : p → ∃ s, x = .error (.signal s)
  meets : ¬p → x.Meets Error.IsModel fun _ => True

namespace SignalsIf

theorem of_meets {P : α → Prop} (h : x.Meets Error.IsModel P) : x.SignalsIf False :=
  ⟨False.elim, fun _ => h.mono (fun _ => id) fun _ _ => trivial⟩

theorem ok (a : α) : Result.SignalsIf False (.ok a) := ⟨False.elim, fun _ => trivial⟩

theorem refused {e : Error} (h : e.IsModel) : Result.SignalsIf False (.error e : Result α) :=
  ⟨False.elim, fun _ => h⟩

theorem congr (h : x.SignalsIf p) (hpq : p ↔ q) : x.SignalsIf q :=
  ⟨fun hq => h.raised (hpq.mpr hq), fun hq => h.meets fun hp => hq (hpq.mp hp)⟩

theorem of_exists {y : Except Signal α} (h : (∃ a, y = .ok a) ↔ ¬p) :
    Result.SignalsIf p (liftM y : Result α) := by
  constructor
  · intro hp
    cases y with
    | ok a => exact absurd hp (h.mp ⟨a, rfl⟩)
    | error s => exact ⟨s, rfl⟩
  · intro hp
    obtain ⟨a, rfl⟩ := h.mpr hp
    exact trivial

theorem bind {f : α → Result β} {q : α → Prop} (hx : x.SignalsIf p)
    (hf : ∀ a, x = .ok a → (f a).SignalsIf (q a)) :
    Result.SignalsIf (p ∨ ∃ a, x = .ok a ∧ q a) (x >>= f) := by
  constructor
  · rintro (hp | ⟨a, rfl, hq⟩)
    · obtain ⟨s, rfl⟩ := hx.raised hp
      exact ⟨s, rfl⟩
    · exact (hf a rfl).raised hq
  · intro h
    rw [not_or, not_exists] at h
    exact (hx.meets h.1).bind fun a ha _ => (hf a ha).meets fun hq => h.2 a ⟨ha, hq⟩

theorem bind_left {f : α → Result β} (hx : x.SignalsIf p)
    (hf : ∀ a, x = .ok a → (f a).SignalsIf False) : Result.SignalsIf p (x >>= f) :=
  (hx.bind (q := fun _ => False) hf).congr (by simp)

theorem bind_right {f : α → Result β} {q : α → Prop} (hx : x.SignalsIf False)
    (hf : ∀ a, x = .ok a → (f a).SignalsIf (q a)) :
    Result.SignalsIf (∃ a, x = .ok a ∧ q a) (x >>= f) :=
  (hx.bind hf).congr (false_or _).to_iff

/-- Of an operation on numbers, nothing but the signal can keep the rest from being reached. -/
theorem bind_liftM {y : Except Signal α} {f : α → Result β} (hy : (∃ a, y = .ok a) ↔ ¬p)
    (hf : ∀ a, y = .ok a → (f a).SignalsIf q) :
    Result.SignalsIf (p ∨ q) ((liftM y : Result α) >>= f) := by
  refine ((of_exists hy).bind fun a ha => hf a (liftM_eq_ok.mp ha)).congr (or_congr_right' fun hp => ?_)
  obtain ⟨a, rfl⟩ := hy.mpr hp
  simp

end SignalsIf

end Result

namespace Context

variable {c : Context} [NeZero c.precision] {x y z r : Decimal} {p q : ℚ}

/-- A product over a number, rounded after either step. -/
def roundedShare (c : Context) (p q r : ℚ) : ℚ := c.rounded (c.rounded (p * q) / r)

/-- Neither step fails for numbers that are not negative. -/
structure HasShare (c : Context) (p q r : ℚ) : Prop where
  divisor : r ≠ 0
  product : p * q < c.overflowBound
  quotient : c.rounded (p * q) / r < c.overflowBound

theorem exists_share_iff (hx : x.IsNonneg) (hy : y.IsNonneg) (hz : z.IsNonneg) :
    (∃ r, (c.mul x y >>= fun product => c.div product z) = .ok r) ↔
      c.HasShare x.toRat y.toRat z.toRat := by
  have hproduct := mul_nonneg hx.2 hy.2
  have hmul := exists_mul_iff (c := c) hx.1 hy.1
  have hdiv {product : Decimal} (h : c.mul x y = .ok product) :
      (∃ r, c.div product z = .ok r) ↔
        z.toRat ≠ 0 ∧ c.rounded (x.toRat * y.toRat) / z.toRat < c.overflowBound := by
    obtain ⟨hfin, hval⟩ := mul_ok hx.1 hy.1 h
    rw [exists_div_iff hfin hz.1, hval,
      abs_of_nonneg (div_nonneg (rounded_nonneg hproduct) hz.2)]
  rw [abs_of_nonneg hproduct] at hmul
  constructor
  · rintro ⟨r, hr⟩
    obtain ⟨product, hp, hr⟩ := bind_eq_ok.mp hr
    obtain ⟨hne, hlt⟩ := (hdiv hp).mp ⟨r, hr⟩
    exact ⟨hne, hmul.mp ⟨product, hp⟩, hlt⟩
  · rintro ⟨hne, hlt, hquotient⟩
    obtain ⟨product, hp⟩ := hmul.mpr hlt
    obtain ⟨r, hr⟩ := (hdiv hp).mpr ⟨hne, hquotient⟩
    exact ⟨r, bind_eq_ok.mpr ⟨product, hp, hr⟩⟩

theorem share_ok (hx : x.isFinite) (hy : y.isFinite) (hz : z.isFinite)
    (h : (c.mul x y >>= fun product => c.div product z) = .ok r) :
    r.toRat = c.roundedShare x.toRat y.toRat z.toRat := by
  obtain ⟨product, hp, hr⟩ := bind_eq_ok.mp h
  obtain ⟨hfin, hval⟩ := mul_ok hx hy hp
  obtain ⟨-, -, hrval⟩ := div_ok hfin hz hr
  rw [hrval, hval, roundedShare]

end Context

namespace Position

variable {p deposit borrow : Position} {x : Decimal}

/-- The price of a token of a position, as far as the arithmetic gets to it. -/
def HasPrice (p : Position) : Prop :=
  Context.standard.HasShare p.value.toRat p.unit.toRat p.amount.toRat

def price (p : Position) : ℚ :=
  Context.standard.roundedShare p.value.toRat p.unit.toRat p.amount.toRat

theorem exists_tokenPrice_iff (hp : p.IsSound) : (∃ x, p.tokenPrice = .ok x) ↔ p.HasPrice :=
  Context.exists_share_iff hp.value hp.unit.isNonneg hp.amount

theorem tokenPrice_ok (hp : p.IsSound) (h : p.tokenPrice = .ok x) : x.isFinite ∧ x.toRat = p.price :=
  ⟨(Obligation.isNonneg_of_tokenPrice hp h).1, Context.share_ok hp.value.1 hp.unit.1 hp.amount.1 h⟩

theorem IsSound.price_nonneg (hp : p.IsSound) : 0 ≤ p.price :=
  Context.rounded_nonneg (div_nonneg
    (Context.rounded_nonneg (mul_nonneg hp.value.2 hp.unit.2.le)) hp.amount.2)

/-- The price of one position in tokens of the other can be computed. -/
structure IsPricedIn (borrow deposit : Position) : Prop where
  dividend : borrow.HasPrice
  divisor : deposit.HasPrice
  nonzero : deposit.price ≠ 0
  quotient : borrow.price / deposit.price < Context.standard.overflowBound

theorem exists_ratio_iff (hborrow : borrow.IsSound) (hdeposit : deposit.IsSound) :
    (∃ r, (borrow.tokenPrice >>= fun a => deposit.tokenPrice >>= fun b => Context.standard.div a b) =
      .ok r) ↔ borrow.IsPricedIn deposit := by
  have hdiv {a b : Decimal} (ha : borrow.tokenPrice = .ok a) (hb : deposit.tokenPrice = .ok b) :
      (∃ r, Context.standard.div a b = .ok r) ↔
        deposit.price ≠ 0 ∧ borrow.price / deposit.price < Context.standard.overflowBound := by
    obtain ⟨hafin, haval⟩ := tokenPrice_ok hborrow ha
    obtain ⟨hbfin, hbval⟩ := tokenPrice_ok hdeposit hb
    rw [Context.exists_div_iff hafin hbfin, haval, hbval,
      abs_of_nonneg (div_nonneg hborrow.price_nonneg hdeposit.price_nonneg)]
  constructor
  · rintro ⟨r, hr⟩
    obtain ⟨a, ha, hr⟩ := bind_eq_ok.mp hr
    obtain ⟨b, hb, hr⟩ := bind_eq_ok.mp hr
    obtain ⟨hne, hlt⟩ := (hdiv ha hb).mp ⟨r, hr⟩
    exact ⟨(exists_tokenPrice_iff hborrow).mp ⟨a, ha⟩, (exists_tokenPrice_iff hdeposit).mp ⟨b, hb⟩,
      hne, hlt⟩
  · rintro ⟨hdividend, hdivisor, hne, hlt⟩
    obtain ⟨a, ha⟩ := (exists_tokenPrice_iff hborrow).mpr hdividend
    obtain ⟨b, hb⟩ := (exists_tokenPrice_iff hdeposit).mpr hdivisor
    obtain ⟨r, hr⟩ := (hdiv ha hb).mpr ⟨hne, hlt⟩
    exact ⟨r, bind_eq_ok.mpr ⟨a, ha, bind_eq_ok.mpr ⟨b, hb, hr⟩⟩⟩

end Position

namespace Obligation

variable {o : Obligation} {x total ratio : Decimal}

theorem exists_perDeposit_iff (ho : o.stats.IsSound) (htotal : total.IsNonneg) :
    (∃ x, o.perDeposit total = .ok x) ↔
      total.toRat / o.stats.deposit.toRat < Context.standard.overflowBound := by
  unfold perDeposit
  by_cases hzero : o.stats.deposit.isZero = true
  · rw [if_pos hzero, (isZero_iff ho.deposit.1).mp hzero, div_zero]
    exact ⟨fun _ => Context.overflowBound_pos, fun _ => ⟨_, rfl⟩⟩
  · rw [if_neg hzero, Context.exists_div_iff htotal.1 ho.deposit.1,
      abs_of_nonneg (div_nonneg htotal.2 ho.deposit.2)]
    rw [isZero_iff ho.deposit.1] at hzero
    exact and_iff_right hzero

/-- The two prices that are compared, or one of them, cannot be computed. -/
def LacksRatio (o : Obligation) : Prop :=
  ∃ borrow deposit, o.borrowList = [borrow] ∧ o.depositList = [deposit] ∧ ¬borrow.IsPricedIn deposit

theorem signalsIf_priceRatio (ho : o.IsSound) : o.priceRatio.SignalsIf o.LacksRatio := by
  have hsingle (item : String) (l : List Position) : (single item l).SignalsIf False :=
    .of_meets (meets_single item l)
  refine Result.SignalsIf.congr (.bind (hsingle _ _) fun borrow hborrow => .bind (hsingle _ _)
    fun deposit hdeposit => (?_ : Result.SignalsIf (¬borrow.IsPricedIn deposit) _)) ?_
  · rw [single_eq_ok] at hborrow hdeposit
    have hratio := Position.exists_ratio_iff (ho.borrows borrow (by simp [hborrow]))
      (ho.deposits deposit (by simp [hdeposit]))
    have hlift := Result.SignalsIf.of_exists (hratio.trans not_not.symm)
    simp only [liftM_bind] at hlift
    simpa using hlift
  · simp [LacksRatio, single_eq_ok]

theorem priceRatio_lt (ho : o.IsSound) (h : o.priceRatio = .ok x) :
    x.toRat < Context.standard.overflowBound := by
  simp only [priceRatio, bind_eq_ok, single_eq_ok, liftM_eq_ok] at h
  obtain ⟨borrow, hborrow, deposit, hdeposit, a, ha, b, hb, hx⟩ := h
  have hafin := (isNonneg_of_tokenPrice (ho.borrows borrow (by simp [hborrow])) ha).1
  have hbfin := (isNonneg_of_tokenPrice (ho.deposits deposit (by simp [hdeposit])) hb).1
  obtain ⟨-, hlt⟩ := (Context.exists_div_iff hafin hbfin).mp ⟨x, hx⟩
  obtain ⟨-, -, hval⟩ := Context.div_ok hafin hbfin hx
  rw [hval, Context.rounded_lt_overflowBound_iff]
  exact (le_abs_self _).trans_lt hlt

/-- What a ratio is scaled to for the start of liquidation can be computed. -/
def HasLiquidationRatio (o : Obligation) (ratio : Decimal) : Prop :=
  Context.standard.HasShare ratio.toRat o.stats.liquidationLimit.toRat o.stats.weightedBorrow.toRat

def scaledRatio (o : Obligation) (ratio : Decimal) : ℚ :=
  Context.standard.roundedShare ratio.toRat o.stats.liquidationLimit.toRat o.stats.weightedBorrow.toRat

theorem liquidationRatio_ok {l : Decimal} (ho : o.stats.IsSound) (hratio : ratio.isFinite)
    (h : o.liquidationRatio ratio = .ok l) : l.toRat = o.scaledRatio ratio :=
  Context.share_ok hratio ho.liquidationLimit.1 ho.weightedBorrow.1 h

theorem exists_liquidationRatio_iff (ho : o.stats.IsSound) (hratio : ratio.IsNonneg) :
    (∃ l, o.liquidationRatio ratio = .ok l) ↔ o.HasLiquidationRatio ratio :=
  Context.exists_share_iff hratio ho.liquidationLimit ho.weightedBorrow

end Obligation

theorem FixedPoint.IsStorable.isBetween {t : Decimal} (h : IsStorable t.toRat) :
    IsBetween (-20) 21 t := by
  obtain ⟨hlow, hhigh⟩ := h
  norm_num at hlow hhigh
  refine ⟨isFinite_of_toRat_ne (by linarith), ?_, ?_⟩ <;> norm_num <;> linarith

namespace Condition

variable {c : Condition} {o : Obligation} {x t l : Decimal}

/-- The way to liquidation is rounded to nothing, or the distance is too large beside it. -/
def LacksDistance (x t l : ℚ) : Prop :=
  t < x ∧ t < l ∧ (Context.standard.rounded (l - t) = 0 ∨ Context.standard.overflowBound ≤
    Context.standard.rounded (x - t) / Context.standard.rounded (l - t))

theorem exists_distanceAbove_iff (hx : x.isFinite) (ht : t.IsPos) (hl : l.isFinite)
    (hxlt : x.toRat < Context.standard.overflowBound) (hllt : l.toRat < Context.standard.overflowBound) :
    (∃ r, distanceAbove x t l = .ok r) ↔ ¬LacksDistance x.toRat t.toRat l.toRat := by
  rw [distanceAbove, Decimal.le_eq hx ht.1, Decimal.ge_eq ht.1 hl]
  by_cases hbelow : x.toRat ≤ t.toRat
  · simp [hbelow, LacksDistance]
  by_cases hpast : l.toRat ≤ t.toRat
  · simp [hbelow, hpast, LacksDistance]
  have hpos := ht.2
  rw [not_le] at hbelow hpast
  have hsub {y : Decimal} (hy : y.isFinite) (hty : t.toRat < y.toRat)
      (hlt : y.toRat < Context.standard.overflowBound) : ∃ z, Context.standard.sub y t = .ok z ∧
        z.isFinite ∧ z.toRat = Context.standard.rounded (y.toRat - t.toRat) := by
    obtain ⟨z, hz⟩ := (Context.exists_sub_iff hy ht.1).mpr
      (by rw [abs_of_pos (sub_pos.mpr hty)]; linarith)
    exact ⟨z, hz, Context.sub_ok hy ht.1 hz⟩
  obtain ⟨crossed, hcrossed, hcfin, hcval⟩ := hsub hx hbelow hxlt
  obtain ⟨whole, hwhole, hwfin, hwval⟩ := hsub hl hpast hllt
  have hshare : 0 ≤ crossed.toRat / whole.toRat := by
    rw [hcval, hwval]
    exact div_nonneg (Context.rounded_nonneg (sub_pos.mpr hbelow).le)
      (Context.rounded_nonneg (sub_pos.mpr hpast).le)
  have hdiv := Context.exists_div_iff (c := Context.standard) hcfin hwfin
  rw [abs_of_nonneg hshare, hcval, hwval] at hdiv
  have hsome : (∃ r, (Context.standard.div crossed whole >>= fun d => pure (some d)) = .ok r) ↔
      ∃ d, Context.standard.div crossed whole = .ok d := by
    simp [bind_eq_ok]
  simp only [hbelow.not_ge, hpast.not_ge, decide_false, ok_bind, Bool.false_eq_true, if_false, hcrossed,
    hwhole, hsome, hdiv, LacksDistance, hbelow, hpast, true_and, not_or, not_le, ne_eq]

theorem exists_distanceBelow_of_isBetween (hx : x.IsNonneg) (ht : IsBetween (-20) 21 t) :
    ∃ r, distanceBelow x t = .ok r := by
  rw [distanceBelow, Decimal.ge_eq hx.1 ht.finite]
  by_cases habove : t.toRat ≤ x.toRat
  · exact ⟨none, by simp [habove]⟩
  · have hxwithin : IsWithin 21 x :=
      ⟨hx.1, by rw [abs_of_nonneg hx.2]; exact (not_le.mp habove).le.trans ht.high⟩
    obtain ⟨crossed, hcrossed, hcsize, -⟩ :=
      Context.exists_sub_within ht.isUpTo.isWithin hxwithin (by decide)
    obtain ⟨d, hd, -⟩ :=
      Context.exists_div_within hcsize ht.finite (ht.low.trans (le_abs_self _)) (by decide)
    exact ⟨some d, by simp [habove, hcrossed, hd]⟩

/-- Some number on the way to the value of a condition cannot be computed. -/
def LacksValue (o : Obligation) : Condition → Prop
  | ltvAbove t =>
    Context.standard.overflowBound ≤ o.stats.weightedBorrow.toRat / o.stats.deposit.toRat ∨
    Context.standard.overflowBound ≤ o.stats.liquidationLimit.toRat / o.stats.deposit.toRat ∨
    LacksDistance (Context.standard.rounded (o.stats.weightedBorrow.toRat / o.stats.deposit.toRat)) t.toRat
      (Context.standard.rounded (o.stats.liquidationLimit.toRat / o.stats.deposit.toRat))
  | ltvBelow _ =>
    Context.standard.overflowBound ≤ o.stats.weightedBorrow.toRat / o.stats.deposit.toRat
  | priceRatioAbove t =>
    o.LacksRatio ∨ ∃ ratio, o.priceRatio = .ok ratio ∧
      (¬o.HasLiquidationRatio ratio ∨ LacksDistance ratio.toRat t.toRat (o.scaledRatio ratio))
  | priceRatioBelow _ => o.LacksRatio
  | foreign .. => False

theorem signalsIf_evaluate (ho : o.IsSound) (hstorable : FixedPoint.IsStorable c.threshold.toRat) :
    (c.evaluate o).SignalsIf (c.LacksValue o) := by
  have hltv := Obligation.exists_perDeposit_iff ho.stats ho.stats.weightedBorrow
  have hliquidation := Obligation.exists_perDeposit_iff ho.stats ho.stats.liquidationLimit
  cases c with
  | ltvAbove t =>
    have ht : IsBetween (-20) 21 t := hstorable.isBetween
    refine .bind_liftM (hltv.trans not_le.symm) fun x hx =>
      .bind_liftM (hliquidation.trans not_le.symm) fun l hl => ?_
    obtain ⟨hxs, hxval⟩ := Obligation.perDeposit_ok ho.stats ho.stats.weightedBorrow hx
    obtain ⟨hls, hlval⟩ := Obligation.perDeposit_ok ho.stats ho.stats.liquidationLimit hl
    have hlt := hltv.mp ⟨x, hx⟩
    have hllt := hliquidation.mp ⟨l, hl⟩
    rw [← Context.rounded_lt_overflowBound_iff] at hlt hllt
    rw [← hxval] at hlt ⊢
    rw [← hlval] at hllt ⊢
    simpa using Result.SignalsIf.of_exists (exists_distanceAbove_iff hxs.1 ht.isPos hls.1 hlt hllt)
  | ltvBelow t =>
    have ht : IsBetween (-20) 21 t := hstorable.isBetween
    refine .bind_left (.of_exists (hltv.trans not_le.symm)) fun x hx => ?_
    rw [liftM_eq_ok] at hx
    obtain ⟨hxs, -⟩ := Obligation.perDeposit_ok ho.stats ho.stats.weightedBorrow hx
    obtain ⟨r, hr⟩ := exists_distanceBelow_of_isBetween hxs ht
    rw [hr]
    exact .ok r
  | priceRatioAbove t =>
    have ht : IsBetween (-20) 21 t := hstorable.isBetween
    refine .bind (Obligation.signalsIf_priceRatio ho) fun ratio hratio => ?_
    have hrs := Obligation.isNonneg_of_priceRatio ho hratio
    have hscaled := Obligation.exists_liquidationRatio_iff ho.stats hrs
    refine .bind_liftM (hscaled.trans not_not.symm) fun l hl => ?_
    have hls := Obligation.isNonneg_of_liquidationRatio ho hrs hl
    have hlval := Obligation.liquidationRatio_ok ho.stats hrs.1 hl
    have hllt := (hscaled.mp ⟨l, hl⟩).quotient
    rw [← Context.rounded_lt_overflowBound_iff, ← Context.roundedShare] at hllt
    rw [← hlval]
    simpa using Result.SignalsIf.of_exists (exists_distanceAbove_iff hrs.1 ht.isPos hls.1
      (Obligation.priceRatio_lt ho hratio) (hlval.trans_lt hllt))
  | priceRatioBelow t =>
    have ht : IsBetween (-20) 21 t := hstorable.isBetween
    refine .bind_left (Obligation.signalsIf_priceRatio ho) fun ratio hratio => ?_
    obtain ⟨r, hr⟩ :=
      exists_distanceBelow_of_isBetween (Obligation.isNonneg_of_priceRatio ho hratio) ht
    rw [hr]
    exact .ok r
  | foreign name t => exact .ok _

end Condition

end LoanOrders
