import LoanOrders.Proofs.Distance
import LoanOrders.Proofs.Specification

/-! The order of the two totals of a list of positions, of which one counts each value and the other
its product with a weight. A value that has room in the context is not rounded by itself, so that
its product with a weight stays on its side of it, and every sum keeps the order. -/

namespace LoanOrders

namespace Position

variable {p q : Position}

/-- A value that is not rounded by itself. -/
structure IsKept (p : Position) : Prop where
  value : p.value.IsNonneg
  kept : Context.standard.rounded p.value.toRat = p.value.toRat

theorem isKept_of_tokens {r : Reserve} {tokens price : Given} (h : ofTokens r tokens price = .ok p) :
    p.IsKept := by
  simp only [ofTokens, bind_eq_ok, liftM_eq_ok] at h
  obtain ⟨x, -, amount, -, y, -, value, hproduct, h⟩ := h
  have hvalue : value = p.value := value_of_ofEntries h
  have hsound := isSound_of_read (Validated.result_eq_ok.mp h)
  rw [hvalue] at hproduct
  obtain ⟨hx, hy⟩ := Decimal.isFinite_of_mul hproduct hsound.value.1
  obtain ⟨-, hval⟩ := Context.mul_ok hx hy hproduct
  refine ⟨hsound.value, ?_⟩
  rw [hval, Context.rounded_rounded]

end Position

namespace Reserve

variable {percent : Nat} {w : Decimal}

theorem rate_le_one (h : rate percent = .ok w) (hle : percent ≤ 100) : w.toRat ≤ 1 := by
  have hle' : (percent : ℚ) ≤ 100 := by exact_mod_cast hle
  rw [(rate_eq h).2, ← Condition.rounded_one]
  exact Context.rounded_mono ((div_le_one (by norm_num)).mpr hle')

theorem one_le_rate (h : rate percent = .ok w) (hle : 100 ≤ percent) : 1 ≤ w.toRat := by
  have hle' : (100 : ℚ) ≤ percent := by exact_mod_cast hle
  rw [(rate_eq h).2, ← Condition.rounded_one]
  exact Context.rounded_mono ((one_le_div (by norm_num)).mpr hle')

end Reserve

/-- A relation that sums and roundings keep, such as an order. -/
structure Context.Respects (c : Context) (R : ℚ → ℚ → Prop) : Prop where
  refl : ∀ p, R p p
  add : ∀ {p q r s}, R p q → R r s → R (p + r) (q + s)
  rounded : ∀ {p q}, R p q → R (c.rounded p) (c.rounded q)

theorem Context.respects_le (c : Context) [NeZero c.precision] : c.Respects (· ≤ ·) :=
  ⟨le_refl, add_le_add, rounded_mono⟩

theorem Context.respects_ge (c : Context) [NeZero c.precision] : c.Respects (· ≥ ·) :=
  ⟨le_refl, add_le_add, rounded_mono⟩

namespace Stats

variable {market : Market} {weight : Reserve → Except Signal Decimal} {totals next : Decimal × Decimal}
  {positions : List Position} {p : Position} {R : ℚ → ℚ → Prop}

section Weights

variable (hR : Context.standard.Respects R) (hweight : ∀ r ∈ market.reserves, ∀ w,
  weight r = .ok w → w.isFinite ∧ ∀ v, 0 ≤ v → R v (v * w.toRat))
include hR hweight

theorem related_accumulate (ht : Decimal.Related R totals.1 totals.2) (hp : p.IsKept)
    (h : accumulate market weight totals p = .ok next) : Decimal.Related R next.1 next.2 := by
  simp only [accumulate, bind_eq_ok, liftM_eq_ok, pure_eq_ok, Except.ok.injEq] at h
  obtain ⟨r, hr, total, htotal, w, hw, product, hproduct, weighted, hweighted, rfl⟩ := h
  obtain ⟨hwfin, hvalue⟩ := hweight r (Market.mem_of_reserveAt hr) w hw
  obtain ⟨hproductFin, hproductVal⟩ := Context.mul_ok hp.value.1 hwfin hproduct
  obtain ⟨htotalFin, htotalVal⟩ := Context.add_ok ht.1 hp.value.1 htotal
  obtain ⟨hweightedFin, hweightedVal⟩ := Context.add_ok ht.2.1 hproductFin hweighted
  have hside : R p.value.toRat product.toRat := by
    have hrounded := hR.rounded (hvalue _ hp.value.2)
    rwa [hp.kept, ← hproductVal] at hrounded
  refine ⟨htotalFin, hweightedFin, ?_⟩
  rw [htotalVal, hweightedVal]
  exact hR.rounded (hR.add ht.2.2 hside)

theorem related_foldlM (ht : Decimal.Related R totals.1 totals.2) (hp : ∀ p ∈ positions, p.IsKept)
    (h : positions.foldlM (accumulate market weight) totals = .ok next) :
    Decimal.Related R next.1 next.2 := by
  induction positions generalizing totals with
  | nil =>
    obtain rfl : totals = next := by simpa using h
    exact ht
  | cons first rest ih =>
    rw [List.foldlM_cons] at h
    obtain ⟨middle, hmiddle, hrest⟩ := bind_eq_ok.mp h
    have hstep := related_accumulate hR hweight ht (hp first List.mem_cons_self) hmiddle
    exact ih hstep (fun p hmem => hp p (List.mem_cons_of_mem _ hmem)) hrest

end Weights

/-- What weights do to the totals of an obligation. -/
structure IsOrdered (s : Stats) : Prop where
  limit : Decimal.Related (· ≤ ·) s.liquidationLimit s.deposit
  borrow : Decimal.Related (· ≤ ·) s.borrow s.weightedBorrow

theorem isOrdered_of_compute {deposits borrows : List Position} {s : Stats}
    (hmarket : ∀ r ∈ market.reserves, r.IsSound) (hdeposits : ∀ p ∈ deposits, p.IsKept)
    (hborrows : ∀ p ∈ borrows, p.IsKept) (h : compute market deposits borrows = .ok s) :
    s.IsOrdered := by
  simp only [compute, bind_eq_ok] at h
  obtain ⟨⟨deposit, limit⟩, hdeposit, ⟨borrow, weighted⟩, hborrow, h⟩ := h
  obtain rfl := eq_of_ofEntries h
  have hzero {R : ℚ → ℚ → Prop} (hR : Context.standard.Respects R) :
      Decimal.Related R .zero .zero := ⟨rfl, rfl, hR.refl _⟩
  have hltv (r : Reserve) (hr : r ∈ market.reserves) (w : Decimal) (hw : r.liquidationLtv = .ok w) :
      w.isFinite ∧ ∀ v, 0 ≤ v → v ≥ v * w.toRat :=
    ⟨(Reserve.rate_eq hw).1, fun v hv => mul_le_of_le_one_right hv
      (Reserve.rate_le_one hw (hmarket r hr).liquidationThreshold)⟩
  have hfactor (r : Reserve) (hr : r ∈ market.reserves) (w : Decimal) (hw : r.borrowFactor = .ok w) :
      w.isFinite ∧ ∀ v, 0 ≤ v → v ≤ v * w.toRat :=
    ⟨(Reserve.rate_eq hw).1, fun v hv => le_mul_of_one_le_right hv
      (Reserve.one_le_rate hw (hmarket r hr).borrowFactor)⟩
  have hge := Context.respects_ge .standard
  have hle := Context.respects_le .standard
  obtain ⟨hdepositFin, hlimitFin, hlimitLe⟩ :=
    related_foldlM hge hltv (hzero hge) hdeposits hdeposit
  exact ⟨⟨hlimitFin, hdepositFin, hlimitLe⟩, related_foldlM hle hfactor (hzero hle) hborrows hborrow⟩

end Stats

namespace Obligation

variable {o : Obligation} {total total' x y : Decimal}

theorem perDeposit_mono (ho : o.stats.IsSound) (htotal : total.IsNonneg) (htotal' : total'.IsNonneg)
    (hle : total.toRat ≤ total'.toRat) (hx : o.perDeposit total = .ok x)
    (hy : o.perDeposit total' = .ok y) : Decimal.Related (· ≤ ·) x y := by
  obtain ⟨hxs, hxval⟩ := perDeposit_ok ho htotal hx
  obtain ⟨hys, hyval⟩ := perDeposit_ok ho htotal' hy
  refine ⟨hxs.1, hys.1, ?_⟩
  rw [hxval, hyval]
  exact Context.rounded_mono (div_le_div_of_nonneg_right hle ho.deposit.2)

theorem perDeposit_le_one (ho : o.stats.IsSound) (htotal : total.IsNonneg)
    (hle : total.toRat ≤ o.stats.deposit.toRat) (hx : o.perDeposit total = .ok x) :
    Decimal.Related (· ≤ ·) x .one := by
  obtain ⟨hxs, hxval⟩ := perDeposit_ok ho htotal hx
  refine ⟨hxs.1, rfl, ?_⟩
  rw [hxval, Decimal.toRat_one, ← Condition.rounded_one]
  exact Context.rounded_mono (div_le_one_of_le₀ hle ho.deposit.2)

end Obligation

/-- Deposits are worth at least what they may be borrowed against before liquidation, and a debt
counts at least as what it is worth. No rounding turns this around in the totals of positions that
are made of tokens, and so not in the ratios to the deposits either. -/
theorem Market.totals_ordered {market : Market} {entries : Entries} {deposits borrows : List Position}
    {s : Stats} (hmarket : Market.ofEntries entries = .ok market)
    (hdeposits : ∀ p ∈ deposits, ∃ r tokens price, Position.ofTokens r tokens price = .ok p)
    (hborrows : ∀ p ∈ borrows, ∃ r tokens price, Position.ofTokens r tokens price = .ok p)
    (h : Stats.compute market deposits borrows = .ok s) :
    Decimal.Related (· ≤ ·) s.liquidationLimit s.deposit ∧
    Decimal.Related (· ≤ ·) s.borrow s.weightedBorrow ∧
    ∀ address states o, Obligation.build market address deposits borrows states = .ok o →
      (∀ x, o.liquidationLtv = .ok x → Decimal.Related (· ≤ ·) x .one) ∧
      ∀ x y, o.unweightedLtv = .ok x → o.loanToValue = .ok y → Decimal.Related (· ≤ ·) x y := by
  have hkept {positions : List Position}
      (hall : ∀ p ∈ positions, ∃ r tokens price, Position.ofTokens r tokens price = .ok p) :
      ∀ p ∈ positions, p.IsKept := by
    intro p hp
    obtain ⟨r, tokens, price, hp⟩ := hall p hp
    exact Position.isKept_of_tokens hp
  have hordered := Stats.isOrdered_of_compute (Market.isSound_of_read hmarket) (hkept hdeposits)
    (hkept hborrows) h
  have hsound := Stats.isSound_of_compute h
  refine ⟨hordered.limit, hordered.borrow, fun address states o ho => ?_⟩
  obtain ⟨hstats, -, -⟩ := Obligation.build_ok ho
  obtain rfl : s = o.stats := Except.ok.inj (h.symm.trans hstats)
  exact ⟨fun x hx => Obligation.perDeposit_le_one hsound hsound.liquidationLimit hordered.limit.2.2 hx,
    fun x y hx hy => Obligation.perDeposit_mono hsound hsound.borrow hsound.weightedBorrow
      hordered.borrow.2.2 hx hy⟩

/-- Ten tokens at 100 dollars each, against 85 percent of which 500 dollars are borrowed. -/
theorem Market.totals_ordered_half :
    Decimal.Related (· ≤ ·) (leveraged 10 500).stats.liquidationLimit (.ofNat 1000) ∧
    ∃ x y, (leveraged 10 500).unweightedLtv = .ok x ∧ (leveraged 10 500).loanToValue = .ok y ∧
      Decimal.Related (· ≤ ·) x y := by
  have hmarket : Market.ofEntries longPosition.market.toEntries = .ok longPosition.market := by
    decide +kernel
  have hdeposit : Position.ofTokens ⟨"sol", "SOL", "solMint", 9, 75, 85, 100⟩ (Decimal.ofNat 10)
      (Decimal.ofNat 100) = .ok (solDeposit 10) := by decide +kernel
  have hborrow : Position.ofTokens ⟨"usd", "USD", "usdMint", 6, 80, 90, 100⟩ (Decimal.ofNat 500)
      (Decimal.ofNat 1) = .ok (usdBorrow 500) := by decide +kernel
  have hstats : Stats.compute longPosition.market [solDeposit 10] [usdBorrow 500] =
      .ok (leveraged 10 500).stats := by decide +kernel
  have hbuild : Obligation.build longPosition.market (.text "obligation") [solDeposit 10]
      [usdBorrow 500] none = .ok (leveraged 10 500) := by decide +kernel
  obtain ⟨hlimit, -, hratios⟩ := Market.totals_ordered hmarket
    (fun p hp => ⟨_, _, _, List.mem_singleton.mp hp ▸ hdeposit⟩)
    (fun p hp => ⟨_, _, _, List.mem_singleton.mp hp ▸ hborrow⟩) hstats
  exact ⟨hlimit, _, _, unweightedLtv_half, unweightedLtv_half,
    (hratios _ _ _ hbuild).2 _ _ unweightedLtv_half unweightedLtv_half⟩

end LoanOrders
