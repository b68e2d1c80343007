import LoanOrders.Proofs.Distance
import LoanOrders.Proofs.Size

/-! How large the totals of an obligation can become, however many positions it has: once the last
digit of a total is worth more than any position, no further one makes it larger. -/

namespace LoanOrders

open Decimal

section Sum

variable {j k : ℤ} {x y z : Decimal}

theorem Decimal.IsUpTo.add (hx : IsUpTo j (k + 28) x) (hy : IsUpTo j k y)
    (hj : Context.IsModerate j) (hplace : Context.standard.lowestPlace ≤ k + 1)
    (h : Context.standard.add x y = .ok z) :
    IsUpTo j (k + 28) z ∧ (z.toRat = 0 → x.toRat = 0 ∧ y.toRat = 0) := by
  obtain ⟨hz, hval⟩ := Context.add_ok hx.finite hy.finite h
  by_cases hzero : x.toRat = 0 ∧ y.toRat = 0
  · refine ⟨⟨hz, .inl ?_⟩, fun _ => hzero⟩
    rw [hval, hzero.1, hzero.2, add_zero, Context.rounded_zero]
  · have hlow : 10 ^ j ≤ x.toRat + y.toRat := by
      rw [not_and_or] at hzero
      rcases hzero with hzero | hzero
      · exact (hx.isBetween hzero).low.trans (le_add_of_nonneg_right hy.nonneg)
      · exact (hy.isBetween hzero).low.trans (le_add_of_nonneg_left hx.nonneg)
    have hlast : k + 28 - (Context.standard.precision : ℤ) + 1 = k + 1 := by
      change k + 28 - 28 + 1 = k + 1
      omega
    have hhalf : x.toRat + y.toRat ≤
        10 ^ (k + 28) + 10 ^ (k + 28 - (Context.standard.precision : ℤ) + 1) / 2 := by
      rw [hlast, zpow_add_one₀ (by norm_num)]
      linarith [hx.le, hy.le, ten_zpow_pos k]
    have hbetween : IsBetween j (k + 28) z := by
      refine ⟨hz, ?_, ?_⟩
      · rw [hval]
        exact Context.ten_zpow_le_rounded_of_le hj hlow
      · rw [hval]
        exact Context.rounded_le_of_le_half (by decide) (by rwa [hlast]) hhalf
    exact ⟨hbetween.isUpTo, fun h => absurd h hbetween.pos.ne'⟩

end Sum

/-- A position of which every number lies between `10 ^ -30` and `10 ^ 30`. -/
structure Position.IsOrdinary (p : Position) : Prop where
  unit : IsBetween (-30) 30 p.unit
  amount : IsBetween (-30) 30 p.amount
  value : IsBetween (-30) 30 p.value

theorem Position.IsOrdinary.isSound {p : Position} (hp : p.IsOrdinary) : p.IsSound :=
  ⟨hp.unit.isPos, hp.amount.isPos.isNonneg, hp.value.isPos.isNonneg⟩

namespace Reserve

variable {percent : Nat}

theorem exists_rate (h : percent ≤ 10 ^ 30) :
    ∃ w, rate percent = .ok w ∧ IsUpTo (-2) 28 w ∧ (w.toRat = 0 → percent = 0) := by
  have hhundred : IsBetween 2 2 (.ofNat 100) := by
    constructor
    · rfl
    · norm_num
    · norm_num
  rcases Nat.eq_zero_or_pos percent with rfl | hpos
  · exact ⟨.finite false 0 0, rfl, ⟨rfl, .inl (by simp [Context.signed])⟩, fun _ => rfl⟩
  · have hpercent : IsBetween 0 30 (.ofNat percent) := by
      refine ⟨rfl, ?_, ?_⟩
      · rw [toRat_ofNat, zpow_zero]
        exact_mod_cast hpos
      · rw [toRat_ofNat]
        exact_mod_cast h
    obtain ⟨w, hw, hbetween⟩ := Context.exists_div_between hpercent hhundred (by decide) (by decide)
    exact ⟨w, hw, hbetween.isUpTo, fun h => absurd h hbetween.pos.ne'⟩

end Reserve

namespace Stats

variable {market : Market} {weight : Reserve → Except Signal Decimal} {totals next : Decimal × Decimal}
  {positions : List Position} {p : Position}

structure IsTotals (totals : Decimal × Decimal) : Prop where
  value : IsUpTo (-30) 58 totals.1
  weighted : IsUpTo (-32) 86 totals.2

section Weights

variable (hweight : ∀ r ∈ market.reserves, ∀ w, weight r = .ok w → IsUpTo (-2) 28 w)
include hweight

theorem IsTotals.accumulate (ht : IsTotals totals) (hp : p.IsOrdinary)
    (h : accumulate market weight totals p = .ok next) :
    IsTotals next ∧ (next.2.toRat = 0 → totals.2.toRat = 0 ∧
      ∃ r ∈ market.reserves, ∃ w, weight r = .ok w ∧ w.toRat = 0) := by
  simp only [Stats.accumulate, bind_eq_ok, liftM_eq_ok, pure_eq_ok, Except.ok.injEq] at h
  obtain ⟨r, hr, total, htotal, w, hw, product, hproduct, weighted, hweighted, rfl⟩ := h
  have hmem := Market.mem_of_reserveAt hr
  have hwsize := hweight r hmem w hw
  obtain ⟨product', hproduct', hsize, hzero⟩ :=
    Context.exists_mul_upTo hp.value.isUpTo hwsize (by decide) (by decide)
  obtain rfl : product' = product := Except.ok.inj (hproduct'.symm.trans hproduct)
  obtain ⟨hvalue, -⟩ := ht.value.add hp.value.isUpTo (by decide) (by decide) htotal
  obtain ⟨hsum, hsumZero⟩ := ht.weighted.add hsize (by decide) (by decide) hweighted
  refine ⟨⟨hvalue, hsum⟩, fun h => ⟨(hsumZero h).1, r, hmem, w, hw, ?_⟩⟩
  exact (hzero (hsumZero h).2).resolve_left hp.value.pos.ne'

theorem IsTotals.foldlM (ht : IsTotals totals) (hp : ∀ p ∈ positions, p.IsOrdinary)
    (h : positions.foldlM (Stats.accumulate market weight) totals = .ok next) :
    IsTotals next ∧ (next.2.toRat = 0 → totals.2.toRat = 0 ∧
      ∀ p ∈ positions, ∃ r ∈ market.reserves, ∃ w, weight r = .ok w ∧ w.toRat = 0) := by
  induction positions generalizing totals with
  | nil =>
    obtain rfl : totals = next := by simpa using h
    exact ⟨ht, fun h => ⟨h, fun p hp => absurd hp List.not_mem_nil⟩⟩
  | cons first rest ih =>
    rw [List.foldlM_cons] at h
    obtain ⟨middle, hmiddle, hrest⟩ := bind_eq_ok.mp h
    obtain ⟨hstep, hstepZero⟩ := ht.accumulate hweight (hp first List.mem_cons_self) hmiddle
    obtain ⟨hend, hendZero⟩ := ih hstep (fun p hmem => hp p (List.mem_cons_of_mem _ hmem)) hrest
    refine ⟨hend, fun hzero => ⟨(hstepZero (hendZero hzero).1).1, fun p hmem => ?_⟩⟩
    rcases List.mem_cons.mp hmem with rfl | hmem
    · exact (hstepZero (hendZero hzero).1).2
    · exact (hendZero hzero).2 p hmem

end Weights

end Stats

namespace Obligation

/-- An obligation with ordinary positions, whose totals are therefore limited. -/
structure IsOrdinary (o : Obligation) : Prop where
  deposits : ∀ p ∈ o.depositList, p.IsOrdinary
  borrows : ∀ p ∈ o.borrowList, p.IsOrdinary
  deposit : IsUpTo (-30) 58 o.stats.deposit
  borrow : IsUpTo (-30) 58 o.stats.borrow
  weighted : IsUpTo (-32) 86 o.stats.weightedBorrow
  limit : IsUpTo (-32) 86 o.stats.liquidationLimit
  weighted_ne : o.borrowList ≠ [] → o.stats.weightedBorrow.toRat ≠ 0

variable {o : Obligation}

theorem IsOrdinary.isSound (ho : o.IsOrdinary) : o.IsSound :=
  ⟨⟨ho.deposit.isNonneg, ho.borrow.isNonneg, ho.weighted.isNonneg, ho.limit.isNonneg⟩,
    fun p hp => (ho.deposits p hp).isSound, fun p hp => (ho.borrows p hp).isSound⟩

theorem isOrdinary_of_build {market : Market} {address : Data} {deposits borrows : List Position}
    {states : Option (List SlotState)} (hmarket : ∀ r ∈ market.reserves, r.IsSound)
    (hfactor : ∀ r ∈ market.reserves, r.borrowFactorPct ≤ 10 ^ 30)
    (hdeposits : ∀ p ∈ deposits, p.IsOrdinary) (hborrows : ∀ p ∈ borrows, p.IsOrdinary)
    (h : build market address deposits borrows states = .ok o) : o.IsOrdinary := by
  obtain ⟨hstats, hd, hb⟩ := build_ok h
  simp only [Stats.compute, bind_eq_ok] at hstats
  obtain ⟨⟨deposit, limit⟩, hdeposit, ⟨borrow, weighted⟩, hborrow, hstats⟩ := hstats
  have hs := Stats.eq_of_ofEntries hstats
  have hzero : Stats.IsTotals (Decimal.zero, Decimal.zero) := ⟨.zero, .zero⟩
  have hrate {percent : Nat} {w : Decimal} (hle : percent ≤ 10 ^ 30) (hw : Reserve.rate percent = .ok w) :
      IsUpTo (-2) 28 w ∧ (w.toRat = 0 → percent = 0) := by
    obtain ⟨w', hw', hsize⟩ := Reserve.exists_rate hle
    obtain rfl : w' = w := Except.ok.inj (hw'.symm.trans hw)
    exact hsize
  have hltvs : ∀ r ∈ market.reserves, ∀ w, r.liquidationLtv = .ok w → IsUpTo (-2) 28 w :=
    fun r hr w hw => (hrate ((hmarket r hr).liquidationThreshold.trans (by norm_num)) hw).1
  have hfactors : ∀ r ∈ market.reserves, ∀ w, r.borrowFactor = .ok w → IsUpTo (-2) 28 w :=
    fun r hr w hw => (hrate (hfactor r hr) hw).1
  obtain ⟨hdepositTotals, -⟩ := hzero.foldlM hltvs hdeposits hdeposit
  obtain ⟨hborrowTotals, hweighted⟩ := hzero.foldlM hfactors hborrows hborrow
  refine ⟨?_, ?_, hs ▸ hdepositTotals.value, hs ▸ hborrowTotals.value, hs ▸ hborrowTotals.weighted,
    hs ▸ hdepositTotals.weighted, fun hne => hs ▸ fun hzero => ?_⟩
  · rw [depositList, hd]
    exact fun p hp => hdeposits p (mem_of_mem_keyed hp)
  · rw [borrowList, hb]
    exact fun p hp => hborrows p (mem_of_mem_keyed hp)
  · obtain ⟨p, hp⟩ := List.exists_mem_of_ne_nil _ hne
    rw [borrowList, hb] at hp
    obtain ⟨r, hr, w, hw, hw₀⟩ := (hweighted hzero).2 p (mem_of_mem_keyed hp)
    have hpercent := (hrate (hfactor r hr) hw).2 hw₀
    have := (hmarket r hr).borrowFactor
    omega

end Obligation

end LoanOrders
