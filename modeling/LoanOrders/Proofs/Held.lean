import LoanOrders.Proofs.Size

/-! The positions that an obligation holds and the totals that it has. All positions of a list count in the
totals, while a position is replaced by a later one of its reserve. The two agree for lists that name each
reserve once, and otherwise only if what is replaced is worth nothing. -/

namespace LoanOrders

namespace Obligation

variable {positions : List Position}

/-- The positions that no later one of their reserve replaces. -/
def latest : List Position → List Position
  | [] => []
  | p :: rest => if p.reserve ∈ rest.map Position.reserve then latest rest else p :: latest rest

/-- The positions that a later one of their reserve replaces. -/
def replaced : List Position → List Position
  | [] => []
  | p :: rest => if p.reserve ∈ rest.map Position.reserve then p :: replaced rest else replaced rest

theorem latest_append_replaced_perm : (latest positions ++ replaced positions).Perm positions := by
  induction positions with
  | nil => rfl
  | cons p rest ih =>
    by_cases h : p.reserve ∈ rest.map Position.reserve
    · rw [latest, replaced, if_pos h, if_pos h]
      exact List.perm_middle.trans (ih.cons p)
    · rw [latest, replaced, if_neg h, if_neg h]
      exact ih.cons p

theorem mem_of_mem_latest {p : Position} (h : p ∈ latest positions) : p ∈ positions :=
  latest_append_replaced_perm.subset (List.mem_append_left _ h)

theorem mem_of_mem_replaced {p : Position} (h : p ∈ replaced positions) : p ∈ positions :=
  latest_append_replaced_perm.subset (List.mem_append_right _ h)

theorem nodup_latest : ((latest positions).map Position.reserve).Nodup := by
  induction positions with
  | nil => exact List.nodup_nil
  | cons p rest ih =>
    by_cases h : p.reserve ∈ rest.map Position.reserve
    · rwa [latest, if_pos h]
    · rw [latest, if_neg h, List.map_cons, List.nodup_cons]
      refine ⟨fun hmem => h ?_, ih⟩
      obtain ⟨q, hq, hreserve⟩ := List.mem_map.mp hmem
      exact List.mem_map.mpr ⟨q, mem_of_mem_latest hq, hreserve⟩

def entry (p : Position) : String × Position := (p.reserve, p)

theorem map_snd_entry : (positions.map entry).map Prod.snd = positions := by
  rw [List.map_map]
  exact List.map_id positions

theorem map_fst_entry : (positions.map entry).map Prod.fst = positions.map Position.reserve := by
  rw [List.map_map]
  rfl

/-- Setting the positions of a list one after the other replaces the entries of their reserves. -/
theorem foldl_put_perm (entries : List (String × Position)) (h : (entries.map Prod.fst).Nodup) :
    ((positions.map entry).foldl (fun entries pair => Assoc.put (· == ·) entries pair.1 pair.2)
        entries).Perm
      (entries.filter (fun e => e.1 ∉ positions.map Position.reserve) ++ (latest positions).map entry) := by
  induction positions generalizing entries with
  | nil => simp [latest]
  | cons p rest ih =>
    rw [List.map_cons, List.foldl_cons]
    have hput := (Assoc.put_perm p.reserve p h).filter
      (fun e => e.1 ∉ rest.map Position.reserve)
    have hkept : (entries.filter (fun e => e.1 != p.reserve)).filter
        (fun e => e.1 ∉ rest.map Position.reserve) =
        entries.filter (fun e => e.1 ∉ (p :: rest).map Position.reserve) := by
      rw [List.filter_filter]
      congr 1
      funext e
      rw [Bool.eq_iff_iff]
      simp [and_comm]
    refine (ih _ (Assoc.nodup_put h)).trans ((hput.append_right _).trans ?_)
    rw [List.filter_append, hkept, List.append_assoc]
    by_cases hlater : p.reserve ∈ rest.map Position.reserve
    · rw [latest, if_pos hlater, List.filter_cons_of_neg (by simpa using hlater)]
      rfl
    · rw [latest, if_neg hlater, List.filter_cons_of_pos (by simpa using hlater)]
      rfl

theorem keyed_perm (positions : List Position) : (keyed positions).Perm ((latest positions).map entry) :=
  foldl_put_perm [] List.nodup_nil

theorem held_perm (positions : List Position) : ((keyed positions).map Prod.snd).Perm (latest positions) := by
  have h := (keyed_perm positions).map Prod.snd
  rwa [map_snd_entry] at h

theorem held_eq_self_iff :
    (keyed positions).map Prod.snd = positions ↔ (positions.map Position.reserve).Nodup := by
  constructor
  · intro h
    have hperm := held_perm positions
    rw [h] at hperm
    exact (hperm.map Position.reserve).nodup_iff.mpr nodup_latest
  · intro h
    have hself : keyed positions = positions.map entry :=
      Assoc.ofList_eq_self (map_fst_entry.symm ▸ h)
    rw [hself, map_snd_entry]

/-- What is summed over all positions that are listed, but not over those that are held. -/
theorem sum_held_add_sum_replaced (positions : List Position) (f : Position → ℕ) :
    (((keyed positions).map Prod.snd).map f).sum + ((replaced positions).map f).sum =
      (positions.map f).sum := by
  rw [((held_perm positions).map f).sum_eq, ← List.sum_append, ← List.map_append]
  exact (latest_append_replaced_perm.map f).sum_eq

end Obligation

theorem Reserve.rate_ok {percent : Nat} {w : Decimal} (h : rate percent = .ok w) :
    w.isFinite ∧ (percent < 10 ^ 28 → w.toRat = percent * 10 ^ (-2 : ℤ)) := by
  obtain ⟨hfin, hval⟩ := rate_eq h
  refine ⟨hfin, fun hlt => ?_⟩
  have hexact := Context.rounded_eq_self_of_lt (c := .standard) (n := percent) (k := -2)
    (by rw [Nat.abs_cast]; exact_mod_cast hlt) (by decide)
  rw [hval, ← Int.cast_natCast, ← hexact]
  norm_num [div_eq_mul_inv]

/-- Some percent of a number of units. Of nothing it is nothing, even if the percentage is rounded. -/
theorem Decimal.IsUnits.exists_mul_rate {x w : Decimal} {u percent : Nat} {k : ℤ}
    (hx : IsUnits u k x) (hk : |k - 2| ≤ 9500) (hw : Reserve.rate percent = .ok w)
    (h : u * percent < 10 ^ 28) :
    ∃ z, Context.standard.mul x w = .ok z ∧ IsUnits (u * percent) (k - 2) z := by
  obtain ⟨hwfin, hwval⟩ := Reserve.rate_ok hw
  rcases Nat.eq_zero_or_pos u with rfl | hu
  · have hzero : x.toRat * w.toRat = 0 := by simp [hx.value]
    obtain ⟨z, hz⟩ := Context.exists_mul (c := .standard) hx.finite hwfin
      (by rw [hzero, abs_zero]; exact ten_zpow_pos _)
    obtain ⟨hfin, hval⟩ := Context.mul_ok hx.finite hwfin hz
    exact ⟨z, hz, hfin, by simp [hval, hzero]⟩
  · have hpercent : percent < 10 ^ 28 := (Nat.le_mul_of_pos_left percent hu).trans_lt h
    have hwUnits : IsUnits percent (-2) w := ⟨hwfin, hwval hpercent⟩
    exact hx.exists_mul hwUnits h hk

/-- The percentage of the reserve of a position. -/
def Market.percentOf (market : Market) (percent : Reserve → Nat) (p : Position) : Nat :=
  match market.reserveAt p.reserve with
  | .ok r => percent r
  | .error _ => 0

namespace Stats

variable {market : Market} {percent : Reserve → Nat} {k : ℤ} {units : Position → Nat} {m n : Nat}
  {totals next : Decimal × Decimal} {positions : List Position} {p : Position}

/-- Totals of a number of units, and of hundredths of a unit. -/
structure HasUnits (k : ℤ) (m n : Nat) (totals : Decimal × Decimal) : Prop where
  total_finite : totals.1.isFinite
  total : totals.1.toRat = m * 10 ^ k
  weighted_finite : totals.2.isFinite
  weighted : totals.2.toRat = n * 10 ^ (k - 2)

/-- Values in units, so few of them that no sum is rounded. -/
structure IsExact (market : Market) (percent : Reserve → Nat) (positions : List Position) (k : ℤ)
    (units : Position → Nat) : Prop where
  moderate : |k| ≤ 9000
  value : ∀ p ∈ positions, p.value.isFinite ∧ p.value.toRat = units p * 10 ^ k
  total : (positions.map units).sum < 10 ^ 28
  weighted : (positions.map fun p => units p * market.percentOf percent p).sum < 10 ^ 28

theorem HasUnits.accumulate (ht : HasUnits k m n totals) (hk : |k| ≤ 9000) {u : Nat} {r : Reserve}
    {w : Decimal} (hp : p.value.isFinite) (hval : p.value.toRat = u * 10 ^ k)
    (hr : market.reserveAt p.reserve = .ok r) (hw : Reserve.rate (percent r) = .ok w)
    (hm : m + u < 10 ^ 28) (hn : n + u * percent r < 10 ^ 28) :
    ∃ next, accumulate market (fun r => Reserve.rate (percent r)) totals p = .ok next ∧
      HasUnits k (m + u) (n + u * percent r) next := by
  have hk₂ : |k - 2| ≤ 9500 := by
    rw [abs_le] at hk ⊢
    omega
  have hunits : Decimal.IsUnits u k p.value := ⟨hp, hval⟩
  obtain ⟨total, htotal, htotalUnits⟩ :=
    Decimal.IsUnits.exists_add ⟨ht.total_finite, ht.total⟩ hunits hm (hk.trans (by norm_num))
  obtain ⟨product, hproduct, hproductUnits⟩ := hunits.exists_mul_rate hk₂ hw (by omega)
  obtain ⟨weighted, hweighted, hweightedUnits⟩ :=
    Decimal.IsUnits.exists_add ⟨ht.weighted_finite, ht.weighted⟩ hproductUnits hn hk₂
  refine ⟨(total, weighted), ?_, htotalUnits.finite, htotalUnits.value, hweightedUnits.finite,
    hweightedUnits.value⟩
  simp only [Stats.accumulate, hr, htotal, hw, hproduct, hweighted, liftM_ok, ok_bind, pure_eq_ok]

/-- Positions of which nothing is lost when they are added up. -/
theorem HasUnits.foldlM (ht : HasUnits k m n totals) (hk : |k| ≤ 9000)
    (hvalue : ∀ p ∈ positions, p.value.isFinite ∧ p.value.toRat = units p * 10 ^ k)
    (hknown : ∀ p ∈ positions, ∃ r w, market.reserveAt p.reserve = .ok r ∧ Reserve.rate (percent r) = .ok w)
    (hm : m + (positions.map units).sum < 10 ^ 28)
    (hn : n + (positions.map fun p => units p * market.percentOf percent p).sum < 10 ^ 28) :
    ∃ next, positions.foldlM (Stats.accumulate market fun r => Reserve.rate (percent r)) totals = .ok next ∧
      HasUnits k (m + (positions.map units).sum)
        (n + (positions.map fun p => units p * market.percentOf percent p).sum) next := by
  induction positions generalizing totals m n with
  | nil => exact ⟨totals, rfl, by simpa using ht⟩
  | cons p rest ih =>
    obtain ⟨r, w, hr, hw⟩ := hknown p (by simp)
    obtain ⟨hp, hval⟩ := hvalue p (by simp)
    have hpercent : market.percentOf percent p = percent r := by rw [Market.percentOf, hr]
    simp only [List.map_cons, List.sum_cons, hpercent] at hm hn ⊢
    obtain ⟨middle, hmiddle, hunits⟩ := ht.accumulate hk hp hval hr hw (by omega) (by omega)
    obtain ⟨next, hnext, hall⟩ := ih hunits (fun q hq => hvalue q (by simp [hq]))
      (fun q hq => hknown q (by simp [hq])) (by omega) (by omega)
    rw [add_assoc, add_assoc] at hall
    exact ⟨next, by rw [List.foldlM_cons, hmiddle, ok_bind, hnext], hall⟩

theorem known_of_foldlM {weight : Reserve → Except Signal Decimal}
    (h : positions.foldlM (Stats.accumulate market weight) totals = .ok next) :
    ∀ p ∈ positions, ∃ r w, market.reserveAt p.reserve = .ok r ∧ weight r = .ok w := by
  induction positions generalizing totals with
  | nil => simp
  | cons p rest ih =>
    rw [List.foldlM_cons] at h
    obtain ⟨middle, hmiddle, hrest⟩ := bind_eq_ok.mp h
    simp only [Stats.accumulate, bind_eq_ok, liftM_eq_ok] at hmiddle
    obtain ⟨r, hr, _, -, w, hw, -⟩ := hmiddle
    intro q hq
    rcases List.mem_cons.mp hq with rfl | hq
    · exact ⟨r, w, hr, hw⟩
    · exact ih hrest q hq

/-- What the held positions add up to, beside what all the positions that are listed do. -/
theorem IsExact.exists_held (hexact : IsExact market percent positions k units)
    (h : positions.foldlM (Stats.accumulate market fun r => Reserve.rate (percent r)) (.zero, .zero) =
      .ok totals) :
    ∃ held, ((Obligation.keyed positions).map Prod.snd).foldlM
        (Stats.accumulate market fun r => Reserve.rate (percent r)) (.zero, .zero) = .ok held ∧
      held.1.IsNonneg ∧ held.2.IsNonneg ∧
      (held.1.toRat = totals.1.toRat ∧ held.2.toRat = totals.2.toRat ↔
        ∀ p ∈ Obligation.replaced positions, p.value.toRat = 0) := by
  have hzero : HasUnits k 0 0 (Decimal.zero, Decimal.zero) := ⟨rfl, by simp, rfl, by simp⟩
  have hknown := known_of_foldlM h
  have hmem : ∀ p ∈ (Obligation.keyed positions).map Prod.snd, p ∈ positions := fun p hp =>
    Obligation.mem_of_mem_keyed hp
  have htotal := Obligation.sum_held_add_sum_replaced positions units
  have hweighted := Obligation.sum_held_add_sum_replaced positions
    fun p => units p * market.percentOf percent p
  have htotal₀ := hexact.total
  have hweighted₀ := hexact.weighted
  obtain ⟨all, hall, hallUnits⟩ := hzero.foldlM hexact.moderate hexact.value hknown (by omega) (by omega)
  obtain ⟨held, hheld, hheldUnits⟩ := hzero.foldlM hexact.moderate
    (fun p hp => hexact.value p (hmem p hp)) (fun p hp => hknown p (hmem p hp)) (by omega) (by omega)
  obtain rfl : all = totals := Except.ok.inj (hall.symm.trans h)
  have hunit {j : ℤ} (a b : Nat) : (a : ℚ) * 10 ^ j = b * 10 ^ j ↔ a = b := by
    rw [mul_left_inj' (ten_zpow_pos j).ne', Nat.cast_inj]
  have hworthless : ∀ p ∈ Obligation.replaced positions, p.value.toRat = 0 ↔ units p = 0 := by
    intro p hp
    have hval := (hexact.value p (Obligation.mem_of_mem_replaced hp)).2
    rw [hval, mul_eq_zero_iff_right (ten_zpow_pos k).ne', Nat.cast_eq_zero]
  refine ⟨held, hheld, ⟨hheldUnits.total_finite, ?_⟩, ⟨hheldUnits.weighted_finite, ?_⟩, ?_⟩
  · rw [hheldUnits.total]
    exact mul_nonneg (Nat.cast_nonneg _) (ten_zpow_pos k).le
  · rw [hheldUnits.weighted]
    exact mul_nonneg (Nat.cast_nonneg _) (ten_zpow_pos _).le
  rw [hheldUnits.total, hheldUnits.weighted, hallUnits.total, hallUnits.weighted, hunit, hunit]
  constructor
  · rintro ⟨hsame, -⟩
    have hsum : ((Obligation.replaced positions).map units).sum = 0 := by omega
    intro p hp
    exact (hworthless p hp).mpr (List.sum_eq_zero_iff.mp hsum _ (List.mem_map_of_mem hp))
  · intro h
    have hunits : ∀ p ∈ Obligation.replaced positions, units p = 0 := fun p hp =>
      (hworthless p hp).mp (h p hp)
    have hsum : ((Obligation.replaced positions).map units).sum = 0 := by
      rw [List.sum_eq_zero_iff]
      simpa using hunits
    have hsum' : ((Obligation.replaced positions).map
        fun p => units p * market.percentOf percent p).sum = 0 := by
      rw [List.sum_eq_zero_iff]
      intro x hx
      obtain ⟨p, hp, rfl⟩ := List.mem_map.mp hx
      rw [hunits p hp, zero_mul]
    omega

end Stats

namespace Stats

/-- Totals of one size. -/
structure Agrees (s t : Stats) : Prop where
  deposit : s.deposit.toRat = t.deposit.toRat
  borrow : s.borrow.toRat = t.borrow.toRat
  weightedBorrow : s.weightedBorrow.toRat = t.weightedBorrow.toRat
  liquidationLimit : s.liquidationLimit.toRat = t.liquidationLimit.toRat

end Stats

namespace Obligation

variable {market : Market} {address : Data} {deposits borrows : List Position}
  {states : Option (List SlotState)} {o : Obligation}

/-- An obligation holds the positions that are listed, and has their totals, exactly if no two of one side
are in one reserve. Totals that are not rounded are those of the held positions exactly if the positions
that are replaced are worth nothing. -/
theorem stats_of_build (h : build market address deposits borrows states = .ok o) :
    (o.depositList = deposits ↔ (deposits.map Position.reserve).Nodup) ∧
    (o.borrowList = borrows ↔ (borrows.map Position.reserve).Nodup) ∧
    ((deposits.map Position.reserve).Nodup → (borrows.map Position.reserve).Nodup →
      Stats.compute market o.depositList o.borrowList = .ok o.stats) ∧
    ∀ j k depositUnits borrowUnits,
      Stats.IsExact market Reserve.liquidationThresholdPct deposits j depositUnits →
      Stats.IsExact market Reserve.borrowFactorPct borrows k borrowUnits →
      ∃ s, Stats.compute market o.depositList o.borrowList = .ok s ∧
        (s.Agrees o.stats ↔ (∀ p ∈ replaced deposits, p.value.toRat = 0) ∧
          ∀ p ∈ replaced borrows, p.value.toRat = 0) := by
  obtain ⟨hstats, hd, hb⟩ := build_ok h
  have hdepositList : o.depositList = (keyed deposits).map Prod.snd := by rw [depositList, hd]
  have hborrowList : o.borrowList = (keyed borrows).map Prod.snd := by rw [borrowList, hb]
  rw [hdepositList, hborrowList]
  refine ⟨held_eq_self_iff, held_eq_self_iff, fun hdeposits hborrows => ?_, ?_⟩
  · rwa [held_eq_self_iff.mpr hdeposits, held_eq_self_iff.mpr hborrows]
  · intro j k depositUnits borrowUnits hdeposits hborrows
    simp only [Stats.compute, bind_eq_ok] at hstats
    obtain ⟨⟨deposit, limit⟩, hdeposit, ⟨borrow, weighted⟩, hborrow, hstats⟩ := hstats
    have heq := Stats.eq_of_ofEntries hstats
    obtain ⟨heldDeposits, hheldDeposits, hdepositSound, hlimitSound, hdepositIff⟩ :=
      hdeposits.exists_held hdeposit
    obtain ⟨heldBorrows, hheldBorrows, hborrowSound, hweightedSound, hborrowIff⟩ :=
      hborrows.exists_held hborrow
    refine ⟨⟨heldDeposits.1, heldBorrows.1, heldBorrows.2, heldDeposits.2⟩, ?_, ?_⟩
    · have hread := Stats.ofEntries_toEntries (s := ⟨heldDeposits.1, heldBorrows.1, heldBorrows.2,
        heldDeposits.2⟩) ⟨hdepositSound, hborrowSound, hweightedSound, hlimitSound⟩
      exact bind_eq_ok.mpr ⟨heldDeposits, hheldDeposits, bind_eq_ok.mpr ⟨heldBorrows, hheldBorrows, hread⟩⟩
    · rw [← hdepositIff, ← hborrowIff, ← heq]
      constructor
      · rintro ⟨hdeposit, hborrow, hweighted, hlimit⟩
        exact ⟨⟨hdeposit, hlimit⟩, hborrow, hweighted⟩
      · rintro ⟨⟨hdeposit, hlimit⟩, hborrow, hweighted⟩
        exact ⟨hdeposit, hborrow, hweighted, hlimit⟩

/-- Ten tokens are listed, and then five of the same. -/
def listedTwice : Obligation :=
  { leveraged 5 500 with stats := ⟨.ofNat 1500, .ofNat 500, .ofNat 500, .finite false 127500 (-2)⟩ }

theorem build_listedTwice : build longPosition.market (.text "obligation") [solDeposit 10, solDeposit 5]
    [usdBorrow 500] none = .ok listedTwice := by
  decide +kernel

/-- Five tokens at 100 dollars are held, and 1500 dollars are counted. -/
theorem stats_of_listedTwice :
    build longPosition.market (.text "obligation") [solDeposit 10, solDeposit 5] [usdBorrow 500] none =
      .ok listedTwice ∧ listedTwice.depositList = [solDeposit 5] ∧
    ∃ s, Stats.compute longPosition.market listedTwice.depositList listedTwice.borrowList = .ok s ∧
      s.deposit = .ofNat 500 ∧ listedTwice.stats.deposit = .ofNat 1500 ∧ ¬s.Agrees listedTwice.stats := by
  have hstats : Stats.compute longPosition.market listedTwice.depositList listedTwice.borrowList =
      .ok ⟨.ofNat 500, .ofNat 500, .ofNat 500, .finite false 42500 (-2)⟩ := by
    decide +kernel
  refine ⟨build_listedTwice, rfl, _, hstats, rfl, rfl, fun h => ?_⟩
  have hdeposit := h.deposit
  norm_num [listedTwice] at hdeposit

/-- The number of dollars that a position is worth, if that is written without an exponent. -/
def dollars (p : Position) : Nat :=
  match p.value with
  | .finite false m 0 => m
  | _ => 0

/-- One deposit is held with its totals, and two of one reserve are not. -/
theorem stats_of_build_sol :
    Stats.compute longPosition.market (leveraged 10 500).depositList (leveraged 10 500).borrowList =
      .ok (leveraged 10 500).stats ∧
    ∃ s, Stats.compute longPosition.market listedTwice.depositList listedTwice.borrowList = .ok s ∧
      ¬s.Agrees listedTwice.stats := by
  have hbuild : build longPosition.market (.text "obligation") [solDeposit 10] [usdBorrow 500] none =
      .ok (leveraged 10 500) := by
    decide +kernel
  obtain ⟨-, -, hheld, -⟩ := stats_of_build hbuild
  obtain ⟨-, -, -, hexact⟩ := stats_of_build build_listedTwice
  have hdeposits : Stats.IsExact longPosition.market Reserve.liquidationThresholdPct
      [solDeposit 10, solDeposit 5] 0 dollars := by
    refine ⟨by norm_num, ?_, by decide +kernel, by decide +kernel⟩
    intro p hp
    rcases List.mem_pair.mp hp with rfl | rfl
    · exact ⟨rfl, by norm_num [solDeposit, dollars, Decimal.ofNat, Context.signed]⟩
    · exact ⟨rfl, by norm_num [solDeposit, dollars, Decimal.ofNat, Context.signed]⟩
  have hborrows : Stats.IsExact longPosition.market Reserve.borrowFactorPct [usdBorrow 500] 0
      dollars := by
    refine ⟨by norm_num, ?_, by decide +kernel, by decide +kernel⟩
    intro p hp
    rw [List.mem_singleton.mp hp]
    exact ⟨rfl, by norm_num [usdBorrow, dollars, Decimal.ofNat, Context.signed]⟩
  obtain ⟨s, hs, hiff⟩ := hexact 0 0 _ _ hdeposits hborrows
  refine ⟨hheld (by decide) (by decide), s, hs, fun h => ?_⟩
  have hworthless := (hiff.mp h).1 (solDeposit 10) (by decide)
  norm_num [solDeposit] at hworthless

end Obligation

end LoanOrders
