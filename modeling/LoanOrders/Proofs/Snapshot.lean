import LoanOrders.Family.Basic
import LoanOrders.Proofs.Reading

/-! What a snapshot can hold: the limits of its fields, and numbers that are finite and have the sign
that their fields ask for. The totals of an obligation pass the same checks when they are computed, and
what passes them is read from its own entries. -/

namespace LoanOrders

namespace Decimal

def IsNonneg (x : Decimal) : Prop := x.isFinite ∧ 0 ≤ x.toRat

def IsPos (x : Decimal) : Prop := x.isFinite ∧ 0 < x.toRat

theorem IsPos.isNonneg {x : Decimal} (h : x.IsPos) : x.IsNonneg := ⟨h.1, h.2.le⟩

theorem isNonneg_zero : IsNonneg zero := ⟨rfl, by simp⟩

end Decimal

namespace Data

variable {d : Data} {x : Decimal}

theorem isNonneg_of_asDecimal (h : asDecimal .nonnegative d = .valid x) : x.IsNonneg :=
  have hx := asDecimal_eq_valid h
  ⟨hx.1, (Bound.check_nonnegative hx.1).mp hx.2⟩

theorem isPos_of_asDecimal (h : asDecimal .positive d = .valid x) : x.IsPos :=
  have hx := asDecimal_eq_valid h
  ⟨hx.1, (Bound.check_positive hx.1).mp hx.2⟩

theorem asDecimal_of_isNonneg (hx : x.IsNonneg) :
    asDecimal .nonnegative (.decimal x) = .valid x :=
  asDecimal_of_check hx.1 ((Bound.check_nonnegative hx.1).mpr hx.2)

theorem asDecimal_of_isPos (hx : x.IsPos) : asDecimal .positive (.decimal x) = .valid x :=
  asDecimal_of_check hx.1 ((Bound.check_positive hx.1).mpr hx.2)

end Data

structure Reserve.IsSound (r : Reserve) : Prop where
  loanToValue : r.loanToValuePct ≤ 100
  liquidationThreshold : r.liquidationThresholdPct ≤ 100
  borrowFactor : 100 ≤ r.borrowFactorPct

/-- A reserve each of whose fields was read on its own. -/
structure Reserve.IsReadFrom (entries : Entries) (r : Reserve) : Prop where
  address : entries.required "address" Data.asName = .valid r.address
  symbol : entries.required "symbol" (fun d => Text.upper <$> d.asName) = .valid r.symbol
  mint : entries.required "mint_address" Data.asName = .valid r.mint
  decimals : entries.optional "mint_decimals" 6 (Data.asNatUpTo (some 30)) = .valid r.decimals
  loanToValue :
    entries.required "loan_to_value_pct" (Data.asNatUpTo (some 100)) = .valid r.loanToValuePct
  liquidationThreshold : entries.required "liquidation_threshold_pct" (Data.asNatUpTo (some 100)) =
    .valid r.liquidationThresholdPct
  borrowFactor : entries.optional "borrow_factor_pct" 100 (fun d =>
    (d.asWholeBetween 100 none).map Int.toNat) = .valid r.borrowFactorPct

theorem Reserve.isReadFrom_of_read {entries : Entries} {r : Reserve}
    (h : Reserve.read entries = .valid r) : IsReadFrom entries r := by
  simp only [Reserve.read, Validated.seq_eq_valid, Validated.map_eq_valid] at h
  obtain ⟨_, factor, ⟨_, threshold, ⟨_, loanToValue, ⟨_, decimals, ⟨_, mint, ⟨_, symbol,
    ⟨address, haddress, rfl⟩, hsymbol, rfl⟩, hmint, rfl⟩, hdecimals, rfl⟩, hloanToValue, rfl⟩,
    hthreshold, rfl⟩, hfactor, rfl⟩ := h
  exact ⟨haddress, hsymbol, hmint, hdecimals, hloanToValue, hthreshold, hfactor⟩

theorem Reserve.isSound_of_read {entries : Entries} {r : Reserve} (h : Reserve.read entries = .valid r) :
    r.IsSound := by
  have hfields := isReadFrom_of_read h
  obtain ⟨_, hloanToValue⟩ := Entries.required_eq_valid hfields.loanToValue
  obtain ⟨_, hthreshold⟩ := Entries.required_eq_valid hfields.liquidationThreshold
  refine ⟨Data.asNatUpTo_eq_valid hloanToValue, Data.asNatUpTo_eq_valid hthreshold, ?_⟩
  rcases Entries.optional_eq_valid hfields.borrowFactor with hdefault | ⟨d, hd⟩
  · exact hdefault.ge
  · obtain ⟨i, hi, hnat⟩ := Validated.map_eq_valid.mp hd
    have hle := (Data.asWholeBetween_eq_valid hi).1
    omega

theorem Reserve.decimals_le_of_read {entries : Entries} {r : Reserve}
    (h : Reserve.read entries = .valid r) : r.decimals ≤ 30 := by
  obtain hdefault | ⟨d, hd⟩ := Entries.optional_eq_valid (isReadFrom_of_read h).decimals
  · omega
  · exact Data.asNatUpTo_eq_valid hd

theorem Reserve.rate_eq {percent : Nat} {w : Decimal} (h : rate percent = .ok w) :
    w.isFinite ∧ w.toRat = Context.standard.rounded (percent / 100) := by
  obtain ⟨-, hfin, hval⟩ := Context.div_ok (x := .ofNat percent) (y := .ofNat 100) rfl rfl h
  rw [Decimal.toRat_ofNat, Decimal.toRat_ofNat] at hval
  exact ⟨hfin, hval⟩

/-- A market whose fields were read, with no reserve named twice. -/
structure Market.IsReadFrom (entries : Entries) (m : Market) : Prop where
  address : entries.required "address" Data.asName = .valid m.address
  reserves :
    entries.optional "reserves" [] (Data.asListOf (Data.asRecord Reserve.read)) = .valid m.reserves
  unique : duplicate? m.reserves = none

theorem Market.isReadFrom_of_read {entries : Entries} {m : Market}
    (h : Market.read entries = .valid m) : IsReadFrom entries m := by
  obtain ⟨read, hread, hunique⟩ := Validated.andThen_eq_valid.mp h
  split at hunique
  · simp [Validated.fault] at hunique
  next hnone =>
    obtain rfl : read = m := by simpa using hunique
    simp only [Validated.seq_eq_valid, Validated.map_eq_valid] at hread
    obtain ⟨_, reserves, ⟨address, haddress, rfl⟩, hreserves, rfl⟩ := hread
    exact ⟨haddress, hreserves, hnone⟩

theorem Market.reserves_of_read {entries : Entries} {market : Market}
    (h : Market.ofEntries entries = .ok market) : duplicate? market.reserves = none ∧
      ∀ r ∈ market.reserves, ∃ entries, Reserve.read entries = .valid r := by
  have hfields := isReadFrom_of_read (Validated.result_eq_ok.mp h)
  refine ⟨hfields.unique, fun r hr => ?_⟩
  rcases Entries.optional_eq_valid hfields.reserves with hnil | ⟨d, hd⟩
  · rw [hnil] at hr
    exact absurd hr List.not_mem_nil
  · obtain ⟨item, hitem⟩ := Data.asListOf_eq_valid hd r hr
    obtain ⟨fields, hfields⟩ := Data.asRecord_eq_valid hitem
    exact ⟨fields, hfields⟩

theorem Market.isSound_of_read {entries : Entries} {market : Market}
    (h : Market.ofEntries entries = .ok market) : ∀ r ∈ market.reserves, r.IsSound := by
  intro r hr
  obtain ⟨_, hfields⟩ := (reserves_of_read h).2 r hr
  exact Reserve.isSound_of_read hfields

theorem Market.mem_of_find {market : Market} {key : ReserveKey} {test : Reserve → Bool} {r : Reserve}
    (h : market.find key test = .ok r) : r ∈ market.reserves := by
  unfold find at h
  split at h
  · rename_i found hfound
    obtain rfl := Except.ok.inj h
    exact List.mem_of_find?_eq_some hfound
  · simp at h

theorem Market.mem_of_reserveAt {market : Market} {address : String} {r : Reserve}
    (h : market.reserveAt address = .ok r) : r ∈ market.reserves := mem_of_find h

structure SlotState.IsReadFrom (entries : Entries) (s : SlotState) : Prop where
  conditionType :
    entries.optional "condition_type" 0 (Data.asNatUpTo (some 255)) = .valid s.conditionType
  threshold : entries.optional "condition_threshold_sf" 0 (Data.asNatUpTo none) = .valid s.threshold
  opportunityType :
    entries.optional "opportunity_type" 0 (Data.asNatUpTo (some 255)) = .valid s.opportunityType
  parameter : entries.optional "opportunity_parameter_sf" 0 (Data.asNatUpTo none) = .valid s.parameter
  minBonus : entries.optional "min_execution_bonus_bps" 0 (Data.asNatUpTo (some Rate.maxBonusBps)) =
    .valid s.minBonusBps
  maxBonus : entries.optional "max_execution_bonus_bps" 0 (Data.asNatUpTo (some Rate.maxBonusBps)) =
    .valid s.maxBonusBps

theorem SlotState.isReadFrom_of_read {entries : Entries} {s : SlotState}
    (h : SlotState.read entries = .valid s) : IsReadFrom entries s := by
  simp only [SlotState.read, Validated.seq_eq_valid, Validated.map_eq_valid] at h
  obtain ⟨_, max, ⟨_, min, ⟨_, parameter, ⟨_, opportunity, ⟨_, threshold, ⟨condition, hcondition, rfl⟩,
    hthreshold, rfl⟩, hopportunity, rfl⟩, hparameter, rfl⟩, hmin, rfl⟩, hmax, rfl⟩ := h
  exact ⟨hcondition, hthreshold, hopportunity, hparameter, hmin, hmax⟩

theorem SlotState.bonus_le_of_read {entries : Entries} {s : SlotState}
    (h : SlotState.ofEntries entries = .ok s) :
    s.minBonusBps ≤ Rate.maxBonusBps ∧ s.maxBonusBps ≤ Rate.maxBonusBps := by
  have hbonus {name : String} {n : Nat} (hn : Entries.optional entries name 0
      (Data.asNatUpTo (some Rate.maxBonusBps)) = .valid n) : n ≤ Rate.maxBonusBps := by
    rcases Entries.optional_eq_valid hn with rfl | ⟨d, hd⟩
    · exact Nat.zero_le _
    · exact Data.asNatUpTo_eq_valid hd
  have hfields := isReadFrom_of_read (Validated.result_eq_ok.mp h)
  exact ⟨hbonus hfields.minBonus, hbonus hfields.maxBonus⟩

structure Position.IsReadFrom (entries : Entries) (p : Position) : Prop where
  reserve : entries.required "reserve_address" Data.asName = .valid p.reserve
  mint : entries.required "mint_address" Data.asName = .valid p.mint
  unit : entries.required "mint_factor" (Data.asDecimal .positive) = .valid p.unit
  amount : entries.required "amount" (Data.asDecimal .nonnegative) = .valid p.amount
  value : entries.required "market_value_refreshed" (Data.asDecimal .nonnegative) = .valid p.value

theorem Position.isReadFrom_of_read {entries : Entries} {p : Position}
    (h : Position.read entries = .valid p) : IsReadFrom entries p := by
  simp only [Position.read, Validated.seq_eq_valid, Validated.map_eq_valid] at h
  obtain ⟨_, value, ⟨_, amount, ⟨_, unit, ⟨_, mint, ⟨reserve, hreserve, rfl⟩, hmint, rfl⟩, hunit, rfl⟩,
    hamount, rfl⟩, hvalue, rfl⟩ := h
  exact ⟨hreserve, hmint, hunit, hamount, hvalue⟩

structure Position.IsSound (p : Position) : Prop where
  unit : p.unit.IsPos
  amount : p.amount.IsNonneg
  value : p.value.IsNonneg

theorem Position.isSound_of_read {entries : Entries} {p : Position}
    (h : Position.read entries = .valid p) : p.IsSound := by
  have hfields := isReadFrom_of_read h
  obtain ⟨_, hunit⟩ := Entries.required_eq_valid hfields.unit
  obtain ⟨_, hamount⟩ := Entries.required_eq_valid hfields.amount
  obtain ⟨_, hvalue⟩ := Entries.required_eq_valid hfields.value
  exact ⟨Data.isPos_of_asDecimal hunit, Data.isNonneg_of_asDecimal hamount,
    Data.isNonneg_of_asDecimal hvalue⟩

theorem Position.ofEntries_toEntries {p : Position} (hp : p.IsSound) (hreserve : Data.IsName p.reserve)
    (hmint : Data.IsName p.mint) : ofEntries p.toEntries = .ok p := by
  have hreserve' : Entries.required p.toEntries "reserve_address" Data.asName = .valid p.reserve :=
    Entries.required_eq rfl (Data.asName_of_isName hreserve)
  have hmint' : Entries.required p.toEntries "mint_address" Data.asName = .valid p.mint :=
    Entries.required_eq rfl (Data.asName_of_isName hmint)
  have hunit : Entries.required p.toEntries "mint_factor" (Data.asDecimal .positive) = .valid p.unit :=
    Entries.required_eq rfl (Data.asDecimal_of_isPos hp.unit)
  have hamount : Entries.required p.toEntries "amount" (Data.asDecimal .nonnegative) =
      .valid p.amount := Entries.required_eq rfl (Data.asDecimal_of_isNonneg hp.amount)
  have hvalue : Entries.required p.toEntries "market_value_refreshed" (Data.asDecimal .nonnegative) =
      .valid p.value := Entries.required_eq rfl (Data.asDecimal_of_isNonneg hp.value)
  rw [ofEntries, Validated.result_eq_ok, read, hreserve', hmint', hunit, hamount, hvalue]
  rfl

theorem Position.value_of_ofEntries {p q : Position} (h : ofEntries p.toEntries = .ok q) :
    p.value = q.value := by
  have hvalue := (isReadFrom_of_read (Validated.result_eq_ok.mp h)).value
  have hget : Entries.get? p.toEntries "market_value_refreshed" = some (.decimal p.value) := rfl
  rw [Entries.required, hget] at hvalue
  exact Data.eq_of_asDecimal (Validated.under_eq_valid.mp hvalue)

structure Stats.IsSound (s : Stats) : Prop where
  deposit : s.deposit.IsNonneg
  borrow : s.borrow.IsNonneg
  weightedBorrow : s.weightedBorrow.IsNonneg
  liquidationLimit : s.liquidationLimit.IsNonneg

namespace Stats

theorem isSound_zero : IsSound zero :=
  ⟨Decimal.isNonneg_zero, Decimal.isNonneg_zero, Decimal.isNonneg_zero, Decimal.isNonneg_zero⟩

structure IsReadFrom (entries : Entries) (s : Stats) : Prop where
  deposit :
    entries.optional "user_total_deposit" .zero (Data.asDecimal .nonnegative) = .valid s.deposit
  borrow : entries.optional "user_total_borrow" .zero (Data.asDecimal .nonnegative) = .valid s.borrow
  weightedBorrow : entries.optional "user_total_borrow_borrow_factor_adjusted" .zero
    (Data.asDecimal .nonnegative) = .valid s.weightedBorrow
  liquidationLimit : entries.optional "borrow_liquidation_limit" .zero (Data.asDecimal .nonnegative) =
    .valid s.liquidationLimit

theorem isReadFrom_of_read {entries : Entries} {s : Stats} (h : read entries = .valid s) :
    IsReadFrom entries s := by
  simp only [read, Validated.seq_eq_valid, Validated.map_eq_valid] at h
  obtain ⟨_, limit, ⟨_, weighted, ⟨_, borrow, ⟨deposit, hdeposit, rfl⟩, hborrow, rfl⟩, hweighted,
    rfl⟩, hlimit, rfl⟩ := h
  exact ⟨hdeposit, hborrow, hweighted, hlimit⟩

theorem isSound_of_read {entries : Entries} {s : Stats} (h : read entries = .valid s) :
    s.IsSound := by
  have htotal {name : String} {x : Decimal} (hx : Entries.optional entries name .zero
      (Data.asDecimal .nonnegative) = .valid x) : x.IsNonneg := by
    rcases Entries.optional_eq_valid hx with rfl | ⟨d, hd⟩
    · exact Decimal.isNonneg_zero
    · exact Data.isNonneg_of_asDecimal hd
  have hfields := isReadFrom_of_read h
  exact ⟨htotal hfields.deposit, htotal hfields.borrow, htotal hfields.weightedBorrow,
    htotal hfields.liquidationLimit⟩

theorem eq_of_ofEntries {s t : Stats} (h : ofEntries s.toEntries = .ok t) : s = t := by
  have hfield {name : String} {x y : Decimal}
      (hget : Entries.get? s.toEntries name = some (.decimal x))
      (h : Entries.optional s.toEntries name .zero (Data.asDecimal .nonnegative) = .valid y) :
      x = y := by
    rw [Entries.optional, hget] at h
    exact Data.eq_of_asDecimal (Validated.under_eq_valid.mp h)
  have hfields := isReadFrom_of_read (Validated.result_eq_ok.mp h)
  cases s
  cases t
  exact congr (congr (congr (congrArg Stats.mk (hfield rfl hfields.deposit))
    (hfield rfl hfields.borrow)) (hfield rfl hfields.weightedBorrow))
    (hfield rfl hfields.liquidationLimit)

theorem ofEntries_toEntries {s : Stats} (hs : s.IsSound) : ofEntries s.toEntries = .ok s := by
  have hfield {name : String} {x : Decimal} (hget : Entries.get? s.toEntries name = some (.decimal x))
      (hx : x.IsNonneg) :
      Entries.optional s.toEntries name .zero (Data.asDecimal .nonnegative) = .valid x :=
    Entries.optional_eq hget (Data.asDecimal_of_isNonneg hx)
  rw [ofEntries, Validated.result_eq_ok, read, hfield rfl hs.deposit, hfield rfl hs.borrow,
    hfield rfl hs.weightedBorrow, hfield rfl hs.liquidationLimit]
  rfl

theorem isSound_of_compute {market : Market} {deposits borrows : List Position} {s : Stats}
    (h : compute market deposits borrows = .ok s) : s.IsSound := by
  simp only [compute, bind_eq_ok] at h
  obtain ⟨_, -, _, -, h⟩ := h
  exact isSound_of_read (Validated.result_eq_ok.mp h)

end Stats

namespace Obligation

structure IsSound (o : Obligation) : Prop where
  stats : o.stats.IsSound
  deposits : ∀ p ∈ o.depositList, p.IsSound
  borrows : ∀ p ∈ o.borrowList, p.IsSound

/-- An obligation that was read from data, or built from positions that were. -/
inductive IsSnapshot (o : Obligation) : Prop
  | read (entries : Entries) (h : ofEntries entries = .ok o)
  | built (market : Market) (address : Data) (deposits borrows : List Position)
      (states : Option (List SlotState))
      (hdeposits : ∀ p ∈ deposits, ∃ entries, Position.ofEntries entries = .ok p)
      (hborrows : ∀ p ∈ borrows, ∃ entries, Position.ofEntries entries = .ok p)
      (h : build market address deposits borrows states = .ok o)

variable {o : Obligation}

theorem checkKeys_eq_valid {checked : Obligation} (h : o.checkKeys = .valid checked) :
    o = checked := by
  unfold checkKeys at h
  split at h
  · simp [Validated.fault] at h
  · simpa using h

/-- An obligation whose fields were read, with its positions under their reserves. -/
structure IsReadFrom (entries : Entries) (o : Obligation) : Prop where
  address : entries.required "address" Data.asName = .valid o.address
  market : entries.required "market_address" Data.asName = .valid o.market
  deposits : entries.optional "deposits" [] (Data.asMapOf (Data.asRecord Position.read)) =
    .valid o.deposits
  borrows : entries.optional "borrows" [] (Data.asMapOf (Data.asRecord Position.read)) =
    .valid o.borrows
  stats : entries.optional "refreshed_stats" .zero (Data.asRecord Stats.read) = .valid o.stats
  slots : entries.optional "orders" .empty readSlots = .valid o.slots
  keys : o.checkKeys = .valid o

theorem isReadFrom_of_read {entries : Entries} (h : read entries = .valid o) :
    IsReadFrom entries o := by
  obtain ⟨p, hp, hkeys⟩ := Validated.andThen_eq_valid.mp h
  obtain rfl := checkKeys_eq_valid hkeys
  simp only [Validated.seq_eq_valid, Validated.map_eq_valid] at hp
  obtain ⟨_, slots, ⟨_, stats, ⟨_, borrows, ⟨_, deposits, ⟨_, market, ⟨address, haddress, rfl⟩, hmarket,
    rfl⟩, hdeposits, rfl⟩, hborrows, rfl⟩, hstats, rfl⟩, hslots, rfl⟩ := hp
  exact ⟨haddress, hmarket, hdeposits, hborrows, hstats, hslots, hkeys⟩

theorem isSound_of_read {entries : Entries} (h : ofEntries entries = .ok o) : o.IsSound := by
  have hside {name : String} {positions : List (String × Position)}
      (hside : Entries.optional entries name [] (Data.asMapOf (Data.asRecord Position.read)) =
        .valid positions) : ∀ q ∈ positions.map Prod.snd, q.IsSound := by
    intro q hq
    obtain ⟨entry, hentry, rfl⟩ := List.mem_map.mp hq
    rcases Entries.optional_eq_valid hside with rfl | ⟨d, hd⟩
    · exact absurd hentry List.not_mem_nil
    · obtain ⟨_, hvalue⟩ := Data.asMapOf_eq_valid hd entry hentry
      obtain ⟨_, hread⟩ := Data.asRecord_eq_valid hvalue
      exact Position.isSound_of_read hread
  have hfields := isReadFrom_of_read (Validated.result_eq_ok.mp h)
  refine ⟨?_, hside hfields.deposits, hside hfields.borrows⟩
  rcases Entries.optional_eq_valid hfields.stats with hzero | ⟨d, hd⟩
  · rw [hzero]
    exact Stats.isSound_zero
  · obtain ⟨_, hread⟩ := Data.asRecord_eq_valid hd
    exact Stats.isSound_of_read hread

theorem mem_of_mem_keyed {positions : List Position} {p : Position}
    (h : p ∈ (keyed positions).map Prod.snd) : p ∈ positions := by
  obtain ⟨entry, hentry, rfl⟩ := List.mem_map.mp h
  obtain ⟨p, hp, rfl⟩ := List.mem_map.mp (Assoc.mem_of_mem_ofList hentry)
  exact hp

theorem build_ok {market : Market} {address : Data} {deposits borrows : List Position}
    {states : Option (List SlotState)} (h : build market address deposits borrows states = .ok o) :
    Stats.compute market deposits borrows = .ok o.stats ∧
      o.deposits = keyed deposits ∧ o.borrows = keyed borrows := by
  simp only [build, bind_eq_ok, Validated.result_eq_ok, Validated.seq_eq_valid,
    Validated.map_eq_valid] at h
  obtain ⟨stats, hstats, _, slots, ⟨name, -, rfl⟩, -, rfl⟩ := h
  exact ⟨hstats, rfl, rfl⟩

theorem IsSnapshot.isSound (h : o.IsSnapshot) : o.IsSound := by
  cases h with
  | read entries h => exact isSound_of_read h
  | built market address deposits borrows states hdeposits hborrows h =>
    obtain ⟨hstats, hd, hb⟩ := build_ok h
    have hside {positions : List Position}
        (hall : ∀ p ∈ positions, ∃ entries, Position.ofEntries entries = .ok p) :
        ∀ p ∈ (keyed positions).map Prod.snd, p.IsSound := by
      intro p hp
      obtain ⟨_, hread⟩ := hall p (mem_of_mem_keyed hp)
      exact Position.isSound_of_read (Validated.result_eq_ok.mp hread)
    refine ⟨Stats.isSound_of_compute hstats, ?_, ?_⟩
    · rw [depositList, hd]
      exact hside hdeposits
    · rw [borrowList, hb]
      exact hside hborrows

end Obligation

/-- A long position: ten tokens at 100 dollars each are deposited and 500 dollars are borrowed. -/
def longPosition : OrderContext where
  market :=
    ⟨"market", [⟨"sol", "SOL", "solMint", 9, 75, 85, 100⟩, ⟨"usd", "USD", "usdMint", 6, 80, 90, 100⟩]⟩
  obligation :=
    { address := "obligation"
      market := "market"
      deposits := [("sol", ⟨"sol", "solMint", .ofNat (10 ^ 9), .ofNat (10 ^ 10), .ofNat 1000⟩)]
      borrows := [("usd", ⟨"usd", "usdMint", .ofNat (10 ^ 6), .ofNat (5 * 10 ^ 8), .ofNat 500⟩)]
      stats := ⟨.ofNat 1000, .ofNat 500, .ofNat 500, .ofNat 850⟩
      slots := .empty }

def solDeposit (tokens : Nat) : Position :=
  ⟨"sol", "solMint", .ofNat (10 ^ 9), .ofNat (tokens * 10 ^ 9), .ofNat (tokens * 100)⟩

def usdBorrow (dollars : Nat) : Position :=
  ⟨"usd", "usdMint", .ofNat (10 ^ 6), .ofNat (dollars * 10 ^ 6), .ofNat dollars⟩

/-- Some tokens at 100 dollars each are deposited and some dollars are borrowed. -/
def leveraged (tokens dollars : Nat) : Obligation where
  address := "obligation"
  market := "market"
  deposits := [("sol", solDeposit tokens)]
  borrows := [("usd", usdBorrow dollars)]
  stats := ⟨.ofNat (tokens * 100), .ofNat dollars, .ofNat dollars, .finite false (tokens * 8500) (-2)⟩
  slots := .empty

theorem isSnapshot_leveraged {tokens dollars : Nat}
    (hdeposit : Position.ofEntries (solDeposit tokens).toEntries = .ok (solDeposit tokens))
    (hborrow : Position.ofEntries (usdBorrow dollars).toEntries = .ok (usdBorrow dollars))
    (h : Obligation.build longPosition.market (.text "obligation") [solDeposit tokens]
      [usdBorrow dollars] none = .ok (leveraged tokens dollars)) :
    (leveraged tokens dollars).IsSnapshot := by
  refine .built _ _ _ _ _ ?_ ?_ h
  · intro p hp
    rw [List.mem_singleton.mp hp]
    exact ⟨_, hdeposit⟩
  · intro p hp
    rw [List.mem_singleton.mp hp]
    exact ⟨_, hborrow⟩

theorem isSnapshot_half : (leveraged 10 500).IsSnapshot :=
  isSnapshot_leveraged (by decide +kernel) (by decide +kernel) (by decide +kernel)

theorem unweightedLtv_half : (leveraged 10 500).unweightedLtv = .ok (.finite false 5 (-1)) := by
  decide +kernel

end LoanOrders
