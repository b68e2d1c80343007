import LoanOrders.Proofs.Snapshot
import LoanOrders.Proofs.UpperCase

/-! Snapshots that are written and read again. Each reading of a field cuts off, converts or checks; it
accepts what it has produced itself and leaves it alone, and so do the rules that look at a whole record.
A record that was read therefore comes back from its own entries. -/

namespace LoanOrders

variable {α : Type}

namespace Data

/-- A reading that takes what a value is written as for this value again. -/
def Restores (read : Data → Validated α) (write : α → Data) : Prop :=
  ∀ ⦃d a⦄, read d = .valid a → read (write a) = .valid a

variable {read : Data → Validated α} {write : α → Data}

theorem restores_asName : Restores asName .text := fun _ _ h =>
  asName_of_isName (isName_of_asName h)

/-- Upper case is no other text in upper case, and brings no blanks to the ends of a text. -/
theorem restores_symbol : Restores (fun d => Text.upper <$> d.asName) .text := by
  intro d s h
  obtain ⟨name, hname, rfl⟩ := Validated.map_eq_valid.mp h
  have hbare := (isName_of_asName hname).bare
  have hupper : IsName (Text.upper name) :=
    ⟨by rw [← Text.upper_trimBlank, hbare], Text.upper_ne_empty (isName_of_asName hname).nonempty⟩
  exact Validated.map_eq_valid.mpr ⟨_, asName_of_isName hupper, Text.upper_upper name⟩

theorem asWholeBetween_int {low i : ℤ} {high : Option ℤ} (hlow : low ≤ i) (hhigh : ∀ n ∈ high, i ≤ n) :
    asWholeBetween low high (.int i) = .valid i := by
  have hany : high.any (· < i) = false := by
    rw [Option.any_eq_false]
    intro n hn
    simpa using hhigh n hn
  simp only [asWholeBetween, asWhole, Validated.andThen, if_neg (not_lt.mpr hlow), hany]
  rfl

theorem restores_asNat {low : ℤ} (hlow : 0 ≤ low) (high : Option ℤ) :
    Restores (fun d => (d.asWholeBetween low high).map Int.toNat) fun n => .int n := by
  intro d n h
  obtain ⟨i, hi, rfl⟩ := Validated.map_eq_valid.mp h
  obtain ⟨hle, hhigh⟩ := asWholeBetween_eq_valid hi
  simp only [Int.toNat_of_nonneg (hlow.trans hle), asWholeBetween_int hle hhigh]
  rfl

theorem restores_asNatUpTo (high : Option Nat) : Restores (asNatUpTo high) fun n => .int n :=
  restores_asNat le_rfl _

theorem asNatUpTo_zero (high : Option Nat) : asNatUpTo high (.int 0) = .valid 0 := by
  have hhigh : ∀ n ∈ high.map Int.ofNat, 0 ≤ n := by simp
  rw [asNatUpTo, asWholeBetween_int le_rfl hhigh]
  rfl

theorem restores_asRecord {read : Entries → Validated α} {write : α → Entries}
    (h : ∀ ⦃entries a⦄, read entries = .valid a → read (write a) = .valid a) :
    Restores (asRecord read) fun a => .object (write a) := by
  intro d a hd
  obtain ⟨entries, hentries⟩ := asRecord_eq_valid hd
  exact h hentries

theorem asListOf_map (write : α → Data) {as : List α} (h : ∀ a ∈ as, read (write a) = .valid a) :
    asListOf read (.list (as.map write)) = .valid as := by
  have hitems : ((as.map write).mapIdx fun i item => (read item).under (.item i)) =
      as.map Validated.valid := by
    apply List.ext_getElem
    · simp
    · intro i hi _
      simp only [List.getElem_mapIdx, List.getElem_map]
      rw [h _ (List.getElem_mem _), Validated.under_valid]
  rw [asListOf, hitems, Validated.all_map_valid]

theorem Restores.asListOf (h : Restores read write) :
    Restores (asListOf read) fun as => .list (as.map write) := by
  intro d as hd
  refine asListOf_map write fun a ha => ?_
  obtain ⟨item, hitem⟩ := asListOf_eq_valid hd a ha
  exact h hitem

/-- The entries of a map as it is kept: each name once and without blanks around it. -/
structure IsMap (entries : List (String × α)) : Prop where
  nodup : (entries.map Prod.fst).Nodup
  bare : ∀ entry ∈ entries, Text.trimBlank entry.1 = entry.1

theorem asMapOf_map (write : α → Data) {entries : List (String × α)} (hmap : IsMap entries)
    (h : ∀ entry ∈ entries, read (write entry.2) = .valid entry.2) :
    asMapOf read (.object (entries.map fun entry => (.text entry.1, write entry.2))) =
      .valid entries := by
  have hitems : (entries.map fun entry => ((Scalar.text entry.1, write entry.2) : Scalar × Data)).map
      (fun entry => asEntryOf read entry.1 entry.2) = entries.map Validated.valid := by
    rw [List.map_map]
    refine List.map_congr_left fun entry hentry => ?_
    simp only [Function.comp_apply, asEntryOf, h entry hentry, hmap.bare entry hentry,
      Validated.under_valid, Validated.map_valid]
  rw [asMapOf, hitems, Validated.all_map_valid]
  exact congrArg Validated.valid (Assoc.ofList_eq_self hmap.nodup)

theorem isMap_of_asMapOf {entries : List (String × α)} {d : Data}
    (h : asMapOf read d = .valid entries) : IsMap entries := by
  cases d with
  | object items =>
    obtain ⟨pairs, hpairs, rfl⟩ := Validated.map_eq_valid.mp h
    refine ⟨Assoc.nodup_ofList pairs, fun entry hentry => ?_⟩
    obtain ⟨item, -, hitem⟩ :=
      List.mem_map.mp (Validated.all_eq_valid hpairs entry (Assoc.mem_of_mem_ofList hentry))
    unfold asEntryOf at hitem
    split at hitem
    · obtain ⟨a, -, rfl⟩ := Validated.map_eq_valid.mp hitem
      exact Text.trimBlank_trimBlank _
    · simp at hitem
  | scalar | decimal | list => simp [asMapOf, Validated.fault] at h

end Data

namespace Entries

variable {entries again : Entries} {name : String} {a default : α} {read : Data → Validated α}
  {write : α → Data}

theorem required_again (hread : Data.Restores read write)
    (h : entries.required name read = .valid a) (hget : again.get? name = some (write a)) :
    again.required name read = .valid a := by
  obtain ⟨d, hd⟩ := required_eq_valid h
  exact required_eq hget (hread hd)

theorem optional_again (hread : Data.Restores read write)
    (hdefault : read (write default) = .valid default)
    (h : entries.optional name default read = .valid a) (hget : again.get? name = some (write a)) :
    again.optional name default read = .valid a := by
  -- A field that was not there is written too, with its default.
  rcases optional_eq_valid h with rfl | ⟨d, hd⟩
  · exact optional_eq hget hdefault
  · exact optional_eq hget (hread hd)

end Entries

variable {entries : Entries}

theorem Reserve.read_again {r : Reserve} (h : Reserve.read entries = .valid r) :
    Reserve.read r.toEntries = .valid r := by
  have hfields := isReadFrom_of_read h
  rw [Reserve.read, Entries.required_again Data.restores_asName hfields.address rfl,
    Entries.required_again Data.restores_symbol hfields.symbol rfl,
    Entries.required_again Data.restores_asName hfields.mint rfl,
    Entries.optional_again (Data.restores_asNatUpTo _) rfl hfields.decimals rfl,
    Entries.required_again (Data.restores_asNatUpTo _) hfields.loanToValue rfl,
    Entries.required_again (Data.restores_asNatUpTo _) hfields.liquidationThreshold rfl,
    Entries.optional_again (Data.restores_asNat (by norm_num) _) rfl hfields.borrowFactor rfl]
  rfl

theorem SlotState.read_again {s : SlotState} (h : SlotState.read entries = .valid s) :
    SlotState.read s.toEntries = .valid s := by
  have hfield {name : String} {high : Option Nat} {n : Nat}
      (hn : entries.optional name 0 (Data.asNatUpTo high) = .valid n)
      (hget : Entries.get? s.toEntries name = some (.int n)) :
      Entries.optional s.toEntries name 0 (Data.asNatUpTo high) = .valid n :=
    Entries.optional_again (Data.restores_asNatUpTo high) (Data.asNatUpTo_zero high) hn hget
  have hfields := isReadFrom_of_read h
  rw [SlotState.read, hfield hfields.conditionType rfl, hfield hfields.threshold rfl,
    hfield hfields.opportunityType rfl, hfield hfields.parameter rfl, hfield hfields.minBonus rfl,
    hfield hfields.maxBonus rfl]
  rfl

theorem Position.isNamed_of_read {p : Position} (h : Position.read entries = .valid p) :
    Data.IsName p.reserve ∧ Data.IsName p.mint := by
  have hfields := isReadFrom_of_read h
  obtain ⟨_, hreserve⟩ := Entries.required_eq_valid hfields.reserve
  obtain ⟨_, hmint⟩ := Entries.required_eq_valid hfields.mint
  exact ⟨Data.isName_of_asName hreserve, Data.isName_of_asName hmint⟩

theorem Position.read_again {p : Position} (h : Position.read entries = .valid p) :
    Position.read p.toEntries = .valid p := by
  obtain ⟨hreserve, hmint⟩ := isNamed_of_read h
  exact Validated.result_eq_ok.mp (ofEntries_toEntries (isSound_of_read h) hreserve hmint)

theorem Stats.read_again {s : Stats} (h : Stats.read entries = .valid s) :
    Stats.read s.toEntries = .valid s :=
  Validated.result_eq_ok.mp (ofEntries_toEntries (isSound_of_read h))

theorem Market.read_again {m : Market} (h : Market.read entries = .valid m) :
    Market.read m.toEntries = .valid m := by
  have hfields := isReadFrom_of_read h
  have hrecord : Data.Restores (Data.asRecord Reserve.read) fun r => .object r.toEntries :=
    Data.restores_asRecord fun _ _ => Reserve.read_again
  rw [Market.read, Entries.required_again Data.restores_asName hfields.address rfl,
    Entries.optional_again hrecord.asListOf rfl hfields.reserves rfl, Validated.map_valid,
    Validated.seq_valid, Validated.andThen, hfields.unique]

theorem Market.isName_of_read {m : Market} (h : Market.read entries = .valid m) :
    Data.IsName m.address := by
  obtain ⟨_, haddress⟩ := Entries.required_eq_valid (isReadFrom_of_read h).address
  exact Data.isName_of_asName haddress

theorem Slots.toList_of_ofList {states : List SlotState} {slots : Slots}
    (h : ofList states = .valid slots) : slots.toList = states := by
  unfold ofList at h
  split at h
  · obtain rfl : Slots.mk _ _ = slots := by simpa using h
    rfl
  · simp [Validated.fault] at h

namespace Obligation

/-- The positions of one side, keyed by their reserves, each of which comes back from its entries. -/
structure IsSide (positions : List (String × Position)) : Prop where
  map : Data.IsMap positions
  keyed : ∀ entry ∈ positions, entry.1 = entry.2.reserve
  read : ∀ entry ∈ positions, Position.read entry.2.toEntries = .valid entry.2

/-- An obligation whose parts come back from their entries. -/
structure IsReadable (o : Obligation) : Prop where
  address : Data.IsName o.address
  market : Data.IsName o.market
  deposits : IsSide o.deposits
  borrows : IsSide o.borrows
  stats : Stats.read o.stats.toEntries = .valid o.stats
  slots : ∀ s ∈ o.slots.toList, SlotState.read s.toEntries = .valid s

variable {o : Obligation} {positions : List (String × Position)} {side : String}

theorem misplaced?_eq_none (side : String) :
    misplaced? side positions = none ↔ ∀ entry ∈ positions, entry.1 = entry.2.reserve := by
  rw [misplaced?, Option.map_eq_none_iff, List.find?_eq_none]
  simp

theorem checkKeys_eq_self :
    o.checkKeys = .valid o ↔ (∀ entry ∈ o.deposits, entry.1 = entry.2.reserve) ∧
      ∀ entry ∈ o.borrows, entry.1 = entry.2.reserve := by
  rw [← misplaced?_eq_none "deposits", ← misplaced?_eq_none "borrows", checkKeys]
  cases misplaced? "deposits" o.deposits <;> cases misplaced? "borrows" o.borrows <;>
    simp [Validated.fault]

theorem IsSide.asMapOf (h : IsSide positions) :
    Data.asMapOf (Data.asRecord Position.read) (positionsToData positions) = .valid positions :=
  Data.asMapOf_map (fun p => .object p.toEntries) h.map h.read

theorem IsReadable.read_toEntries (h : o.IsReadable) : read o.toEntries = .valid o := by
  have hslots : readSlots (.list (o.slots.toList.map fun s => .object s.toEntries)) =
      .valid o.slots := by
    rw [readSlots, Data.asListOf_map (fun s : SlotState => .object s.toEntries) h.slots]
    rfl
  have haddress : Entries.required o.toEntries "address" Data.asName = .valid o.address :=
    Entries.required_eq rfl (Data.asName_of_isName h.address)
  have hmarket : Entries.required o.toEntries "market_address" Data.asName = .valid o.market :=
    Entries.required_eq rfl (Data.asName_of_isName h.market)
  have hkeys := checkKeys_eq_self.mpr ⟨h.deposits.keyed, h.borrows.keyed⟩
  rw [read, haddress, hmarket, Entries.optional_eq rfl h.deposits.asMapOf,
    Entries.optional_eq rfl h.borrows.asMapOf, Entries.optional_eq rfl h.stats,
    Entries.optional_eq rfl hslots]
  exact hkeys

theorem isSide_of_optional (h : entries.optional side []
    (Data.asMapOf (Data.asRecord Position.read)) = .valid positions)
    (hkeyed : ∀ entry ∈ positions, entry.1 = entry.2.reserve) : IsSide positions := by
  rcases Entries.optional_eq_valid h with rfl | ⟨d, hd⟩
  · exact ⟨⟨List.nodup_nil, by simp⟩, by simp, by simp⟩
  · refine ⟨Data.isMap_of_asMapOf hd, hkeyed, fun entry hentry => ?_⟩
    obtain ⟨_, hvalue⟩ := Data.asMapOf_eq_valid hd entry hentry
    obtain ⟨_, hread⟩ := Data.asRecord_eq_valid hvalue
    exact Position.read_again hread

theorem read_empty : ∀ s ∈ Slots.empty.toList, SlotState.read s.toEntries = .valid s := by
  intro s hs
  obtain rfl : s = .empty := by simpa [Slots.toList, Slots.empty] using hs
  rfl

theorem read_of_slots {slots : Slots} (h : entries.optional "orders" .empty readSlots = .valid slots) :
    ∀ s ∈ slots.toList, SlotState.read s.toEntries = .valid s := by
  rcases Entries.optional_eq_valid h with rfl | ⟨d, hd⟩
  · exact read_empty
  · obtain ⟨states, hstates, hslots⟩ := Validated.andThen_eq_valid.mp hd
    rw [Slots.toList_of_ofList hslots]
    intro s hs
    obtain ⟨_, hstate⟩ := Data.asListOf_eq_valid hstates s hs
    obtain ⟨_, hread⟩ := Data.asRecord_eq_valid hstate
    exact SlotState.read_again hread

theorem isReadable_of_read (h : read entries = .valid o) : o.IsReadable := by
  have hfields := isReadFrom_of_read h
  obtain ⟨hdepositKeys, hborrowKeys⟩ := checkKeys_eq_self.mp hfields.keys
  obtain ⟨_, haddress⟩ := Entries.required_eq_valid hfields.address
  obtain ⟨_, hmarket⟩ := Entries.required_eq_valid hfields.market
  refine ⟨Data.isName_of_asName haddress, Data.isName_of_asName hmarket,
    isSide_of_optional hfields.deposits hdepositKeys, isSide_of_optional hfields.borrows hborrowKeys,
    ?_, read_of_slots hfields.slots⟩
  rcases Entries.optional_eq_valid hfields.stats with hzero | ⟨_, hd⟩
  · rw [hzero]
    rfl
  · obtain ⟨_, hread⟩ := Data.asRecord_eq_valid hd
    exact Stats.read_again hread

theorem isSide_keyed {positions : List Position}
    (h : ∀ p ∈ positions, ∃ entries, Position.ofEntries entries = .ok p) :
    IsSide (Obligation.keyed positions) := by
  -- Keying drops positions, but keeps the others under their own reserves.
  have hentry : ∀ entry ∈ Obligation.keyed positions,
      entry.1 = entry.2.reserve ∧ ∃ entries, Position.read entries = .valid entry.2 := by
    intro entry hentry
    obtain ⟨p, hp, rfl⟩ := List.mem_map.mp (Assoc.mem_of_mem_ofList hentry)
    obtain ⟨entries, hread⟩ := h p hp
    exact ⟨rfl, entries, Validated.result_eq_ok.mp hread⟩
  refine ⟨⟨Assoc.nodup_ofList _, fun entry he => ?_⟩, fun entry he => (hentry entry he).1, fun entry he => ?_⟩
  · obtain ⟨hkey, _, hread⟩ := hentry entry he
    rw [hkey]
    exact (Position.isNamed_of_read hread).1.bare
  · obtain ⟨-, _, hread⟩ := hentry entry he
    exact Position.read_again hread

theorem isReadable_of_build {market : Market} {address : Data} {deposits borrows : List Position}
    {states : Option (List SlotState)} (hmarket : Data.IsName market.address)
    (hdeposits : ∀ p ∈ deposits, ∃ entries, Position.ofEntries entries = .ok p)
    (hborrows : ∀ p ∈ borrows, ∃ entries, Position.ofEntries entries = .ok p)
    (hstates : ∀ l ∈ states, ∀ s ∈ l, ∃ entries, SlotState.ofEntries entries = .ok s)
    (h : build market address deposits borrows states = .ok o) : o.IsReadable := by
  simp only [build, bind_eq_ok, Validated.result_eq_ok, Validated.seq_eq_valid,
    Validated.map_eq_valid] at h
  obtain ⟨stats, hstats, _, slots, ⟨name, hname, rfl⟩, hslots, rfl⟩ := h
  have hstats' := Stats.ofEntries_toEntries (Stats.isSound_of_compute hstats)
  refine ⟨Data.isName_of_asName (Validated.under_eq_valid.mp hname), hmarket, isSide_keyed hdeposits,
    isSide_keyed hborrows, Validated.result_eq_ok.mp hstats', ?_⟩
  cases states with
  | none =>
    obtain rfl : Slots.empty = slots := by simpa using hslots
    exact read_empty
  | some l =>
    rw [Slots.toList_of_ofList (Validated.under_eq_valid.mp hslots)]
    intro s hs
    obtain ⟨_, hread⟩ := hstates l rfl s hs
    exact SlotState.read_again (Validated.result_eq_ok.mp hread)

end Obligation

/-- A record that was read comes back from what it is written as. -/
def Reloads (read : Entries → Result α) (write : α → Entries) : Prop :=
  ∀ a, (∃ entries, read entries = .ok a) → read (write a).withoutNulls = .ok a

theorem reloads_of_read {read : Entries → Validated α} {record : Record} {write : α → Entries}
    (hnulls : ∀ a, (write a).withoutNulls = write a)
    (h : ∀ ⦃entries a⦄, read entries = .valid a → read (write a) = .valid a) :
    Reloads (fun entries => (read entries).result record) write := by
  rintro a ⟨entries, hread⟩
  rw [hnulls, Validated.result_eq_ok]
  exact h (Validated.result_eq_ok.mp hread)

/-- Every snapshot comes back from its own entries, whether it was read or put together. -/
theorem snapshots_reload :
    Reloads Reserve.ofEntries Reserve.toEntries ∧ Reloads Market.ofEntries Market.toEntries ∧
    Reloads Position.ofEntries Position.toEntries ∧ Reloads Stats.ofEntries Stats.toEntries ∧
    Reloads SlotState.ofEntries SlotState.toEntries ∧
    Reloads Obligation.ofEntries Obligation.toEntries ∧
    ∀ (market : Market) (address : Data) (deposits borrows : List Position)
      (states : Option (List SlotState)) (o : Obligation),
      (∃ entries, Market.ofEntries entries = .ok market) →
      (∀ p ∈ deposits, ∃ entries, Position.ofEntries entries = .ok p) →
      (∀ p ∈ borrows, ∃ entries, Position.ofEntries entries = .ok p) →
      (∀ l ∈ states, ∀ s ∈ l, ∃ entries, SlotState.ofEntries entries = .ok s) →
      Obligation.build market address deposits borrows states = .ok o →
      Obligation.ofEntries o.toEntries.withoutNulls = .ok o := by
  refine ⟨reloads_of_read (fun _ => rfl) fun _ _ => Reserve.read_again,
    reloads_of_read (fun _ => rfl) fun _ _ => Market.read_again,
    reloads_of_read (fun _ => rfl) fun _ _ => Position.read_again,
    reloads_of_read (fun _ => rfl) fun _ _ => Stats.read_again,
    reloads_of_read (fun _ => rfl) fun _ _ => SlotState.read_again,
    reloads_of_read (fun _ => rfl) fun _ _ h => (Obligation.isReadable_of_read h).read_toEntries, ?_⟩
  rintro market address deposits borrows states o ⟨_, hmarket⟩ hdeposits hborrows hstates h
  have hname := Market.isName_of_read (Validated.result_eq_ok.mp hmarket)
  exact Validated.result_eq_ok.mpr
    (Obligation.isReadable_of_build hname hdeposits hborrows hstates h).read_toEntries

/-- An obligation as it may be given: with blanks around its names, and a number as a text. -/
def Obligation.untidyEntries : Entries :=
  [(.text "address", .text " obligation"), (.text "market_address", .text "market\n"),
    (.text "deposits", .object [(.text "sol ", .object
      [(.text "reserve_address", .text "sol"), (.text "mint_address", .text "solMint"),
        (.text "mint_factor", .text "1_000_000_000"), (.text "amount", .int 5),
        (.text "market_value_refreshed", .text " 7E2 ")])])]

theorem snapshots_reload_untidy :
    Obligation.ofEntries Obligation.untidyEntries = .ok ⟨"obligation", "market",
      [("sol", ⟨"sol", "solMint", .ofNat 1000000000, .ofNat 5, .finite false 7 2⟩)], [], .zero, .empty⟩ ∧
    ∃ o, Obligation.ofEntries Obligation.untidyEntries = .ok o ∧
      Obligation.ofEntries o.toEntries.withoutNulls = .ok o := by
  have hread : Obligation.ofEntries Obligation.untidyEntries = .ok ⟨"obligation", "market",
      [("sol", ⟨"sol", "solMint", .ofNat 1000000000, .ofNat 5, .finite false 7 2⟩)], [], .zero,
      .empty⟩ := by
    decide +kernel
  obtain ⟨-, -, -, -, -, hobligation, -⟩ := snapshots_reload
  exact ⟨hread, _, hread, hobligation _ ⟨_, hread⟩⟩

end LoanOrders
