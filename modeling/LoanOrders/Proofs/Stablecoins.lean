import LoanOrders.Proofs.Lookup
import LoanOrders.Proofs.Settings

/-! Which reserves count as stable. The addresses of some tokens are in order and each once, so that
they depend on the reserves only that the tokens name. The configured stablecoins are picked by the
names of the reserves and then looked up: what is picked is found. -/

namespace LoanOrders

namespace Market

variable {m : Market} {tokens others : List Token} {acc addresses : List String}

theorem mem_insertAddress {a address : String} {l : List String} :
    a ∈ insertAddress address l ↔ a = address ∨ a ∈ l := by
  induction l with
  | nil => simp [insertAddress]
  | cons b l ih =>
    unfold insertAddress
    split_ifs with hlt heq
    · rw [List.mem_cons]
    · rw [heq, List.mem_cons, ← or_assoc, or_self]
    · rw [List.mem_cons, ih, List.mem_cons, or_left_comm]

theorem pairwise_insertAddress (address : String) {l : List String} (h : l.Pairwise (· < ·)) :
    (insertAddress address l).Pairwise (· < ·) := by
  induction l with
  | nil => exact List.pairwise_singleton _ _
  | cons b l ih =>
    obtain ⟨hb, hl⟩ := List.pairwise_cons.mp h
    unfold insertAddress
    split_ifs with hlt heq
    · refine List.pairwise_cons.mpr ⟨fun a ha => ?_, h⟩
      obtain rfl | ha := List.mem_cons.mp ha
      · exact hlt
      · exact lt_trans hlt (hb a ha)
    · exact h
    · have hgt : b < address := lt_of_le_of_ne (not_lt.mp hlt) (Ne.symm heq)
      refine List.pairwise_cons.mpr ⟨fun a ha => ?_, ih hl⟩
      obtain rfl | ha := mem_insertAddress.mp ha
      · exact hgt
      · exact hb a ha

/-- The addresses of the reserves that some tokens name, in order and each once. -/
structure IsAddressesOf (m : Market) (tokens : List Token) (addresses : List String) : Prop where
  ordered : addresses.Pairwise (· < ·)
  mem : ∀ a, a ∈ addresses ↔ ∃ t ∈ tokens, ∃ r, m.reserveOf t = .ok r ∧ r.address = a

theorem exists_foldlM_insertAddress (hacc : acc.Pairwise (· < ·))
    (h : ∀ t ∈ tokens, ∃ r, m.reserveOf t = .ok r) :
    ∃ addresses, (tokens.foldlM (fun addresses token => do
        return insertAddress (← m.reserveOf token).address addresses) acc : Result _) =
          .ok addresses ∧
      addresses.Pairwise (· < ·) ∧
      ∀ a, a ∈ addresses ↔ a ∈ acc ∨ ∃ t ∈ tokens, ∃ r, m.reserveOf t = .ok r ∧ r.address = a := by
  -- Each token adds the address of its reserve to those of the tokens before it.
  induction tokens generalizing acc with
  | nil => exact ⟨acc, rfl, hacc, fun a => by simp⟩
  | cons t tokens ih =>
    obtain ⟨r, hr⟩ := h t List.mem_cons_self
    obtain ⟨addresses, hfold, hordered, hmem⟩ :=
      ih (pairwise_insertAddress r.address hacc)
        fun t ht => h t (List.mem_cons_of_mem _ ht)
    refine ⟨addresses, ?_, hordered, fun a => ?_⟩
    · rw [List.foldlM_cons, hr]
      exact hfold
    · have hhead : (∃ r', m.reserveOf t = .ok r' ∧ r'.address = a) ↔ a = r.address := by
        simp only [hr, Except.ok.injEq, exists_eq_left', eq_comm]
      rw [hmem, mem_insertAddress, List.exists_mem_cons_iff, hhead, or_assoc, or_left_comm]

theorem exists_addressesOf (h : ∀ t ∈ tokens, ∃ r, m.reserveOf t = .ok r) :
    ∃ addresses, m.addressesOf tokens = .ok addresses ∧ m.IsAddressesOf tokens addresses := by
  obtain ⟨addresses, hfold, hordered, hmem⟩ := exists_foldlM_insertAddress List.Pairwise.nil h
  exact ⟨addresses, hfold, hordered, fun a => (hmem a).trans (by simp)⟩

theorem addressesOf_congr (h : ∀ t ∈ tokens, ∃ r, m.reserveOf t = .ok r)
    (hleft : ∀ t ∈ others, ∃ s ∈ tokens, m.reserveOf t = m.reserveOf s)
    (hright : ∀ s ∈ tokens, ∃ t ∈ others, m.reserveOf s = m.reserveOf t) :
    m.addressesOf others = m.addressesOf tokens := by
  have hothers : ∀ t ∈ others, ∃ r, m.reserveOf t = .ok r := by
    intro t ht
    obtain ⟨s, hs, heq⟩ := hleft t ht
    exact heq ▸ h s hs
  obtain ⟨addresses, haddresses, hordered, hmem⟩ := exists_addressesOf h
  obtain ⟨addresses', haddresses', hordered', hmem'⟩ := exists_addressesOf hothers
  have hsame : addresses' = addresses := by
    refine hordered'.eq_of_mem_iff hordered fun a => ?_
    rw [hmem, hmem']
    constructor
    · rintro ⟨t, ht, r, hr, ha⟩
      obtain ⟨s, hs, heq⟩ := hleft t ht
      exact ⟨s, hs, r, heq ▸ hr, ha⟩
    · rintro ⟨s, hs, r, hr, ha⟩
      obtain ⟨t, ht, heq⟩ := hright s hs
      exact ⟨t, ht, r, heq ▸ hr, ha⟩
  rw [haddresses, haddresses', hsame]

end Market

/-- The type of a position, from whether its collateral and its debt are stable. -/
def PositionType.ofStable : Bool → Bool → Result PositionType
  | true, true => .error .allStablecoins
  | true, false => .ok .short
  | false, true => .ok .long
  | false, false => .error .noStablecoins

theorem PositionType.kind_of_ofStable {collateral debt : Bool} {e : Error}
    (h : ofStable collateral debt = .error e) : e.kind = .precondition .classification := by
  cases collateral <;> cases debt <;> cases h <;> rfl

namespace PriceFamily

variable {stablecoins : List Token} {m : Market} {o : Obligation} {collateral debt : String}

theorem positionType_of_addresses {addresses : List String}
    (hdeposit : o.deposits.map Prod.fst = [collateral]) (hborrow : o.borrows.map Prod.fst = [debt])
    (h : m.addressesOf stablecoins = .ok addresses) : positionType stablecoins ⟨m, o⟩ =
      PositionType.ofStable (addresses.contains collateral) (addresses.contains debt) := by
  simp only [positionType, hdeposit, hborrow, single, h, ok_bind]
  cases addresses.contains collateral <;> cases addresses.contains debt <;> rfl

theorem kind_of_positionType (hdeposit : o.deposits.map Prod.fst = [collateral])
    (hborrow : o.borrows.map Prod.fst = [debt])
    (hlisted : ∀ t ∈ stablecoins, ∃ r, m.reserveOf t = .ok r) {e : Error}
    (he : positionType stablecoins ⟨m, o⟩ = .error e) : e.kind = .precondition .classification := by
  obtain ⟨addresses, haddresses, -⟩ := Market.exists_addressesOf hlisted
  rw [positionType_of_addresses hdeposit hborrow haddresses] at he
  exact PositionType.kind_of_ofStable he

end PriceFamily

structure Service.IsTrimmed (service : Service) : Prop where
  symbols : ∀ s ∈ service.stablecoinSymbols, Text.trimSpacing s = s
  mints : ∀ a ∈ service.stablecoinMints, Text.trimSpacing a = a

namespace Settings

variable {settings : Settings}

theorem isTrimmed_of_ofDocument {document : Data} (h : ofDocument document = .ok settings) :
    (Service.ofSettings settings).IsTrimmed := by
  have htidy := isTidy_of_ofDocument h
  exact ⟨fun s hs => (htidy s (List.mem_append_left _ hs)).2,
    fun a ha => (htidy a (List.mem_append_right _ ha)).2⟩

theorem isTrimmed_of_ofText {text : String} (h : ofText text = .ok settings) :
    (Service.ofSettings settings).IsTrimmed := by
  unfold ofText at h
  split at h
  · exact isTrimmed_of_ofDocument h
  · exact isTrimmed_of_ofDocument h
  · exact absurd h (by simp)

end Settings

namespace Service

variable {service : Service} {m : Market} {r : Reserve} {t : Token}

/-- A reserve with a configured symbol, in any case, or with a configured mint. -/
def IsStable (service : Service) (r : Reserve) : Prop :=
  (∃ s ∈ service.stablecoinSymbols, Text.upper s = r.symbol) ∨ r.mint ∈ service.stablecoinMints

theorem mem_configuredStablecoins : t ∈ service.configuredStablecoins m ↔
    (∃ s ∈ service.stablecoinSymbols, (∃ r ∈ m.reserves, r.symbol = Text.upper s) ∧ .symbol s = t) ∨
      ∃ a ∈ service.stablecoinMints, (∃ r ∈ m.reserves, r.mint = a) ∧ .mint (.ofText a) = t := by
  simp only [configuredStablecoins, List.mem_append, List.mem_map, List.mem_filter, List.any_eq_true,
    beq_iff_eq, and_assoc]

theorem reserveOf_symbol_eq_ok {s : String} (hm : m.IsIndexed) (hs : Text.trimSpacing s = s) :
    m.reserveOf (.symbol s) = .ok r ↔ r ∈ m.reserves ∧ r.symbol = Text.upper s := by
  rw [Market.reserveOf, hm.isLookup_reserveOfSymbol.ok, hs]

theorem reserveOf_mint_eq_ok {a : String} (hm : m.IsIndexed) (ha : Text.trimSpacing a = a) :
    m.reserveOf (.mint (.ofText a)) = .ok r ↔ r ∈ m.reserves ∧ r.mint = a := by
  rw [Market.reserveOf, hm.isLookup_reserveOfMint.ok, Address.ofText, ha]

variable (hm : m.IsIndexed) (hs : service.IsTrimmed)
include hm hs

theorem exists_reserveOf_configured (ht : t ∈ service.configuredStablecoins m) :
    ∃ r, m.reserveOf t = .ok r := by
  obtain ⟨s, hmem, ⟨r, hr, hsymbol⟩, rfl⟩ | ⟨a, hmem, ⟨r, hr, hmint⟩, rfl⟩ :=
    mem_configuredStablecoins.mp ht
  · exact ⟨r, (reserveOf_symbol_eq_ok hm (hs.symbols s hmem)).mpr ⟨hr, hsymbol⟩⟩
  · exact ⟨r, (reserveOf_mint_eq_ok hm (hs.mints a hmem)).mpr ⟨hr, hmint⟩⟩

/-- The configured tokens name just the stable reserves of a market. -/
theorem exists_configured_iff : (∃ t ∈ service.configuredStablecoins m, m.reserveOf t = .ok r) ↔
    r ∈ m.reserves ∧ service.IsStable r := by
  constructor
  · rintro ⟨t, ht, hr⟩
    obtain ⟨s, hmem, -, rfl⟩ | ⟨a, hmem, -, rfl⟩ := mem_configuredStablecoins.mp ht
    · obtain ⟨hlisted, hsymbol⟩ := (reserveOf_symbol_eq_ok hm (hs.symbols s hmem)).mp hr
      exact ⟨hlisted, .inl ⟨s, hmem, hsymbol.symm⟩⟩
    · obtain ⟨hlisted, rfl⟩ := (reserveOf_mint_eq_ok hm (hs.mints a hmem)).mp hr
      exact ⟨hlisted, .inr hmem⟩
  · rintro ⟨hr, ⟨s, hmem, hsymbol⟩ | hmem⟩
    · exact ⟨.symbol s, mem_configuredStablecoins.mpr (.inl ⟨s, hmem, ⟨r, hr, hsymbol.symm⟩, rfl⟩),
        (reserveOf_symbol_eq_ok hm (hs.symbols s hmem)).mpr ⟨hr, hsymbol.symm⟩⟩
    · exact ⟨.mint (.ofText r.mint),
        mem_configuredStablecoins.mpr (.inr ⟨r.mint, hmem, ⟨r, hr, rfl⟩, rfl⟩),
        (reserveOf_mint_eq_ok hm (hs.mints _ hmem)).mpr ⟨hr, rfl⟩⟩

end Service

/-- The stablecoins of a service that a request leaves open have the addresses of the stable reserves,
so that the type of a position is decided by these, or not at all. -/
theorem Service.addressesOf_stablecoins {service : Service} {entries : Entries} {m : Market}
    (hm : Market.ofEntries entries = .ok m) (hs : service.IsTrimmed) :
    ∃ addresses, m.addressesOf (service.stablecoins m none) = .ok addresses ∧
      addresses.Pairwise (· < ·) ∧
      (∀ a, a ∈ addresses ↔ ∃ r ∈ m.reserves, service.IsStable r ∧ r.address = a) ∧
      ∀ o : Obligation, o.deposits.length = 1 → o.borrows.length = 1 →
        ∀ e, PriceFamily.positionType (service.stablecoins m none) ⟨m, o⟩ = .error e →
          e.kind = .precondition .classification := by
  have hindexed := Market.isIndexed_of_read hm
  have hlisted : ∀ t ∈ service.stablecoins m none, ∃ r, m.reserveOf t = .ok r :=
    fun t ht => Service.exists_reserveOf_configured hindexed hs ht
  obtain ⟨addresses, haddresses, hordered, hmem⟩ := Market.exists_addressesOf hlisted
  refine ⟨addresses, haddresses, hordered, fun a => ?_, fun o hdeposit hborrow e he => ?_⟩
  · have hstable (r : Reserve) : (∃ t ∈ service.stablecoins m none, m.reserveOf t = .ok r) ↔
        r ∈ m.reserves ∧ service.IsStable r := Service.exists_configured_iff hindexed hs
    rw [hmem]
    constructor
    · rintro ⟨t, ht, r, hr, ha⟩
      obtain ⟨hr, hstable⟩ := (hstable r).mp ⟨t, ht, hr⟩
      exact ⟨r, hr, hstable, ha⟩
    · rintro ⟨r, hr, hr', ha⟩
      obtain ⟨t, ht, hr⟩ := (hstable r).mpr ⟨hr, hr'⟩
      exact ⟨t, ht, r, hr, ha⟩
  · obtain ⟨collateral, hcollateral⟩ := List.length_eq_one_iff.mp hdeposit
    obtain ⟨debt, hdebt⟩ := List.length_eq_one_iff.mp hborrow
    exact PriceFamily.kind_of_positionType (by rw [hcollateral]; rfl) (by rw [hdebt]; rfl) hlisted he

/-- A stablecoin that is named in lower case, beside others that the market does not have. -/
theorem Service.addressesOf_stablecoins_usd :
    ∃ settings addresses,
      Settings.ofText "orders:\n  stablecoin_symbols: usd , eur\n  stablecoin_mints: yenMint\n" =
        .ok settings ∧
      longPosition.market.addressesOf
        ((Service.ofSettings settings).stablecoins longPosition.market none) = .ok addresses ∧
      "usd" ∈ addresses := by
  let settings : Settings :=
    ⟨"Lending Orders SDK", false, "INFO", ["usd", "eur"], ["yenMint"], (50, 200)⟩
  have hsettings : Settings.ofText
      "orders:\n  stablecoin_symbols: usd , eur\n  stablecoin_mints: yenMint\n" = .ok settings := by
    decide +kernel
  have hmarket : Market.ofEntries longPosition.market.toEntries = .ok longPosition.market := by
    decide +kernel
  obtain ⟨addresses, haddresses, -, hmem, -⟩ :=
    addressesOf_stablecoins hmarket (Settings.isTrimmed_of_ofText hsettings)
  have hstable : (Service.ofSettings settings).IsStable .dollar :=
    .inl ⟨"usd", List.mem_cons_self, by decide +kernel⟩
  exact ⟨settings, addresses, hsettings, haddresses,
    (hmem "usd").mpr ⟨.dollar, by decide, hstable, rfl⟩⟩

end LoanOrders
