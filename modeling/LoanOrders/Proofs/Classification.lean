import LoanOrders.Proofs.Stablecoins

/-! The type of a position is a matter of reserves. It does not depend on how the stablecoins are
listed and spelled, as long as they name the same reserves, and it is the opposite one for the
obligation with collateral and debt exchanged. -/

namespace LoanOrders

namespace PositionType

def opposite : PositionType → PositionType
  | long => short
  | short => long

theorem ofStable_exchange (collateral debt : Bool) :
    ofStable debt collateral = (ofStable collateral debt).map opposite := by
  cases collateral <;> cases debt <;> rfl

end PositionType

/-- How a token may be spelled that is to name a reserve: as the symbol, in any case and with spacing
around it, or as the address of the mint. The second text is the name itself. -/
inductive Reserve.Spelling (r : Reserve) : Token → String → Prop
  | symbol (left text right : String) (hleft : ∀ c ∈ left.toList, Text.isSpacing c = true)
      (hright : ∀ c ∈ right.toList, Text.isSpacing c = true) (h : Text.upper text = r.symbol) :
      r.Spelling (.symbol (left ++ text ++ right)) r.symbol
  | mint : r.Spelling (.mint (.ofText r.mint)) r.mint

/-- Two lists of tokens for the same reserves. -/
structure Market.Agree (m : Market) (tokens others : List Token) : Prop where
  left : ∀ t ∈ others, ∃ s ∈ tokens, m.reserveOf t = m.reserveOf s
  right : ∀ s ∈ tokens, ∃ t ∈ others, m.reserveOf s = m.reserveOf t

namespace Market

variable {m : Market} {r : Reserve} {tokens others : List Token} {s t : Token} {name : String}

/-- A list that is reordered, or whose members are repeated. -/
theorem Agree.of_mem_iff (h : ∀ t, t ∈ others ↔ t ∈ tokens) : m.Agree tokens others :=
  ⟨fun t ht => ⟨t, (h t).mp ht, rfl⟩, fun t ht => ⟨t, (h t).mpr ht, rfl⟩⟩

theorem exists_of_mem_replace {before after : List Token} (h : m.reserveOf t = m.reserveOf s) :
    ∀ u ∈ before ++ t :: after, ∃ v ∈ before ++ s :: after, m.reserveOf u = m.reserveOf v := by
  intro u hu
  obtain rfl | hu := List.mem_cons.mp (List.perm_middle.mem_iff.mp hu)
  · exact ⟨s, List.mem_append_right _ List.mem_cons_self, h⟩
  · exact ⟨u, List.perm_middle.mem_iff.mpr (List.mem_cons_of_mem _ hu), rfl⟩

theorem Agree.replace (before after : List Token) (h : m.reserveOf t = m.reserveOf s) :
    m.Agree (before ++ s :: after) (before ++ t :: after) :=
  ⟨exists_of_mem_replace h, exists_of_mem_replace h.symm⟩

theorem mem_of_reserveOf (h : m.reserveOf t = .ok r) : r ∈ m.reserves := by
  cases t with
  | symbol text => exact mem_of_find h
  | mint address => exact mem_of_find h

/-- A token finds the reserve that it spells exactly if the name has no separator at its ends. -/
theorem IsIndexed.reserveOf_eq_ok_iff (hm : m.IsIndexed) (hr : r ∈ m.reserves)
    (h : r.Spelling t name) :
    m.reserveOf t = .ok r ↔ Text.IsBare Text.isSeparator name.toList := by
  cases h with
  | symbol left text right hleft hright htext =>
    have htrim : Text.trimSpacing (left ++ text ++ right) = Text.trimSpacing text := by
      rw [Text.trimSpacing, String.toList_append, String.toList_append,
        Text.trimList_append hleft hright, Text.trimSpacing]
    rw [← hm.reserveOfSymbol_eq_ok_iff hr htext, reserveOf, hm.isLookup_reserveOfSymbol.ok,
      hm.isLookup_reserveOfSymbol.ok, htrim]
  | mint =>
    rw [reserveOf, hm.isLookup_reserveOfMint.ok, and_iff_right hr, Address.ofText, eq_comm,
      Text.trimSpacing_eq_self_iff_of_trimBlank (hm.named r hr).mint.bare]

end Market

namespace PriceFamily

variable {entries : Entries} {m : Market} {o : Obligation} {stablecoins others : List Token}
  {collateral debt : String}

theorem positionType_of_agree (hdeposit : o.deposits.map Prod.fst = [collateral])
    (hborrow : o.borrows.map Prod.fst = [debt])
    (hlisted : ∀ t ∈ stablecoins, ∃ r, m.reserveOf t = .ok r) (h : m.Agree stablecoins others) :
    positionType others ⟨m, o⟩ = positionType stablecoins ⟨m, o⟩ := by
  obtain ⟨addresses, haddresses, -⟩ := Market.exists_addressesOf hlisted
  have hothers := (Market.addressesOf_congr hlisted h.left h.right).trans haddresses
  rw [positionType_of_addresses hdeposit hborrow haddresses,
    positionType_of_addresses hdeposit hborrow hothers]

theorem positionType_exchange {exchanged : Obligation}
    (hdeposit : o.deposits.map Prod.fst = [collateral]) (hborrow : o.borrows.map Prod.fst = [debt])
    (hdeposit' : exchanged.deposits.map Prod.fst = [debt])
    (hborrow' : exchanged.borrows.map Prod.fst = [collateral])
    (hlisted : ∀ t ∈ stablecoins, ∃ r, m.reserveOf t = .ok r) :
    positionType stablecoins ⟨m, exchanged⟩ =
      (positionType stablecoins ⟨m, o⟩).map PositionType.opposite := by
  obtain ⟨addresses, haddresses, -⟩ := Market.exists_addressesOf hlisted
  rw [positionType_of_addresses hdeposit hborrow haddresses,
    positionType_of_addresses hdeposit' hborrow' haddresses]
  exact PositionType.ofStable_exchange _ _

/-- The stablecoins may be reordered and repeated, and each may be spelled in another way with which
its reserve is found. -/
theorem positionType_of_reserves (hm : Market.ofEntries entries = .ok m)
    (hdeposit : o.deposits.map Prod.fst = [collateral]) (hborrow : o.borrows.map Prod.fst = [debt])
    (hlisted : ∀ t ∈ stablecoins, ∃ r, m.reserveOf t = .ok r) :
    (∀ others, (∀ t, t ∈ others ↔ t ∈ stablecoins) →
      positionType others ⟨m, o⟩ = positionType stablecoins ⟨m, o⟩) ∧
    (∀ before after s t r name, stablecoins = before ++ s :: after → m.reserveOf s = .ok r →
      r.Spelling t name → Text.IsBare Text.isSeparator name.toList →
      positionType (before ++ t :: after) ⟨m, o⟩ = positionType stablecoins ⟨m, o⟩) ∧
    (∀ r ∈ m.reserves, ∀ t name, r.Spelling t name →
      (m.reserveOf t = .ok r ↔ Text.IsBare Text.isSeparator name.toList)) ∧
    (∀ exchanged : Obligation, exchanged.deposits.map Prod.fst = [debt] →
      exchanged.borrows.map Prod.fst = [collateral] →
      positionType stablecoins ⟨m, exchanged⟩ =
        (positionType stablecoins ⟨m, o⟩).map PositionType.opposite) ∧
    ∀ e, positionType stablecoins ⟨m, o⟩ = .error e → e.kind = .precondition .classification := by
  have hindexed := Market.isIndexed_of_read hm
  refine ⟨fun others h => positionType_of_agree hdeposit hborrow hlisted (.of_mem_iff h), ?_,
    fun r hr t name => hindexed.reserveOf_eq_ok_iff hr,
    fun exchanged hdeposit' hborrow' =>
      positionType_exchange hdeposit hborrow hdeposit' hborrow' hlisted,
    fun e he => kind_of_positionType hdeposit hborrow hlisted he⟩
  rintro before after s t r name rfl hs hspelling hbare
  have ht := (hindexed.reserveOf_eq_ok_iff (Market.mem_of_reserveOf hs) hspelling).mpr hbare
  exact positionType_of_agree hdeposit hborrow hlisted (.replace before after (ht.trans hs.symm))

theorem positionType_longPosition :
    positionType [.symbol "usd"] longPosition = .ok .long ∧
      positionType [.symbol "\tUsd "] longPosition = .ok .long ∧
      positionType [.symbol "usd"] ⟨longPosition.market, { longPosition.obligation with
        deposits := longPosition.obligation.borrows
        borrows := longPosition.obligation.deposits }⟩ = .ok .short := by
  have hmarket : Market.ofEntries longPosition.market.toEntries = .ok longPosition.market := by
    decide +kernel
  have hfound : longPosition.market.reserveOf (.symbol "usd") = .ok .dollar := by decide +kernel
  have hlong : positionType [.symbol "usd"] longPosition = .ok .long := by decide +kernel
  obtain ⟨-, hreplace, -, hexchange, -⟩ := positionType_of_reserves
    (o := longPosition.obligation) hmarket rfl rfl (List.forall_mem_singleton.mpr ⟨_, hfound⟩)
  refine ⟨hlong, ?_, ?_⟩
  · have hspelling : Reserve.dollar.Spelling (.symbol ("\t" ++ "Usd" ++ " ")) "USD" :=
      .symbol _ _ _ (by simp; rfl) (by simp; rfl) (by decide +kernel)
    exact (hreplace [] [] _ _ .dollar _ rfl hfound hspelling (by decide +kernel)).trans hlong
  · exact (hexchange _ rfl rfl).trans (by rw [hlong]; rfl)

/-- Where the mint of the stablecoin begins with a separator, the address of the mint does not stand for
the symbol: it names no reserve. -/
theorem positionType_markedMint :
    ∃ m : Market, ∃ r ∈ m.reserves, Market.ofEntries m.toEntries = .ok m ∧
      m.reserveOf (.symbol "USD") = .ok r ∧
      r.Spelling (.symbol "USD") r.symbol ∧ r.Spelling (.mint (.ofText r.mint)) r.mint ∧
      positionType [.symbol "USD"] ⟨m, longPosition.obligation⟩ = .ok .long ∧
      positionType [.mint (.ofText r.mint)] ⟨m, longPosition.obligation⟩ =
        .error (.reserveNotFound (.mint "usdMint") "market") := by
  let r : Reserve := ⟨"usd", "USD", "\x1cusdMint", 6, 80, 90, 100⟩
  have hspelling : r.Spelling (.symbol ("" ++ "USD" ++ "")) r.symbol :=
    .symbol _ _ _ (by simp) (by simp) (by decide +kernel)
  exact ⟨⟨"market", [⟨"sol", "SOL", "solMint", 9, 75, 85, 100⟩, r]⟩, r, by decide +kernel,
    by decide +kernel, by decide +kernel, hspelling, .mint, by decide +kernel, by decide +kernel⟩

end PriceFamily

end LoanOrders
