import LoanOrders.Market
import LoanOrders.Proofs.Snapshot
import LoanOrders.Proofs.UpperCase

/-! The lookups of a market. Each of the three names of a reserve is its own, so that a lookup finds
the one reserve with the name, or none has it. The lookup by symbol cuts off more at the ends of its
text than a stored symbol has lost: a symbol with a separator at an end is out of its reach. -/

namespace LoanOrders

structure Reserve.IsNamed (r : Reserve) : Prop where
  address : Data.IsName r.address
  symbol : Text.trimBlank r.symbol = r.symbol
  upper : Text.upper r.symbol = r.symbol
  mint : Data.IsName r.mint

theorem Reserve.isNamed_of_read {entries : Entries} {r : Reserve}
    (h : Reserve.read entries = .valid r) : r.IsNamed := by
  have hfields := isReadFrom_of_read h
  obtain ⟨_, haddress⟩ := Entries.required_eq_valid hfields.address
  obtain ⟨_, hsymbol⟩ := Entries.required_eq_valid hfields.symbol
  obtain ⟨_, hmint⟩ := Entries.required_eq_valid hfields.mint
  obtain ⟨given, hgiven, hupper⟩ := Validated.map_eq_valid.mp hsymbol
  refine ⟨Data.isName_of_asName haddress, ?_, ?_, Data.isName_of_asName hmint⟩
  · rw [← hupper, ← Text.upper_trimBlank, (Data.isName_of_asName hgiven).bare]
  · rw [← hupper, Text.upper_upper]

namespace Market

variable {m : Market} {r : Reserve} {entries : Entries}

structure IsIndexed (m : Market) : Prop where
  named : ∀ r ∈ m.reserves, r.IsNamed
  addresses : (m.reserves.map Reserve.address).Nodup
  symbols : (m.reserves.map Reserve.symbol).Nodup
  mints : (m.reserves.map Reserve.mint).Nodup

theorem duplicate?_eq_none {reserves : List Reserve} (h : duplicate? reserves = none) :
    (reserves.map Reserve.address).Nodup ∧ (reserves.map Reserve.symbol).Nodup ∧
      (reserves.map Reserve.mint).Nodup := by
  simp only [duplicate?, repeats, Bool.not_eq_true', decide_eq_false_iff_not, ite_not] at h
  split_ifs at h with haddresses hsymbols hmints
  exact ⟨haddresses, hsymbols, hmints⟩

theorem isIndexed_of_read (h : ofEntries entries = .ok m) : m.IsIndexed := by
  obtain ⟨hnone, hreserves⟩ := reserves_of_read h
  obtain ⟨haddresses, hsymbols, hmints⟩ := duplicate?_eq_none hnone
  refine ⟨fun r hr => ?_, haddresses, hsymbols, hmints⟩
  obtain ⟨_, hfields⟩ := hreserves r hr
  exact Reserve.isNamed_of_read hfields

/-- A lookup that gives the reserve which a text names and no other, and an error with the text
exactly if it names none. -/
structure IsLookup (m : Market) (lookup : String → Result Reserve) (key : String → ReserveKey)
    (Names : String → Reserve → Prop) : Prop where
  ok : ∀ text r, lookup text = .ok r ↔ r ∈ m.reserves ∧ Names text r
  error : ∀ text e, lookup text = .error e ↔
    (∀ r ∈ m.reserves, ¬ Names text r) ∧ e = .reserveNotFound (key text) m.address

theorem isLookup_find {name : Reserve → String} {normal : String → String}
    {key : String → ReserveKey} (hnodup : (m.reserves.map name).Nodup) :
    m.IsLookup (fun text => m.find (key text) (name · == normal text)) key
      fun text r => name r = normal text := by
  have hsearch (text : String) (r : Reserve) : m.reserves.find? (name · == normal text) = some r ↔
      r ∈ m.reserves ∧ name r = normal text := find?_key_eq_some hnodup
  constructor
  · intro text r
    rw [← hsearch, find]
    cases m.reserves.find? (name · == normal text) <;> simp
  · intro text e
    have hnone : m.reserves.find? (name · == normal text) = none ↔
        ∀ r ∈ m.reserves, ¬ name r = normal text := by
      rw [List.find?_eq_none]
      simp only [beq_iff_eq]
    rw [← hnone, find]
    cases m.reserves.find? (name · == normal text) <;> simp [eq_comm]

namespace IsIndexed

variable (h : m.IsIndexed)
include h

theorem isLookup_reserveAt : m.IsLookup m.reserveAt .address fun text r => r.address = text :=
  isLookup_find h.addresses

theorem isLookup_reserveOfMint : m.IsLookup m.reserveOfMint .mint fun text r => r.mint = text :=
  isLookup_find h.mints

theorem isLookup_reserveOfSymbol : m.IsLookup m.reserveOfSymbol .symbol
    fun text r => r.symbol = Text.upper (Text.trimSpacing text) :=
  isLookup_find h.symbols

/-- The symbol of a reserve finds it, in any case, as long as no separator is at an end of it. -/
theorem reserveOfSymbol_eq_ok_iff {text : String} (hr : r ∈ m.reserves)
    (htext : Text.upper text = r.symbol) :
    m.reserveOfSymbol text = .ok r ↔ Text.IsBare Text.isSeparator r.symbol.toList := by
  rw [h.isLookup_reserveOfSymbol.ok, and_iff_right hr, Text.upper_trimSpacing, htext, eq_comm,
    Text.trimSpacing_eq_self_iff_of_trimBlank (h.named r hr).symbol]

end IsIndexed

theorem lookups_of_read (h : ofEntries entries = .ok m) :
    m.IsLookup m.reserveAt .address (fun text r => r.address = text) ∧
    m.IsLookup m.reserveOfMint .mint (fun text r => r.mint = text) ∧
    m.IsLookup m.reserveOfSymbol .symbol
      (fun text r => r.symbol = Text.upper (Text.trimSpacing text)) ∧
    ∀ r ∈ m.reserves,
      m.reserveAt r.address = .ok r ∧ m.reserveOfMint r.mint = .ok r ∧
      Text.upper r.symbol = r.symbol ∧
      ∀ text, Text.upper text = r.symbol →
        (m.reserveOfSymbol text = .ok r ↔ Text.IsBare Text.isSeparator r.symbol.toList) := by
  have hm := isIndexed_of_read h
  refine ⟨hm.isLookup_reserveAt, hm.isLookup_reserveOfMint, hm.isLookup_reserveOfSymbol,
    fun r hr => ⟨?_, ?_, (hm.named r hr).upper, fun text => hm.reserveOfSymbol_eq_ok_iff hr⟩⟩
  · exact (hm.isLookup_reserveAt.ok _ _).mpr ⟨hr, rfl⟩
  · exact (hm.isLookup_reserveOfMint.ok _ _).mpr ⟨hr, rfl⟩

theorem lookups_longPosition :
    ofEntries longPosition.market.toEntries = .ok longPosition.market ∧
      longPosition.market.reserveOfSymbol "sol" = .ok ⟨"sol", "SOL", "solMint", 9, 75, 85, 100⟩ := by
  have hread : ofEntries longPosition.market.toEntries = .ok longPosition.market := by decide +kernel
  obtain ⟨-, -, -, hreserves⟩ := lookups_of_read hread
  obtain ⟨-, -, -, hsymbol⟩ := hreserves ⟨"sol", "SOL", "solMint", 9, 75, 85, 100⟩ List.mem_cons_self
  exact ⟨hread, (hsymbol "sol" (by decide +kernel)).mpr (by decide +kernel)⟩

end Market

def Reserve.dollar : Reserve := ⟨"usd", "USD", "usdMint", 6, 80, 90, 100⟩

/-- A token whose names differ from those of another by a separator. -/
def Reserve.bridgedDollar : Reserve := ⟨"bridged", "\x1cUSD", "\x1cusdMint", 6, 80, 90, 100⟩

/-- The symbol of the token finds the other one, or none if that is not there. -/
theorem Market.reserveOfSymbol_bridgedDollar :
    ofEntries (toEntries ⟨"market", [.bridgedDollar, .dollar]⟩) =
        .ok ⟨"market", [.bridgedDollar, .dollar]⟩ ∧
      ofEntries (toEntries ⟨"market", [.bridgedDollar]⟩) = .ok ⟨"market", [.bridgedDollar]⟩ ∧
      Text.upper Reserve.bridgedDollar.symbol = Reserve.bridgedDollar.symbol ∧
      reserveOfSymbol ⟨"market", [.bridgedDollar, .dollar]⟩ Reserve.bridgedDollar.symbol =
        .ok .dollar ∧
      reserveOfSymbol ⟨"market", [.bridgedDollar]⟩ Reserve.bridgedDollar.symbol =
        .error (.reserveNotFound (.symbol Reserve.bridgedDollar.symbol) "market") := by
  decide +kernel

end LoanOrders
