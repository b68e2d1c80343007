import LoanOrders.Proofs.Order
import LoanOrders.Proofs.Reading
import LoanOrders.Service

/-! What the settings of a document can be. They are there unless a section is no collection of entries
or a number in a text is too long, and their stablecoins are bare texts. Their bonus range is taken as it
is given: whether orders accept it depends on the document. -/

namespace LoanOrders

namespace Settings

variable {d document : Data} {value : Option Data} {entries : Entries} {name : String}

/-- A section that has entries, or none because it counts as not given. -/
def IsSection (value : Option Data) : Prop :=
  ∀ d ∈ value, (∃ entries, d = .object entries) ∨ isGiven d = false

def entriesOf : Option Data → Entries
  | some (.object entries) => entries
  | _ => []

theorem section?_eq_ok : section? value = .ok entries ↔
    IsSection value ∧ entriesOf value = entries := by
  cases value with
  | none => simp [section?, IsSection, entriesOf]
  | some d =>
    cases d with
    | object => simp [section?, IsSection, entriesOf]
    | scalar | decimal | list =>
      simp only [section?, IsSection, entriesOf, Option.mem_some_iff, forall_eq', reduceCtorEq,
        exists_const, false_or]
      split_ifs with hgiven <;> simp [hgiven]

/-- What a document says in one of its sections under a name. -/
def given (document : Data) (part name : String) : Option Data :=
  Entries.get? (entriesOf (Entries.get? (entriesOf (some document)) part)) name

theorem shown_eq_ok {text : String} : shown d = .ok text ↔ d.isShowable ∧ d.display = text := by
  unfold shown
  split_ifs with h <;> simp [h]

theorem exists_mapM_shown {items : List Data} :
    (∃ texts, items.mapM shown = .ok texts) ↔ areShowable items := by
  induction items with
  | nil => simp [areShowable]
  | cons item rest ih =>
    rw [areShowable, Bool.and_eq_true, ← ih]
    simp only [List.mapM_cons, bind_eq_ok, shown_eq_ok, pure_eq_ok, Except.ok.injEq]
    constructor
    · rintro ⟨_, _, ⟨hitem, -⟩, texts, htexts, -⟩
      exact ⟨hitem, texts, htexts⟩
    · rintro ⟨hitem, texts, htexts⟩
      exact ⟨_, _, ⟨hitem, rfl⟩, texts, htexts, rfl⟩

theorem toList_ok {texts : List String} (h : toList d = .ok texts) :
    d.isShowable ∧ ∃ given, texts = trimmed given := by
  unfold toList at h
  split at h
  · obtain rfl : [] = texts := by simpa using h
    exact ⟨rfl, [], rfl⟩
  · next items =>
    obtain ⟨given, hgiven, rfl⟩ := map_eq_ok.mp h
    exact ⟨exists_mapM_shown.mp ⟨given, hgiven⟩, given, rfl⟩
  · obtain ⟨text, htext, rfl⟩ := map_eq_ok.mp h
    exact ⟨(shown_eq_ok.mp htext).1, _, rfl⟩

theorem exists_toList (h : d.isShowable) : ∃ texts, toList d = .ok texts := by
  unfold toList
  split
  · exact ⟨[], rfl⟩
  · next items =>
    obtain ⟨given, hgiven⟩ := exists_mapM_shown.mpr h
    exact ⟨_, map_eq_ok.mpr ⟨given, hgiven, rfl⟩⟩
  · exact ⟨_, map_eq_ok.mpr ⟨_, shown_eq_ok.mpr ⟨h, rfl⟩, rfl⟩⟩

/-- A text with something in it and nothing around it. -/
def IsTidy (text : String) : Prop := text ≠ "" ∧ Text.trimSpacing text = text

theorem isTidy_of_toList {texts : List String} (h : toList d = .ok texts) : ∀ t ∈ texts, IsTidy t := by
  obtain ⟨-, given, rfl⟩ := toList_ok h
  intro t ht
  obtain ⟨hmem, hne⟩ := List.mem_filter.mp ht
  obtain ⟨raw, -, rfl⟩ := List.mem_map.mp hmem
  exact ⟨by simpa using hne, Text.trimSpacing_trimSpacing raw⟩

/-- The bonus range of two texts, each of which is replaced if it is no whole number. -/
def bonusOf (low high : String) : ℤ × ℤ :=
  ((Text.readInt? low).getD standardBonusBps.1, (Text.readInt? high).getD standardBonusBps.2)

/-- The document gives these two texts as its bonus range, in a list or in one text. -/
def GivesPair (document : Data) (low high : String) : Prop :=
  ∃ d ∈ given document "orders" "default_execution_bonus_bps", toList d = .ok [low, high]

/-- A bonus range in order and within the limit of a slot. -/
def IsWithin (range : ℤ × ℤ) : Prop := 0 ≤ range.1 ∧ range.1 ≤ range.2 ∧ range.2 ≤ 65535

theorem isWithin_standardBonusBps : IsWithin standardBonusBps := by
  norm_num [IsWithin, standardBonusBps]

theorem toRange_ok {range : ℤ × ℤ} (h : toRange d standardBonusBps = .ok range) :
    d.isShowable ∧ (∀ low high, toList d = .ok [low, high] → range = bonusOf low high) ∧
      ((∀ low high, toList d ≠ .ok [low, high]) → range = standardBonusBps) := by
  obtain ⟨texts, htexts, h⟩ := bind_eq_ok.mp h
  refine ⟨(toList_ok htexts).1, ?_⟩
  split at h
  · next low high =>
    obtain rfl : bonusOf low high = range := Except.ok.inj h
    rw [htexts]
    constructor
    · rintro _ _ ⟨⟩
      rfl
    · exact fun hnone => absurd rfl (hnone low high)
  · next hother =>
    obtain rfl : standardBonusBps = range := Except.ok.inj h
    refine ⟨fun low high hpair => ?_, fun _ => rfl⟩
    exact absurd (Except.ok.inj (htexts.symm.trans hpair)) (hother low high)

theorem exists_toRange (default : ℤ × ℤ) (h : d.isShowable) : ∃ range, toRange d default = .ok range := by
  obtain ⟨texts, htexts⟩ := exists_toList h
  simp only [toRange, htexts, ok_bind]
  split <;> exact ⟨_, rfl⟩

theorem isShowable_setting (default : Data) (hdefault : default.isShowable) :
    (setting entries name default).isShowable ↔ ∀ d ∈ Entries.get? entries name, d.isShowable := by
  rw [setting]
  cases Entries.get? entries name <;> simp [hdefault]

/-- The settings that are taken as texts, each with its section. -/
def shownSettings : List (String × String) :=
  [("app", "name"), ("app", "log_level"), ("orders", "stablecoin_symbols"),
    ("orders", "stablecoin_mints"), ("orders", "default_execution_bonus_bps")]

/-- A document whose sections can be opened and whose texts can be shown. -/
structure IsReadable (document : Data) : Prop where
  root : IsSection (some document)
  parts : ∀ part ∈ ["app", "orders"], IsSection (Entries.get? (entriesOf (some document)) part)
  showable : ∀ key ∈ shownSettings, ∀ d ∈ given document key.1 key.2, d.isShowable

theorem isReadable_of_ofDocument {s : Settings} (h : ofDocument document = .ok s) :
    IsReadable document := by
  simp only [ofDocument, bind_eq_ok, section?_eq_ok] at h
  obtain ⟨entries, ⟨hroot, rfl⟩, app, ⟨happ, rfl⟩, orders, ⟨horders, rfl⟩, name, hname, level, hlevel,
    symbols, hsymbols, mints, hmints, range, hrange, -⟩ := h
  refine ⟨hroot, by simp [happ, horders], ?_⟩
  simp only [shownSettings, List.forall_mem_cons, List.not_mem_nil, false_imp_iff, implies_true,
    and_true, given]
  exact ⟨(isShowable_setting _ rfl).mp (shown_eq_ok.mp hname).1,
    (isShowable_setting _ rfl).mp (shown_eq_ok.mp hlevel).1,
    (isShowable_setting _ rfl).mp (toList_ok hsymbols).1,
    (isShowable_setting _ rfl).mp (toList_ok hmints).1,
    (isShowable_setting _ rfl).mp (toRange_ok hrange).1⟩

theorem IsReadable.exists_ofDocument (h : IsReadable document) : ∃ s, ofDocument document = .ok s := by
  obtain ⟨hroot, hparts, hshowable⟩ := h
  simp only [List.forall_mem_cons, List.not_mem_nil, false_imp_iff, implies_true, and_true] at hparts
  simp only [shownSettings, List.forall_mem_cons, List.not_mem_nil, false_imp_iff, implies_true,
    and_true, given] at hshowable
  obtain ⟨hname, hlevel, hsymbols, hmints, hrange⟩ := hshowable
  have hname := (isShowable_setting (.text "Lending Orders SDK") rfl).mpr hname
  have hlevel (debug : Bool) :=
    (isShowable_setting (.text (if debug then "DEBUG" else "INFO")) rfl).mpr hlevel
  obtain ⟨symbols, hsymbols⟩ := exists_toList
    ((isShowable_setting (.list (standardSymbols.map .text)) rfl).mpr hsymbols)
  obtain ⟨mints, hmints⟩ := exists_toList ((isShowable_setting (.list []) rfl).mpr hmints)
  obtain ⟨range, hrange⟩ := exists_toRange standardBonusBps
    ((isShowable_setting (.list [.int standardBonusBps.1, .int standardBonusBps.2]) rfl).mpr hrange)
  have hentries := section?_eq_ok.mpr ⟨hroot, rfl⟩
  have happ := section?_eq_ok.mpr ⟨hparts.1, rfl⟩
  have horders := section?_eq_ok.mpr ⟨hparts.2, rfl⟩
  simp only [ofDocument, hentries, happ, horders, ok_bind, shown_eq_ok.mpr ⟨hname, rfl⟩,
    shown_eq_ok.mpr ⟨hlevel _, rfl⟩, hsymbols, hmints, hrange]
  exact ⟨_, rfl⟩

theorem isTidy_of_ofDocument {s : Settings} (h : ofDocument document = .ok s) :
    ∀ t ∈ s.stablecoinSymbols ++ s.stablecoinMints, IsTidy t := by
  simp only [ofDocument, bind_eq_ok, pure_eq_ok, Except.ok.injEq] at h
  obtain ⟨_, -, _, -, _, -, _, -, _, -, _, hsymbols, _, hmints, _, -, rfl⟩ := h
  intro t ht
  rcases List.mem_append.mp ht with ht | ht
  · exact isTidy_of_toList hsymbols t ht
  · exact isTidy_of_toList hmints t ht

theorem defaultBonusBps_eq {s : Settings} (h : ofDocument document = .ok s) :
    (∀ low high, GivesPair document low high → s.defaultBonusBps = bonusOf low high) ∧
      ((∀ low high, ¬GivesPair document low high) → s.defaultBonusBps = standardBonusBps) := by
  simp only [ofDocument, bind_eq_ok, section?_eq_ok, pure_eq_ok, Except.ok.injEq] at h
  obtain ⟨_, ⟨-, rfl⟩, _, -, _, ⟨-, rfl⟩, _, -, _, -, _, -, _, -, range, hrange, rfl⟩ := h
  rw [setting] at hrange
  unfold GivesPair given
  cases hgiven : Entries.get? (entriesOf (Entries.get? (entriesOf (some document)) "orders"))
      "default_execution_bonus_bps" with
  | none =>
    -- The default is shown and read like a range that is given.
    rw [hgiven] at hrange
    obtain rfl : standardBonusBps = range := Except.ok.inj hrange
    simp
  | some d =>
    rw [hgiven] at hrange
    simpa using (toRange_ok hrange).2

theorem isWithin_iff_givesPair {s : Settings} (h : ofDocument document = .ok s) :
    IsWithin s.defaultBonusBps ↔
      ∀ low high, GivesPair document low high → IsWithin (bonusOf low high) := by
  obtain ⟨hpair, hnone⟩ := defaultBonusBps_eq h
  constructor
  · intro hwithin low high hgives
    rw [← hpair low high hgives]
    exact hwithin
  · intro hwithin
    by_cases hgives : ∃ low high, GivesPair document low high
    · obtain ⟨low, high, hgives⟩ := hgives
      rw [hpair low high hgives]
      exact hwithin low high hgives
    · rw [hnone fun low high hpair => hgives ⟨low, high, hpair⟩]
      exact isWithin_standardBonusBps

end Settings

namespace Rate

variable {a b : ℤ} {x : Decimal}

theorem wholeBps_of_ofInt (h : ofBps (.ofInt a) = .ok x) (h₀ : 0 ≤ x.toRat)
    (hlt : x.toRat * fullBps < 10 ^ (6 : ℤ)) : wholeBps x.toRat = a := by
  have hkept := (bonusKept_of_wholeBps rfl h h₀ hlt).2
    ⟨a, by rw [Decimal.toRat_ofInt, pow_zero, mul_one]⟩
  rw [Decimal.toRat_ofInt] at hkept
  exact_mod_cast hkept

theorem ofBonusRange_iff_isWithin :
    (∃ rates, ofBonusRange (Decimal.ofInt a) (Decimal.ofInt b) = .ok rates) ↔
      Settings.IsWithin (a, b) := by
  constructor
  · rintro ⟨⟨low, high⟩, h⟩
    obtain ⟨_, _, ⟨⟩, ⟨⟩, -, -, hlow, hhigh, hrange⟩ := ofBonusRange_ok h
    have hhighlt := lt_of_wholeBps_le hrange.high_le
    have hlowlt := (mul_le_mul_of_nonneg_right hrange.low_le_high (Nat.cast_nonneg _)).trans_lt hhighlt
    have hnonneg := wholeBps_nonneg hrange.low_nonneg
    have hle := wholeBps_mono hrange.low_le_high
    have hlimit := hrange.high_le
    -- Whole basis points come back from their rates, so the checks of the rates are checks of them.
    rw [wholeBps_of_ofInt hlow hrange.low_nonneg hlowlt] at hnonneg hle
    rw [wholeBps_of_ofInt hhigh (hrange.low_nonneg.trans hrange.low_le_high) hhighlt] at hle hlimit
    exact ⟨hnonneg, hle, hlimit⟩
  · rintro ⟨hnonneg, hle, hlimit⟩
    lift a to ℕ using hnonneg
    lift b to ℕ using (Nat.cast_nonneg a).trans hle
    replace hle : a ≤ b := Nat.cast_le.mp hle
    replace hlimit : b ≤ maxBonusBps := Nat.cast_le.mp hlimit
    obtain ⟨low, -, hlow, hlowfin, hlowval, -⟩ := exists_ofBps (hle.trans hlimit)
    obtain ⟨high, -, hhigh, hhighfin, hhighval, -⟩ := exists_ofBps hlimit
    have hrange : IsBonusRange low high :=
      ⟨hlowfin, hhighfin, by rw [hlowval]; positivity, by rw [hlowval, hhighval]; gcongr,
        by rw [hhighval, wholeBps_eq hlimit]; exact_mod_cast hlimit⟩
    obtain ⟨-, n, -, hn, -⟩ := Order.exists_bonusBps hrange
    rw [Decimal.ofInt_natCast, Decimal.ofInt_natCast]
    exact ⟨_, Order.ofBonusRange_of_bonusBps hlow hhigh hrange hn⟩

end Rate

namespace Settings

theorem bonusBps_of_specification {s : Settings} {trigger : Trigger} {action : Action}
    {spec : Specification}
    (h : (Service.ofSettings s).specification trigger action none = .ok spec) :
    spec.bonusBps = (.ofInt s.defaultBonusBps.1, .ofInt s.defaultBonusBps.2) := by
  rw [Service.specification, Specification.ofParts, Specification.ofEntries,
    Validated.result_eq_ok] at h
  simp only [Specification.read, Validated.seq_eq_valid, Validated.map_eq_valid] at h
  obtain ⟨_, bonus, ⟨_, _, ⟨_, -, rfl⟩, -, rfl⟩, hbonus, rfl⟩ := h
  have hread : Specification.readBonus (Service.ofSettings s).defaultBonus =
      .valid (.ofInt s.defaultBonusBps.1, .ofInt s.defaultBonusBps.2) := rfl
  rw [Entries.required_eq rfl hread, Validated.valid.injEq] at hbonus
  exact hbonus.symm

/-- Settings are there for every readable document, and for no other one. Their stablecoins are bare
texts. Their bonus range is the one that is given, where it is given as a pair; it is within the limits
unless that pair is not, and orders accept it as their default only then. -/
theorem ofDocument_usable (document : Data) :
    (∀ text, Yaml.read text = .ok document → ofText text = ofDocument document) ∧
    ((∃ s, ofDocument document = .ok s) ↔ IsReadable document) ∧
    ∀ s, ofDocument document = .ok s →
      (∀ t ∈ s.stablecoinSymbols ++ s.stablecoinMints, IsTidy t) ∧
      (∀ low high, GivesPair document low high → s.defaultBonusBps = bonusOf low high) ∧
      (IsWithin s.defaultBonusBps ↔
        ∀ low high, GivesPair document low high → IsWithin (bonusOf low high)) ∧
      ∀ trigger action spec,
        (Service.ofSettings s).specification trigger action none = .ok spec →
        ((∃ rates, Rate.ofBonusRange spec.bonusBps.1 spec.bonusBps.2 = .ok rates) ↔
          IsWithin s.defaultBonusBps) := by
  refine ⟨fun text h => by rw [ofText, h],
    ⟨fun ⟨s, h⟩ => isReadable_of_ofDocument h, IsReadable.exists_ofDocument⟩, fun s h => ?_⟩
  refine ⟨isTidy_of_ofDocument h, (defaultBonusBps_eq h).1, isWithin_iff_givesPair h,
    fun trigger action spec hspec => ?_⟩
  rw [bonusBps_of_specification hspec]
  exact Rate.ofBonusRange_iff_isWithin

/-- A bonus range that is given as one text, and an order that takes it as its default. -/
theorem ofDocument_usable_text : ∃ s,
    ofText "orders:\n  default_execution_bonus_bps: '10,75'\n" = .ok s ∧ ∃ spec,
      (Service.ofSettings s).specification (.ltv (.stopLoss (.ofNat 60))) .fullRepay none = .ok spec ∧
      ∃ rates, Rate.ofBonusRange spec.bonusBps.1 spec.bonusBps.2 = .ok rates := by
  obtain ⟨document, hread⟩ : ∃ document,
      Yaml.read "orders:\n  default_execution_bonus_bps: '10,75'\n" = .ok document :=
    exists_of_isOk (by decide +kernel)
  have hsettings : ofText "orders:\n  default_execution_bonus_bps: '10,75'\n" =
      .ok { standard with defaultBonusBps := (10, 75) } := by
    decide +kernel
  have hspec : (Service.ofSettings { standard with defaultBonusBps := (10, 75) }).specification
      (.ltv (.stopLoss (.ofNat 60))) .fullRepay none =
      .ok ⟨.ltv (.stopLoss (.ofNat 60)), .fullRepay, (.ofInt 10, .ofInt 75)⟩ := rfl
  obtain ⟨htext, -, hall⟩ := ofDocument_usable document
  obtain ⟨-, -, -, haccepted⟩ := hall _ ((htext _ hread).symm.trans hsettings)
  exact ⟨_, hsettings, _, hspec, (haccepted _ _ _ hspec).mpr (by norm_num [IsWithin])⟩

/-- One bound that is no number is replaced alone, and the other one may be above what replaces it. -/
theorem ofText_reversed :
    ofText "orders:\n  default_execution_bonus_bps: [300, many]\n" =
        .ok { standard with defaultBonusBps := (300, 200) } ∧
      Rate.ofBonusRange (Decimal.ofInt 300) (Decimal.ofInt 200) =
        .error (.bonusRangeReversed (.finite false 2 (-2)) (.finite false 3 (-2))) ∧
      (Yaml.read "- USDC\n").isOk ∧ ofText "- USDC\n" = .error .notMapping := by
  decide +kernel

end Settings

end LoanOrders
