import LoanOrders.Obligation.Execution
import LoanOrders.Proofs.Comparison

/-! Which deposit a withdrawal comes from. The candidates are the deposits of the lowest liquidation loan to
value above zero, in whichever order they are found; the first greatest of them is taken, for its value and
then for its mint. -/

namespace LoanOrders

open Decimal

section FirstMax

variable {α β : Type} [LinearOrder β] {key : α → β} {more : α → α → Result Bool} {first best a : α}
  {rest l : List α}

/-- The first of the items with the greatest key. -/
def IsFirstMax (key : α → β) (l : List α) (best : α) : Prop :=
  ∃ before after, l = before ++ best :: after ∧ (∀ a ∈ before, key a < key best) ∧
    ∀ a ∈ after, key a ≤ key best

/-- A test that compares the items of a list by a key. -/
def Compares (more : α → α → Result Bool) (key : α → β) (l : List α) : Prop :=
  ∀ a ∈ l, ∀ b ∈ l, ∃ r, more a b = .ok r ∧ (r = true ↔ key b < key a)

theorem IsFirstMax.mem (h : IsFirstMax key l best) : best ∈ l := by
  obtain ⟨before, after, rfl, -, -⟩ := h
  simp

theorem IsFirstMax.le (h : IsFirstMax key l best) (ha : a ∈ l) : key a ≤ key best := by
  obtain ⟨before, after, rfl, hbefore, hafter⟩ := h
  rcases List.mem_append.mp ha with ha | ha
  · exact (hbefore a ha).le
  · rcases List.mem_cons.mp ha with rfl | ha
    · exact le_rfl
    · exact hafter a ha

theorem IsFirstMax.cons (h : IsFirstMax key l best) (ha : key a < key best) :
    IsFirstMax key (a :: l) best := by
  obtain ⟨before, after, rfl, hbefore, hafter⟩ := h
  refine ⟨a :: before, after, rfl, ?_, hafter⟩
  simpa [ha] using hbefore

/-- An item that is not above an earlier one does not matter. -/
theorem IsFirstMax.skip (h : IsFirstMax key (first :: rest) best) (ha : key a ≤ key first) :
    IsFirstMax key (first :: a :: rest) best := by
  obtain ⟨before, after, hl, hbefore, hafter⟩ := h
  cases before with
  | nil =>
    obtain ⟨rfl, rfl⟩ := List.cons.inj hl
    exact ⟨[], a :: rest, rfl, by simp, by simpa [ha] using hafter⟩
  | cons b before =>
    obtain ⟨rfl, rfl⟩ := List.cons.inj hl
    have hfirst := hbefore first List.mem_cons_self
    refine ⟨first :: a :: before, after, rfl, ?_, hafter⟩
    simpa [hfirst, ha.trans_lt hfirst] using hbefore

theorem Compares.mono {l' : List α} (h : Compares more key l) (hsub : l' ⊆ l) : Compares more key l' :=
  fun a ha b hb => h a (hsub ha) b (hsub hb)

theorem Compares.exists_firstMax (h : Compares more key (first :: rest)) :
    ∃ best, firstMax more first rest = .ok best := by
  unfold firstMax
  induction rest generalizing first with
  | nil => exact ⟨first, rfl⟩
  | cons a rest ih =>
    obtain ⟨r, hr, -⟩ := h a (by simp) first (by simp)
    rw [List.foldlM_cons, hr, ok_bind]
    cases r with
    | true => exact ih (h.mono (List.subset_cons_self _ _))
    | false => exact ih (h.mono (List.cons_subset_cons _ (List.subset_cons_self _ _)))

theorem firstMax_mem (h : firstMax more first rest = .ok best) : best ∈ first :: rest := by
  unfold firstMax at h
  induction rest generalizing first with
  | nil =>
    obtain rfl : first = best := by simpa using h
    exact List.mem_cons_self
  | cons a rest ih =>
    rw [List.foldlM_cons] at h
    obtain ⟨kept, hkept, hrest⟩ := bind_eq_ok.mp h
    obtain ⟨isMore, -, hchoice⟩ := bind_eq_ok.mp hkept
    have hmem := ih hrest
    cases isMore with
    | true =>
      obtain rfl : a = kept := by simpa using hchoice
      exact List.mem_cons_of_mem _ hmem
    | false =>
      obtain rfl : first = kept := by simpa using hchoice
      exact List.cons_subset_cons _ (List.subset_cons_self _ _) hmem

theorem Compares.isFirstMax (hmore : Compares more key (first :: rest))
    (h : firstMax more first rest = .ok best) : IsFirstMax key (first :: rest) best := by
  unfold firstMax at h
  induction rest generalizing first with
  | nil =>
    obtain rfl : first = best := by simpa using h
    exact ⟨[], [], rfl, by simp, by simp⟩
  | cons a rest ih =>
    obtain ⟨r, hr, hiff⟩ := hmore a (by simp) first (by simp)
    rw [List.foldlM_cons, hr, ok_bind] at h
    cases r with
    | true =>
      have hlater := ih (hmore.mono (List.subset_cons_self _ _)) h
      exact hlater.cons ((hiff.mp rfl).trans_le (hlater.le List.mem_cons_self))
    | false =>
      have hle : key a ≤ key first := not_lt.mp fun hlt => by simpa using hiff.mpr hlt
      exact (ih (hmore.mono (List.cons_subset_cons _ (List.subset_cons_self _ _))) h).skip hle

/-- With a key that tells all items apart the greatest one is found in any order. -/
theorem Compares.firstMax_eq_ok (hmore : Compares more key (first :: rest))
    (hkey : ∀ a ∈ first :: rest, ∀ b ∈ first :: rest, key a = key b → a = b) :
    firstMax more first rest = .ok best ↔
      best ∈ first :: rest ∧ ∀ a ∈ first :: rest, key a ≤ key best := by
  constructor
  · intro h
    have hmax := hmore.isFirstMax h
    exact ⟨hmax.mem, fun a ha => hmax.le ha⟩
  · rintro ⟨hmem, hle⟩
    obtain ⟨found, hfound⟩ := hmore.exists_firstMax
    have hmax := hmore.isFirstMax hfound
    rw [hfound, hkey found hmax.mem best hmem (le_antisymm (hle found hmax.mem) (hmax.le hmem))]

theorem compares_gt {positions : List Position} (hvalues : ∀ p ∈ positions, p.value.isFinite) :
    Compares (fun a b => (liftM (a.value.gt b.value) : Result Bool)) (fun p => p.value.toRat)
      positions := by
  intro a ha b hb
  dsimp only
  rw [gt_eq (hvalues a ha) (hvalues b hb)]
  exact ⟨_, rfl, decide_eq_true_iff⟩

end FirstMax

/-- The liquidation loan to value of the reserve of a position. -/
def Market.HasLtv (market : Market) (p : Position) (ltv : Decimal) : Prop :=
  ∃ max, Obligation.reserveLimits market p.reserve = .ok (max, ltv)

section Withdrawal

variable {market : Market} {o : Obligation} {p : Position} {ltv value : Decimal}

theorem Market.HasLtv.isFinite (h : market.HasLtv p ltv) : ltv.isFinite := by
  obtain ⟨max, h⟩ := h
  simp only [Obligation.reserveLimits, bind_eq_ok, liftM_eq_ok, pure_eq_ok, Except.ok.injEq,
    Prod.mk.injEq] at h
  obtain ⟨r, -, _, -, _, hrate, -, rfl⟩ := h
  exact (Context.div_ok (x := .ofNat r.liquidationThresholdPct) (y := .ofNat 100) rfl rfl hrate).2.1

theorem Market.HasLtv.unique {ltv' : Decimal} (h : market.HasLtv p ltv) (h' : market.HasLtv p ltv') :
    ltv = ltv' := by
  obtain ⟨max, h⟩ := h
  obtain ⟨max', h'⟩ := h'
  exact (Prod.mk.inj (Except.ok.inj (h.symm.trans h'))).2

theorem Liquidatable.ofDeposits_ok {deposits : List Position} {found : List Liquidatable}
    (h : ofDeposits market deposits = .ok found) :
    (∀ p ∈ deposits, ∃ ltv, market.HasLtv p ltv) ∧
      ∀ l, l ∈ found ↔ l.2 ∈ deposits ∧ market.HasLtv l.2 l.1 ∧ 0 < l.1.toRat := by
  induction deposits generalizing found with
  | nil =>
    obtain rfl : [] = found := by simpa [ofDeposits] using h
    simp
  | cons deposit rest ih =>
    simp only [ofDeposits, bind_eq_ok, liftM_eq_ok, pure_eq_ok, Except.ok.injEq] at h
    obtain ⟨⟨max, ltv⟩, hlimits, isLiquidatable, hgt, others, hothers, rfl⟩ := h
    have hltv : market.HasLtv deposit ltv := ⟨max, hlimits⟩
    obtain ⟨hknown, hmem⟩ := ih hothers
    rw [gt_zero hltv.isFinite, Except.ok.injEq] at hgt
    refine ⟨by simpa using ⟨⟨ltv, hltv⟩, hknown⟩, fun l => ?_⟩
    have hfirst : l.2 = deposit → market.HasLtv l.2 l.1 → l.1 = ltv := fun h hl =>
      (h ▸ hl).unique hltv
    by_cases hpos : 0 < ltv.toRat
    · obtain rfl : true = isLiquidatable := by simpa [hpos] using hgt
      simp only [if_true, List.mem_cons, hmem]
      constructor
      · rintro (rfl | ⟨hl, hl'⟩)
        · exact ⟨.inl rfl, hltv, hpos⟩
        · exact ⟨.inr hl, hl'⟩
      · rintro ⟨hl | hl, hl'⟩
        · exact .inl (Prod.ext (hfirst hl hl'.1) hl)
        · exact .inr ⟨hl, hl'⟩
    · obtain rfl : false = isLiquidatable := by simpa [hpos] using hgt
      simp only [Bool.false_eq_true, if_false, List.mem_cons, hmem]
      constructor
      · rintro ⟨hl, hl'⟩
        exact ⟨.inr hl, hl'⟩
      · rintro ⟨hl | hl, hl'⟩
        · exact absurd (hfirst hl hl'.1 ▸ hl'.2) hpos
        · exact ⟨hl, hl'⟩

theorem Liquidatable.exists_ofDeposits {deposits : List Position}
    (h : ∀ p ∈ deposits, ∃ ltv, market.HasLtv p ltv) : ∃ found, ofDeposits market deposits = .ok found := by
  induction deposits with
  | nil => exact ⟨[], rfl⟩
  | cons deposit rest ih =>
    obtain ⟨ltv, hltv⟩ := h deposit (by simp)
    obtain ⟨max, hlimits⟩ := id hltv
    obtain ⟨others, hothers⟩ := ih fun p hp => h p (List.mem_cons_of_mem _ hp)
    simp only [ofDeposits, hlimits, gt_zero hltv.isFinite, hothers, liftM_ok, ok_bind, pure_eq_ok]
    exact ⟨_, rfl⟩

theorem Liquidatable.foldlM_smaller {rest : List Liquidatable} {lowest : Decimal}
    (hlowest : lowest.isFinite) (hrest : ∀ l ∈ rest, l.1.isFinite)
    (h : rest.foldlM (fun lowest (l : Liquidatable) => lowest.smaller l.1) lowest = .ok ltv) :
    (lowest = ltv ∨ ∃ l ∈ rest, l.1 = ltv) ∧ ltv.toRat ≤ lowest.toRat ∧
      ∀ l ∈ rest, ltv.toRat ≤ l.1.toRat := by
  induction rest generalizing lowest with
  | nil =>
    obtain rfl : lowest = ltv := by simpa using h
    exact ⟨.inl rfl, le_rfl, by simp⟩
  | cons l rest ih =>
    have hl := hrest l (by simp)
    have hlater := fun l hl => hrest l (List.mem_cons_of_mem _ hl)
    rw [List.foldlM_cons, smaller_eq hlowest hl, ok_bind] at h
    by_cases hlt : l.1.toRat < lowest.toRat
    · rw [if_pos hlt] at h
      obtain ⟨hmem, hle, hall⟩ := ih hl hlater h
      refine ⟨.inr ?_, hle.trans hlt.le, ?_⟩
      · simpa [eq_comm] using hmem
      · simpa [hle] using hall
    · rw [if_neg hlt] at h
      obtain ⟨hmem, hle, hall⟩ := ih hlowest hlater h
      refine ⟨?_, hle, ?_⟩
      · exact hmem.imp_right fun ⟨l', hl', heq⟩ => ⟨l', by simp [hl'], heq⟩
      · simpa [hle.trans (not_lt.mp hlt)] using hall

theorem Liquidatable.lowestLtv_ok {first : Liquidatable} {rest : List Liquidatable}
    (hfin : ∀ l ∈ first :: rest, l.1.isFinite) (h : lowestLtv first rest = .ok ltv) :
    (∃ l ∈ first :: rest, l.1 = ltv) ∧ ∀ l ∈ first :: rest, ltv.toRat ≤ l.1.toRat := by
  obtain ⟨hmem, hall⟩ := foldlM_smaller (hfin first (by simp)) (fun l hl => hfin l (by simp [hl])) h
  exact ⟨by simpa using hmem, by simpa using hall⟩

theorem Liquidatable.exists_foldlM_smaller {rest : List Liquidatable} {lowest : Decimal}
    (hlowest : lowest.isFinite) (hrest : ∀ l ∈ rest, l.1.isFinite) :
    ∃ ltv, rest.foldlM (fun lowest (l : Liquidatable) => lowest.smaller l.1) lowest = .ok ltv ∧
      ltv.isFinite := by
  induction rest generalizing lowest with
  | nil => exact ⟨lowest, rfl, hlowest⟩
  | cons l rest ih =>
    have hl := hrest l (by simp)
    rw [List.foldlM_cons, smaller_eq hlowest hl, ok_bind]
    refine ih ?_ fun l hl => hrest l (List.mem_cons_of_mem _ hl)
    split_ifs
    · exact hl
    · exact hlowest

theorem Liquidatable.exists_lowestLtv {first : Liquidatable} {rest : List Liquidatable}
    (h : ∀ l ∈ first :: rest, l.1.isFinite) : ∃ ltv, lowestLtv first rest = .ok ltv ∧ ltv.isFinite :=
  exists_foldlM_smaller (h first (by simp)) fun l hl => h l (by simp [hl])

end Withdrawal

/-- A deposit with the lowest liquidation loan to value above zero. -/
structure Market.IsLowest (market : Market) (deposits : List Position) (p : Position) : Prop where
  mem : p ∈ deposits
  ltv : ∃ ltv, market.HasLtv p ltv ∧ 0 < ltv.toRat ∧
    ∀ q ∈ deposits, ∀ l, market.HasLtv q l → 0 < l.toRat → ltv.toRat ≤ l.toRat

namespace Candidate

variable {market : Market} {deposits : List Position} {found : List Liquidatable}
  {candidates : List Candidate} {ltv value : Decimal}

theorem ofLtv_ok (hltv : ltv.isFinite) (hfin : ∀ l ∈ found, l.1.isFinite)
    (h : ofLtv ltv value found = .ok candidates) (c : Candidate) :
    c ∈ candidates ↔ (∃ l ∈ found, l.2 = c.2 ∧ l.1.toRat = ltv.toRat) ∧
      c.2.value.smaller value = .ok c.1 := by
  induction found generalizing candidates with
  | nil =>
    obtain rfl : [] = candidates := by simpa [ofLtv] using h
    simp
  | cons first rest ih =>
    have hrest := fun l hl => hfin l (List.mem_cons_of_mem _ hl)
    rw [ofLtv, same_eq (hfin first (by simp)) hltv, ok_bind] at h
    by_cases hsame : first.1.toRat = ltv.toRat
    · simp only [hsame, decide_true, if_true, bind_eq_ok, pure_eq_ok, Except.ok.injEq] at h
      obtain ⟨withdrawn, hwithdrawn, others, hothers, rfl⟩ := h
      rw [List.mem_cons, ih hrest hothers]
      constructor
      · rintro (rfl | ⟨⟨l, hl, hl'⟩, hc⟩)
        · exact ⟨⟨first, by simp, rfl, hsame⟩, hwithdrawn⟩
        · exact ⟨⟨l, by simp [hl], hl'⟩, hc⟩
      · rintro ⟨⟨l, hl, hl', hltv'⟩, hc⟩
        rcases List.mem_cons.mp hl with rfl | hl
        · refine .inl (Prod.ext ?_ hl'.symm)
          rw [← hl'] at hc
          exact Except.ok.inj (hc.symm.trans hwithdrawn)
        · exact .inr ⟨⟨l, hl, hl', hltv'⟩, hc⟩
    · simp only [hsame, decide_false, Bool.false_eq_true, if_false] at h
      rw [ih hrest h]
      simp [hsame]

theorem exists_ofLtv (hltv : ltv.isFinite) (h : ∀ l ∈ found, l.1.isFinite ∧
      ∃ w, l.2.value.smaller value = .ok w) : ∃ candidates, ofLtv ltv value found = .ok candidates := by
  induction found with
  | nil => exact ⟨[], rfl⟩
  | cons first rest ih =>
    obtain ⟨hfirst, w, hw⟩ := h first (by simp)
    obtain ⟨others, hothers⟩ := ih fun l hl => h l (List.mem_cons_of_mem _ hl)
    rw [ofLtv, same_eq hfirst hltv, ok_bind, hw, hothers]
    by_cases hsame : first.1.toRat = ltv.toRat
    · exact ⟨_, if_pos (by simpa using hsame)⟩
    · exact ⟨_, if_neg (by simpa using hsame)⟩

/-- The candidates are the deposits of the lowest loan to value, in whichever order they are found. -/
theorem ofLowest_ok (hfound : Liquidatable.ofDeposits market deposits = .ok found)
    (h : ofLowest value found = .ok candidates) (c : Candidate) :
    c ∈ candidates ↔ market.IsLowest deposits c.2 ∧ c.2.value.smaller value = .ok c.1 := by
  have hmem := (Liquidatable.ofDeposits_ok hfound).2
  have hfin : ∀ l ∈ found, l.1.isFinite := fun l hl => ((hmem l).mp hl).2.1.isFinite
  cases found with
  | nil =>
    obtain rfl : [] = candidates := by simpa [ofLowest] using h
    constructor
    · simp
    · rintro ⟨⟨hc, ltv, hltv, hpos, -⟩, -⟩
      exact absurd ((hmem (ltv, c.2)).mpr ⟨hc, hltv, hpos⟩) (by simp)
  | cons first rest =>
    obtain ⟨lowest, hlowest, h⟩ := bind_eq_ok.mp h
    obtain ⟨⟨least, hleast, rfl⟩, hle⟩ := Liquidatable.lowestLtv_ok hfin hlowest
    obtain ⟨hleastMem, hleastLtv, hleastPos⟩ := (hmem least).mp hleast
    rw [ofLtv_ok (hfin least hleast) hfin h]
    refine and_congr_left fun _ => ⟨?_, ?_⟩
    · rintro ⟨l, hl, hc, heq⟩
      obtain ⟨hlMem, hlLtv, hlPos⟩ := (hmem l).mp hl
      rw [← hc]
      refine ⟨hlMem, l.1, hlLtv, hlPos, fun q hq l' hl' hpos => ?_⟩
      rw [heq]
      exact hle (l', q) ((hmem (l', q)).mpr ⟨hq, hl', hpos⟩)
    · rintro ⟨hc, ltv, hltv, hpos, hlow⟩
      have hin := (hmem (ltv, c.2)).mpr ⟨hc, hltv, hpos⟩
      exact ⟨(ltv, c.2), hin, rfl,
        le_antisymm (hlow least.2 hleastMem least.1 hleastLtv hleastPos) (hle _ hin)⟩

theorem exists_ofLowest (hfound : Liquidatable.ofDeposits market deposits = .ok found)
    (h : ∀ p ∈ deposits, ∃ w, p.value.smaller value = .ok w) :
    ∃ candidates, ofLowest value found = .ok candidates := by
  have hmem := (Liquidatable.ofDeposits_ok hfound).2
  cases found with
  | nil => exact ⟨[], rfl⟩
  | cons first rest =>
    have hall : ∀ l ∈ first :: rest, l.1.isFinite ∧ ∃ w, l.2.value.smaller value = .ok w := by
      intro l hl
      obtain ⟨hlMem, hlLtv, -⟩ := (hmem l).mp hl
      exact ⟨hlLtv.isFinite, h l.2 hlMem⟩
    obtain ⟨ltv, hltv, hfin⟩ := Liquidatable.exists_lowestLtv fun l hl => (hall l hl).1
    rw [ofLowest, hltv, ok_bind]
    exact exists_ofLtv hfin hall

/-- What candidates are compared by. -/
def rank (c : Candidate) : ℚ ×ₗ String := toLex (c.1.toRat, c.2.mint)

/-- Unless what is asked for is below all numbers, it is a number that is withdrawn. -/
theorem smaller_cases (hfin : ∀ c ∈ candidates, c.2.value.isFinite)
    (h : ∀ c ∈ candidates, c.2.value.smaller value = .ok c.1) :
    (∀ c ∈ candidates, c.1.isFinite) ∨ ∀ c ∈ candidates, c.1 = .infinite true := by
  cases value with
  | finite s m e => exact .inl fun c hc => (smaller_ok (hfin c hc) (isFinite_finite s m e) (h c hc)).1
  | infinite s =>
    cases s with
    | false =>
      left
      intro c hc
      obtain h := Except.ok.inj ((smaller_infinite (hfin c hc) false).symm.trans (h c hc))
      exact h ▸ hfin c hc
    | true =>
      right
      intro c hc
      exact (Except.ok.inj ((smaller_infinite (hfin c hc) true).symm.trans (h c hc))).symm
  | nan s signaling payload =>
    left
    intro c hc
    exact absurd (h c hc) (smaller_nan_ne_ok (hfin c hc))

theorem compares_preferred (hfin : ∀ c ∈ candidates, c.2.value.isFinite)
    (h : ∀ c ∈ candidates, c.2.value.smaller value = .ok c.1) :
    Compares preferred rank candidates := by
  intro a ha b hb
  have hlt : rank b < rank a ↔ b.1.toRat < a.1.toRat ∨ b.1.toRat = a.1.toRat ∧ b.2.mint < a.2.mint :=
    Prod.Lex.toLex_lt_toLex
  rw [hlt]
  rcases smaller_cases hfin h with hsizes | hsizes
  · rw [preferred, same_eq (hsizes a ha) (hsizes b hb), gt_eq (hsizes a ha) (hsizes b hb), liftM_ok,
      ok_bind]
    by_cases hsame : a.1.toRat = b.1.toRat
    · simp [hsame]
    · simp [hsame, Ne.symm hsame]
  · have hsame : preferred a b = .ok (decide (b.2.mint < a.2.mint)) := by
      simp [preferred, hsizes a ha, hsizes b hb, same, compare?, isSignaling]
    rw [hsame, hsizes a ha, hsizes b hb]
    simp

theorem compares_of_ofLowest (hvalues : ∀ p ∈ deposits, p.value.isFinite)
    (hfound : Liquidatable.ofDeposits market deposits = .ok found)
    (h : ofLowest value found = .ok candidates) : Compares preferred rank candidates := by
  have hmem := ofLowest_ok hfound h
  refine compares_preferred (fun c hc => ?_) fun c hc => ((hmem c).mp hc).2
  exact hvalues c.2 ((hmem c).mp hc).1.mem

end Candidate

section Withdrawal

variable {market : Market} {o : Obligation} {value : Decimal} {c : Candidate}

/-- Of the deposit as much is withdrawn as it holds, up to the value that is asked for. -/
theorem Order.withdrawal_ok (h : withdrawal market o value = .ok c) :
    market.IsLowest o.depositList c.2 ∧ c.2.value.smaller value = .ok c.1 := by
  obtain ⟨found, hfound, h⟩ := bind_eq_ok.mp h
  obtain ⟨candidates, hcandidates, h⟩ := bind_eq_ok.mp h
  rw [liftM_eq_ok] at hcandidates
  cases candidates with
  | nil => simp at h
  | cons first rest => exact (Candidate.ofLowest_ok hfound hcandidates c).mp (firstMax_mem h)

/-- The deposit to withdraw from has the lowest loan to value. Of several that do, it gives the most value,
and it has the greatest mint of those that give as much. -/
structure Order.IsWithdrawal (market : Market) (deposits : List Position) (value : Decimal)
    (c : Candidate) : Prop where
  known : ∀ p ∈ deposits, ∃ ltv, market.HasLtv p ltv
  lowest : market.IsLowest deposits c.2
  withdrawn : c.2.value.smaller value = .ok c.1
  greatest : ∀ p w, market.IsLowest deposits p → p.value.smaller value = .ok w →
    w.toRat < c.1.toRat ∨ w.toRat = c.1.toRat ∧ p.mint ≤ c.2.mint

/-- Among the candidates a withdrawal is the greatest one. Their mints tell them apart. -/
theorem Order.withdrawal_eq_ok_of_candidates {found : List Liquidatable} {candidates : List Candidate}
    (hvalues : ∀ p ∈ o.depositList, p.value.isFinite)
    (hmints : (o.depositList.map Position.mint).Nodup)
    (hfound : Liquidatable.ofDeposits market o.depositList = .ok found)
    (hcandidates : Candidate.ofLowest value found = .ok candidates) :
    withdrawal market o value = .ok c ↔ c ∈ candidates ∧ ∀ a ∈ candidates, a.rank ≤ c.rank := by
  have hmem := Candidate.ofLowest_ok hfound hcandidates
  have hin : ∀ a ∈ candidates, a.2 ∈ o.depositList := fun a ha => ((hmem a).mp ha).1.mem
  have hcompares := Candidate.compares_of_ofLowest hvalues hfound hcandidates
  have hrank : ∀ a ∈ candidates, ∀ b ∈ candidates, a.rank = b.rank → a = b := by
    intro a ha b hb heq
    have hmint : a.2.mint = b.2.mint := (Prod.ext_iff.mp (toLex.injective heq)).2
    have hdeposit := List.inj_on_of_nodup_map hmints (hin a ha) (hin b hb) hmint
    have hwithdrawn := ((hmem a).mp ha).2
    rw [hdeposit] at hwithdrawn
    exact Prod.ext (Except.ok.inj (hwithdrawn.symm.trans ((hmem b).mp hb).2)) hdeposit
  rw [withdrawal, hfound, ok_bind, hcandidates, liftM_ok, ok_bind]
  cases candidates with
  | nil => simp
  | cons first rest => exact hcompares.firstMax_eq_ok hrank

theorem Order.withdrawal_eq_ok (hvalues : ∀ p ∈ o.depositList, p.value.isFinite)
    (hmints : (o.depositList.map Position.mint).Nodup) :
    withdrawal market o value = .ok c ↔ IsWithdrawal market o.depositList value c := by
  have hle (a : Candidate) : a.rank ≤ c.rank ↔
      a.1.toRat < c.1.toRat ∨ a.1.toRat = c.1.toRat ∧ a.2.mint ≤ c.2.mint := Prod.Lex.toLex_le_toLex
  constructor
  · intro h
    obtain ⟨found, hfound, hrest⟩ := bind_eq_ok.mp h
    obtain ⟨candidates, hcandidates, -⟩ := bind_eq_ok.mp hrest
    rw [liftM_eq_ok] at hcandidates
    have hmem := Candidate.ofLowest_ok hfound hcandidates
    obtain ⟨hc, hgreatest⟩ :=
      (withdrawal_eq_ok_of_candidates hvalues hmints hfound hcandidates).mp h
    refine ⟨(Liquidatable.ofDeposits_ok hfound).1, ((hmem c).mp hc).1, ((hmem c).mp hc).2, ?_⟩
    exact fun p w hp hw => (hle (w, p)).mp (hgreatest (w, p) ((hmem (w, p)).mpr ⟨hp, hw⟩))
  · intro h
    obtain ⟨found, hfound⟩ := Liquidatable.exists_ofDeposits h.known
    obtain ⟨candidates, hcandidates⟩ := Candidate.exists_ofLowest hfound fun p hp =>
      exists_smaller_of_smaller (hvalues c.2 h.lowest.mem) h.withdrawn (hvalues p hp)
    have hmem := Candidate.ofLowest_ok hfound hcandidates
    refine (withdrawal_eq_ok_of_candidates hvalues hmints hfound hcandidates).mpr
      ⟨(hmem c).mpr ⟨h.lowest, h.withdrawn⟩, fun a ha => (hle a).mpr ?_⟩
    exact h.greatest a.2 a.1 ((hmem a).mp ha).1 ((hmem a).mp ha).2

theorem Market.IsLowest.of_perm {deposits deposits' : List Position} {p : Position}
    (hperm : deposits.Perm deposits') (h : market.IsLowest deposits p) : market.IsLowest deposits' p := by
  obtain ⟨ltv, hltv, hpos, hlow⟩ := h.ltv
  exact ⟨hperm.mem_iff.mp h.mem, ltv, hltv, hpos, fun q hq => hlow q (hperm.mem_iff.mpr hq)⟩

theorem Order.IsWithdrawal.of_perm {deposits deposits' : List Position} (hperm : deposits.Perm deposits')
    (h : IsWithdrawal market deposits value c) : IsWithdrawal market deposits' value c :=
  ⟨fun p hp => h.known p (hperm.mem_iff.mpr hp), h.lowest.of_perm hperm, h.withdrawn,
    fun p w hp => h.greatest p w (hp.of_perm hperm.symm)⟩

end Withdrawal

end LoanOrders
