import LoanOrders.Proofs.Trimmed
import LoanOrders.Text.Upper

/-! Upper case changes no text that is in upper case already, and no spacing: no letter turns into
one that has an upper case itself, and spacing neither has an upper case nor is one. The tables of
letters show this once they are written out as sets of code points. -/

namespace LoanOrders.Text

/-- A set of code points, as the number with just these bits. Two such sets are compared at once, not
point by point. -/
def pointSet (points : List Nat) : Nat := points.foldr (fun n set => 2 ^ n ||| set) 0

theorem testBit_pointSet {points : List Nat} {n : Nat} :
    (pointSet points).testBit n = true ↔ n ∈ points := by
  induction points with
  | nil => simp [pointSet]
  | cons m points ih =>
    have hcons : pointSet (m :: points) = 2 ^ m ||| pointSet points := rfl
    rw [hcons, Nat.testBit_or, Bool.or_eq_true, ih, Nat.testBit_two_pow, List.mem_cons,
      decide_eq_true_iff, eq_comm]

theorem disjoint_of_land_eq_zero {left right : List Nat}
    (h : pointSet left &&& pointSet right = 0) : left.Disjoint right := by
  intro n hl hr
  have hbit : (pointSet left &&& pointSet right).testBit n = true := by
    rw [Nat.testBit_and, testBit_pointSet.mpr hl, testBit_pointSet.mpr hr, Bool.and_self]
  rw [h, Nat.zero_testBit] at hbit
  exact Bool.false_ne_true hbit

/-- Every letter with an upper case, and what it turns into. -/
def upperMappings : List (Nat × List Nat) :=
  (upperRuns.flatMap fun (first, last, step, above) =>
    (List.range' first ((last - first) / step + 1) step).map fun n : Nat => (n, [(n - above).toNat])) ++
  upperExpansions

def upperLetters : List Nat := upperMappings.map Prod.fst

def upperCapitals : List Nat := upperMappings.flatMap Prod.snd

def spacingPoints : List Nat :=
  List.range' 0x09 5 ++ List.range' 0x1C 5 ++ [0x85, 0xA0, 0x1680] ++ List.range' 0x2000 11 ++
    [0x2028, 0x2029, 0x202F, 0x205F, 0x3000]

theorem mem_spacingPoints {c : Char} : c.toNat ∈ spacingPoints ↔ isSpacing c = true := by
  simp only [spacingPoints, isSpacing, isBlank, List.mem_append, List.mem_range'_1, List.mem_cons,
    List.not_mem_nil, or_false, Bool.or_eq_true, Bool.and_eq_true, decide_eq_true_iff, beq_iff_eq]
  omega

theorem upperLetters_disjoint : upperLetters.Disjoint (upperCapitals ++ spacingPoints) :=
  disjoint_of_land_eq_zero (by decide +kernel)

theorem upperCapitals_disjoint : upperCapitals.Disjoint spacingPoints :=
  disjoint_of_land_eq_zero (by decide +kernel)

theorem isValidChar_of_mem_upperCapitals : ∀ n ∈ upperCapitals, n.isValidChar := by
  decide +kernel

theorem ne_nil_of_mem_upperMappings : ∀ entry ∈ upperMappings, entry.2 ≠ [] := by
  decide +kernel

theorem mem_upperMappings_of_run {first last step n : Nat} {above : Int}
    (hrun : (first, last, step, above) ∈ upperRuns) (hfirst : first ≤ n) (hlast : n ≤ last)
    (hstep : (n - first) % step = 0) : (n, [(n - above).toNat]) ∈ upperMappings := by
  refine List.mem_append_left _ (List.mem_flatMap.mpr ⟨_, hrun, List.mem_map.mpr ⟨n, ?_, rfl⟩⟩)
  have hdiv := Nat.div_add_mod (n - first) step
  rw [hstep] at hdiv
  exact List.mem_range'.mpr ⟨(n - first) / step,
    Nat.lt_succ_of_le (Nat.div_le_div_right (by omega)), by omega⟩

theorem upperPoints_eq_or_mem (n : Nat) :
    upperPoints n = [n] ∨ (n, upperPoints n) ∈ upperMappings := by
  unfold upperPoints
  split
  · split
    next hletter =>
      right
      simp only [Bool.and_eq_true, decide_eq_true_iff] at hletter
      have hmem := mem_upperMappings_of_run (n := n) List.mem_cons_self hletter.1 hletter.2
        (Nat.mod_one _)
      rwa [show ((n : Int) - 32).toNat = n - 0x20 by omega] at hmem
    next => exact .inl rfl
  · split
    next points hlookup =>
      obtain ⟨before, after, heq, -⟩ := List.lookup_eq_some_iff.mp hlookup
      exact .inr (List.mem_append_right _ (by rw [heq]; simp))
    next =>
      split
      next first last step above hfind =>
        have htest := List.find?_some hfind
        simp only [Bool.and_eq_true, decide_eq_true_iff, beq_iff_eq] at htest
        exact .inr (mem_upperMappings_of_run (List.mem_of_find?_eq_some hfind) htest.1.1 htest.1.2
          htest.2)
      next => exact .inl rfl

theorem upperPoints_of_not_mem {n : Nat} (h : n ∉ upperLetters) : upperPoints n = [n] :=
  (upperPoints_eq_or_mem n).resolve_right fun hmem => h (List.mem_map_of_mem hmem)

variable {c d : Char}

theorem upperChar_of_isSpacing (h : isSpacing c = true) : upperChar c = [c] := by
  have hpoint : c.toNat ∉ upperLetters := fun hletter =>
    upperLetters_disjoint hletter (List.mem_append_right _ (mem_spacingPoints.mpr h))
  rw [upperChar, upperPoints_of_not_mem hpoint, List.map_singleton, Char.ofNat_toNat]

theorem upperChar_ne_nil (c : Char) : upperChar c ≠ [] := by
  rw [upperChar, Ne, List.map_eq_nil_iff]
  obtain hself | hmem := upperPoints_eq_or_mem c.toNat
  · rw [hself]
    exact List.cons_ne_nil _ _
  · exact ne_nil_of_mem_upperMappings _ hmem

/-- An upper case is the character itself, which has no other, or it is made of capitals. -/
theorem upperChar_cases (c : Char) :
    upperChar c = [c] ∨ ∀ d ∈ upperChar c, d.toNat ∈ upperCapitals := by
  obtain hself | hmem := upperPoints_eq_or_mem c.toNat
  · left
    rw [upperChar, hself, List.map_singleton, Char.ofNat_toNat]
  · right
    intro d hd
    obtain ⟨n, hn, rfl⟩ := List.mem_map.mp hd
    have hcapital : n ∈ upperCapitals := List.mem_flatMap.mpr ⟨_, hmem, hn⟩
    rwa [Char.toNat_ofNat, if_pos (isValidChar_of_mem_upperCapitals n hcapital)]

theorem upperChar_of_capital (h : d.toNat ∈ upperCapitals) : upperChar d = [d] := by
  have hpoint : d.toNat ∉ upperLetters := fun hletter =>
    upperLetters_disjoint hletter (List.mem_append_left _ h)
  rw [upperChar, upperPoints_of_not_mem hpoint, List.map_singleton, Char.ofNat_toNat]

theorem upperChar_of_mem (h : d ∈ upperChar c) : upperChar d = [d] := by
  obtain hself | hcapital := upperChar_cases c
  · rw [hself] at h
    rw [List.mem_singleton.mp h, hself]
  · exact upperChar_of_capital (hcapital d h)

/-- A class of spacing characters is left by no upper case, and entered by none. -/
theorem class_of_mem_upperChar {outer : Char → Bool}
    (houter : ∀ c, outer c = true → isSpacing c = true) (h : d ∈ upperChar c) :
    outer d = outer c := by
  obtain hself | hcapital := upperChar_cases c
  · rw [hself] at h
    rw [List.mem_singleton.mp h]
  · have hd : outer d = false := by
      rw [← Bool.not_eq_true]
      exact fun hout => upperCapitals_disjoint (hcapital d h) (mem_spacingPoints.mpr (houter d hout))
    rw [hd, eq_comm, ← Bool.not_eq_true]
    intro hc
    rw [upperChar_of_isSpacing (houter c hc), List.mem_singleton] at h
    rw [h, hc] at hd
    exact Bool.false_ne_true hd.symm

theorem upper_upper (s : String) : upper (upper s) = upper s := by
  have hfix : ∀ cs : List Char, (cs.flatMap upperChar).flatMap upperChar = cs.flatMap upperChar := by
    intro cs
    rw [List.flatMap_assoc]
    refine List.flatMap_congr fun c _ => ?_
    rw [List.flatMap_congr fun d hd => upperChar_of_mem hd, List.flatMap_singleton']
  rw [upper, upper, String.toList_ofList, hfix]

theorem toList_upper (s : String) : (upper s).toList = s.toList.flatMap upperChar :=
  String.toList_ofList

theorem trimList_upper {outer : Char → Bool} (houter : ∀ c, outer c = true → isSpacing c = true)
    (s : String) : trimList outer (upper s).toList = (trimList outer s.toList).flatMap upperChar := by
  rw [toList_upper]
  exact trimList_flatMap upperChar_ne_nil fun c d hd => class_of_mem_upperChar houter hd

/-- Upper case and the removal of spacing may be done in either order. -/
theorem upper_trimSpacing (s : String) : upper (trimSpacing s) = trimSpacing (upper s) := by
  rw [trimSpacing, upper, String.toList_ofList, trimSpacing, trimList_upper fun _ h => h]

theorem upper_trimBlank (s : String) : upper (trimBlank s) = trimBlank (upper s) := by
  rw [trimBlank, upper, String.toList_ofList, trimBlank,
    trimList_upper fun _ h => isSpacing_of_isBlank h]

theorem upper_ne_empty {s : String} (h : s ≠ "") : upper s ≠ "" := by
  simp only [Ne, ← String.toList_eq_nil_iff, toList_upper, List.flatMap_eq_nil_iff] at h ⊢
  intro hall
  obtain ⟨c, hc⟩ := List.exists_mem_of_ne_nil _ h
  exact upperChar_ne_nil c (hall c hc)

end LoanOrders.Text
