import Mathlib
import LoanOrders.Text.Blank

/-! Texts without certain characters at their ends. Cutting such characters off leaves the texts alone
that have none there, so that it changes nothing when it is done again. -/

namespace LoanOrders.Text

/-- One of the information separators U+001C to U+001F, which are no blanks. -/
def isSeparator (c : Char) : Bool := 0x1C ≤ c.toNat && c.toNat ≤ 0x1F

theorem isSpacing_of_isBlank {c : Char} (h : isBlank c = true) : isSpacing c = true := by
  rw [isSpacing, h, Bool.true_or]

/-- A text that neither begins nor ends with a character of a class. -/
structure IsBare (outer : Char → Bool) (cs : List Char) : Prop where
  first : ∀ c ∈ cs.head?, outer c = false
  last : ∀ c ∈ cs.getLast?, outer c = false

variable {outer : Char → Bool} {cs left right : List Char}

theorem isBare_isSpacing : IsBare isSpacing cs ↔ IsBare isBlank cs ∧ IsBare isSeparator cs := by
  have hor (c : Char) : isSpacing c = (isBlank c || isSeparator c) := rfl
  constructor
  · rintro ⟨hfirst, hlast⟩
    simp only [hor, Bool.or_eq_false_iff] at hfirst hlast
    exact ⟨⟨fun c hc => (hfirst c hc).1, fun c hc => (hlast c hc).1⟩,
      fun c hc => (hfirst c hc).2, fun c hc => (hlast c hc).2⟩
  · rintro ⟨hblank, hseparator⟩
    exact ⟨fun c hc => by rw [hor, hblank.first c hc, hseparator.first c hc, Bool.false_or],
      fun c hc => by rw [hor, hblank.last c hc, hseparator.last c hc, Bool.false_or]⟩

theorem trimList_eq_rdropWhile : trimList outer cs = (cs.dropWhile outer).rdropWhile outer := rfl

theorem isBare_trimList : IsBare outer (trimList outer cs) := by
  rw [trimList_eq_rdropWhile]
  constructor
  · intro c hc
    obtain ⟨rest, hrest⟩ := List.rdropWhile_prefix outer (cs.dropWhile outer)
    have hhead := List.head?_dropWhile_not outer cs
    rw [← hrest, List.head?_append, hc, Option.some_or] at hhead
    exact hhead
  · intro c hc
    obtain ⟨hne, rfl⟩ := List.mem_getLast?_eq_getLast hc
    simpa using List.rdropWhile_last_not outer _ hne

theorem trimList_eq_self : trimList outer cs = cs ↔ IsBare outer cs := by
  constructor
  · intro h
    rw [← h]
    exact isBare_trimList
  · intro h
    have hfirst : cs.dropWhile outer = cs := by
      cases cs with
      | nil => rfl
      | cons c cs => rw [List.dropWhile_cons_of_neg (by simp [h.first c rfl])]
    rw [trimList_eq_rdropWhile, hfirst, List.rdropWhile_eq_self_iff]
    intro hne
    simpa using h.last _ (List.getLast_mem_getLast? hne)

instance : Decidable (IsBare outer cs) := decidable_of_iff _ trimList_eq_self

theorem rdropWhile_append_of_pos (h : ∀ c ∈ right, outer c = true) :
    (cs ++ right).rdropWhile outer = cs.rdropWhile outer := by
  rw [List.rdropWhile, List.reverse_append, List.dropWhile_append_of_pos (by simpa using h),
    List.rdropWhile]

theorem trimList_append (hleft : ∀ c ∈ left, outer c = true) (hright : ∀ c ∈ right, outer c = true) :
    trimList outer (left ++ cs ++ right) = trimList outer cs := by
  rw [trimList_eq_rdropWhile, trimList_eq_rdropWhile, List.append_assoc,
    List.dropWhile_append_of_pos hleft, List.dropWhile_append]
  by_cases hall : cs.dropWhile outer = []
  · have hempty : right.dropWhile outer = [] := List.dropWhile_eq_nil_iff.mpr hright
    simp [hall, hempty]
  · rw [if_neg (by simpa using hall), rdropWhile_append_of_pos hright]

section Replacement

variable {f : Char → List Char} (hne : ∀ c, f c ≠ []) (hclass : ∀ c, ∀ d ∈ f c, outer d = outer c)
include hne hclass

/-- Characters that are replaced within their class are cut off as before. -/
theorem dropWhile_flatMap : (cs.flatMap f).dropWhile outer = (cs.dropWhile outer).flatMap f := by
  induction cs with
  | nil => rfl
  | cons c cs ih =>
    rw [List.flatMap_cons]
    by_cases hc : outer c = true
    · rw [List.dropWhile_append_of_pos fun d hd => (hclass c d hd).trans hc, ih,
        List.dropWhile_cons_of_pos hc]
    · -- A character that stays is replaced by at least one, and the first of these stays too.
      rw [List.dropWhile_cons_of_neg hc, List.flatMap_cons]
      obtain ⟨d, rest, hd⟩ := List.exists_cons_of_ne_nil (hne c)
      have hkeep : outer d ≠ true := by
        rw [hclass c d (by rw [hd]; exact List.mem_cons_self)]
        exact hc
      rw [hd, List.cons_append, List.dropWhile_cons_of_neg hkeep]

theorem trimList_flatMap : trimList outer (cs.flatMap f) = (trimList outer cs).flatMap f := by
  have hreverse : ∀ ds : List Char, (ds.flatMap (List.reverse ∘ f)).dropWhile outer =
      (ds.dropWhile outer).flatMap (List.reverse ∘ f) := fun ds =>
    dropWhile_flatMap (fun c => by simpa using hne c)
      fun c d hd => hclass c d (List.mem_reverse.mp hd)
  rw [trimList, dropWhile_flatMap hne hclass, List.reverse_flatMap, hreverse, List.reverse_flatMap,
    trimList]
  exact List.flatMap_congr fun c _ => List.reverse_reverse (f c)

end Replacement

theorem trimSpacing_eq_self {s : String} : trimSpacing s = s ↔ IsBare isSpacing s.toList := by
  rw [trimSpacing, ← String.toList_inj, String.toList_ofList, trimList_eq_self]

theorem trimBlank_eq_self {s : String} : trimBlank s = s ↔ IsBare isBlank s.toList := by
  rw [trimBlank, ← String.toList_inj, String.toList_ofList, trimList_eq_self]

theorem trimSpacing_trimSpacing (s : String) : trimSpacing (trimSpacing s) = trimSpacing s := by
  rw [trimSpacing_eq_self, trimSpacing, String.toList_ofList]
  exact isBare_trimList

theorem trimBlank_trimBlank (s : String) : trimBlank (trimBlank s) = trimBlank s := by
  rw [trimBlank_eq_self, trimBlank, String.toList_ofList]
  exact isBare_trimList

/-- A text without blanks around it keeps its ends exactly if no separator stands there. -/
theorem trimSpacing_eq_self_iff_of_trimBlank {s : String} (h : trimBlank s = s) :
    trimSpacing s = s ↔ IsBare isSeparator s.toList := by
  rw [trimSpacing_eq_self, isBare_isSpacing, and_iff_right (trimBlank_eq_self.mp h)]

end LoanOrders.Text
