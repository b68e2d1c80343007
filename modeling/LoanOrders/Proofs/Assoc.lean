import Mathlib
import LoanOrders.Assoc

/-! Lists whose items have keys. Setting the value of a key adds an entry or replaces the one of this key,
so the keys of a list that is made this way are without repetition, and its entries are some of those that
were set. -/

namespace LoanOrders

namespace Assoc

variable {κ α : Type} [BEq κ] [LawfulBEq κ] {entries pairs : List (κ × α)} {entry : κ × α} {key : κ}
  {value : α}

theorem put_eq_append (h : key ∉ entries.map Prod.fst) :
    put (· == ·) entries key value = entries ++ [(key, value)] := by
  induction entries with
  | nil => rfl
  | cons first rest ih =>
    simp only [List.map_cons, List.mem_cons, not_or] at h
    rw [put, if_neg (by simpa using Ne.symm h.1), ih h.2, List.cons_append]

theorem foldl_put_eq_append (entries : List (κ × α)) (h : ((entries ++ pairs).map Prod.fst).Nodup) :
    pairs.foldl (fun entries pair => put (· == ·) entries pair.1 pair.2) entries = entries ++ pairs := by
  induction pairs generalizing entries with
  | nil => simp
  | cons pair rest ih =>
    have hkey : pair.1 ∉ entries.map Prod.fst := by
      simp only [List.map_append, List.map_cons, List.nodup_append] at h
      intro hmem
      exact h.2.2 pair.1 hmem pair.1 (by simp) rfl
    rw [List.foldl_cons, put_eq_append hkey, ih]
    · simp
    · simpa using h

theorem ofList_eq_self (h : (pairs.map Prod.fst).Nodup) : ofList (· == ·) pairs = pairs :=
  foldl_put_eq_append [] h

theorem put_perm (key : κ) (value : α) (h : (entries.map Prod.fst).Nodup) :
    (put (· == ·) entries key value).Perm (entries.filter (fun e => e.1 != key) ++ [(key, value)]) := by
  induction entries with
  | nil => simp [put]
  | cons first rest ih =>
    rw [List.map_cons, List.nodup_cons] at h
    by_cases hkey : first.1 = key
    · have hrest : rest.filter (fun e => e.1 != key) = rest := by
        rw [List.filter_eq_self]
        intro e he
        simp only [bne_iff_ne]
        rintro rfl
        exact h.1 (hkey ▸ List.mem_map_of_mem he)
      rw [put, if_pos (by simpa using hkey), List.filter_cons_of_neg (by simpa using hkey), hrest]
      subst hkey
      exact (List.perm_append_singleton _ _).symm
    · rw [put, if_neg (by simpa using hkey), List.filter_cons_of_pos (by simpa using hkey)]
      exact (ih h.2).cons first

theorem nodup_put (h : (entries.map Prod.fst).Nodup) :
    ((put (· == ·) entries key value).map Prod.fst).Nodup := by
  rw [((put_perm key value h).map Prod.fst).nodup_iff, List.map_append, List.nodup_append]
  refine ⟨h.sublist (List.filter_sublist.map Prod.fst), by simp, ?_⟩
  intro k hk
  obtain ⟨e, he, rfl⟩ := List.mem_map.mp hk
  simpa using (List.mem_filter.mp he).2

theorem mem_put (h : (entries.map Prod.fst).Nodup) (hentry : entry ∈ put (· == ·) entries key value) :
    entry ∈ entries ∨ entry = (key, value) := by
  rcases List.mem_append.mp ((put_perm key value h).subset hentry) with hold | hnew
  · exact .inl (List.mem_filter.mp hold).1
  · exact .inr (List.mem_singleton.mp hnew)

theorem foldl_put_spec (entries : List (κ × α)) (h : (entries.map Prod.fst).Nodup) :
    ((pairs.foldl (fun entries pair => put (· == ·) entries pair.1 pair.2) entries).map
      Prod.fst).Nodup ∧
    ∀ entry ∈ pairs.foldl (fun entries pair => put (· == ·) entries pair.1 pair.2) entries,
      entry ∈ entries ∨ entry ∈ pairs := by
  induction pairs generalizing entries with
  | nil => exact ⟨h, fun entry hentry => .inl hentry⟩
  | cons pair rest ih =>
    have hnext : ((put (· == ·) entries pair.1 pair.2).map Prod.fst).Nodup := nodup_put h
    obtain ⟨hnodup, hmem⟩ := ih _ hnext
    refine ⟨hnodup, fun entry hentry => ?_⟩
    rcases hmem entry hentry with hput | hrest
    · rcases mem_put h hput with hold | rfl
      · exact .inl hold
      · exact .inr List.mem_cons_self
    · exact .inr (List.mem_cons_of_mem _ hrest)

theorem nodup_ofList (pairs : List (κ × α)) : ((ofList (· == ·) pairs).map Prod.fst).Nodup :=
  (foldl_put_spec [] List.nodup_nil).1

theorem mem_of_mem_ofList (h : entry ∈ ofList (· == ·) pairs) : entry ∈ pairs :=
  ((foldl_put_spec [] List.nodup_nil).2 entry h).resolve_left List.not_mem_nil

end Assoc

theorem find?_key_eq_some {α κ : Type} [DecidableEq κ] {key : α → κ} {l : List α} {found : α} {k : κ}
    (hkey : (l.map key).Nodup) :
    l.find? (fun a => key a == k) = some found ↔ found ∈ l ∧ key found = k := by
  constructor
  · intro h
    exact ⟨List.mem_of_find?_eq_some h, by simpa using List.find?_some h⟩
  · rintro ⟨hmem, rfl⟩
    cases hfirst : l.find? (fun a => key a == key found) with
    | none => simpa using List.find?_eq_none.mp hfirst found hmem
    | some a =>
      have hsame : key a = key found := by simpa using List.find?_some hfirst
      rw [List.inj_on_of_nodup_map hkey (List.mem_of_find?_eq_some hfirst) hmem hsame]

end LoanOrders
