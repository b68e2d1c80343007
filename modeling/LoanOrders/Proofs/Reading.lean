import LoanOrders.Proofs.Assoc
import LoanOrders.Proofs.Comparison
import LoanOrders.Proofs.Outcome
import LoanOrders.Proofs.Trimmed
import LoanOrders.Record.Field

/-! What a successful reading says of the data that were read: each field was read on its own, a name was
trimmed, and a number has passed the bound of its field. What passes its check is read as it stands. -/

namespace LoanOrders

variable {α β : Type}

namespace Validated

variable {x : Validated α} {a : α} {b : β}

theorem map_valid (f : α → β) (a : α) : f <$> valid a = valid (f a) := rfl

theorem seq_valid (f : α → β) (a : α) : valid f <*> valid a = valid (f a) := rfl

theorem under_valid (step : Step) (a : α) : (valid a).under step = valid a := rfl

theorem map_eq_valid {f : α → β} : f <$> x = valid b ↔ ∃ a, x = valid a ∧ f a = b := by
  change x.map f = valid b ↔ _
  cases x <;> simp [map]

theorem seq_eq_valid {f : Validated (α → β)} :
    f <*> x = valid b ↔ ∃ g a, f = valid g ∧ x = valid a ∧ g a = b := by
  change f.seq (fun _ => x) = valid b ↔ _
  cases f <;> cases x <;> simp [seq]

theorem under_eq_valid {step : Step} : x.under step = valid a ↔ x = valid a := by
  cases x <;> simp [under]

theorem andThen_eq_valid {f : α → Validated β} :
    x.andThen f = valid b ↔ ∃ a, x = valid a ∧ f a = valid b := by
  cases x <;> simp [andThen]

theorem result_eq_ok {record : Record} : x.result record = .ok a ↔ x = valid a := by
  cases x <;> simp [result]

theorem all_eq_valid {l : List (Validated α)} {as : List α} (h : all l = valid as) :
    ∀ a ∈ as, valid a ∈ l := by
  induction l generalizing as with
  | nil =>
    obtain rfl : [] = as := by simpa [all] using h
    simp
  | cons x l ih =>
    simp only [all, seq_eq_valid, map_eq_valid] at h
    obtain ⟨g, rest, ⟨a, rfl, rfl⟩, hrest, rfl⟩ := h
    intro b hb
    rcases List.mem_cons.mp hb with rfl | hb
    · exact List.mem_cons_self
    · exact List.mem_cons_of_mem _ (ih hrest b hb)

theorem all_map_valid (as : List α) : all (as.map valid) = valid as := by
  induction as with
  | nil => rfl
  | cons a as ih => rw [List.map_cons, all, ih, map_valid, seq_valid]

end Validated

namespace Entries

variable {entries : Entries} {name : String} {read : Data → Validated α} {a default : α} {d : Data}

theorem required_eq (hd : entries.get? name = some d) (ha : read d = .valid a) :
    entries.required name read = .valid a := by
  simp only [required, hd, ha, Validated.under_valid]

theorem optional_eq (hd : entries.get? name = some d) (ha : read d = .valid a) :
    entries.optional name default read = .valid a := by
  simp only [optional, hd, ha, Validated.under_valid]

theorem required_eq_valid (h : entries.required name read = .valid a) : ∃ d, read d = .valid a := by
  rw [required, Validated.under_eq_valid] at h
  cases hd : entries.get? name with
  | none => simp [hd, Validated.fault] at h
  | some d =>
    rw [hd] at h
    exact ⟨d, h⟩

theorem optional_eq_valid (h : entries.optional name default read = .valid a) :
    a = default ∨ ∃ d, read d = .valid a := by
  rw [optional] at h
  cases hd : entries.get? name with
  | none =>
    rw [hd, Validated.valid.injEq] at h
    exact .inl h.symm
  | some d =>
    rw [hd] at h
    exact .inr ⟨d, Validated.under_eq_valid.mp h⟩

end Entries

namespace Data

variable {d : Data} {x : Decimal}

theorem Bound.eq_of_check {bound : Bound} {y : Decimal} (h : bound.check x = .valid y) : x = y := by
  unfold check at h
  split at h <;> simp_all [Validated.fault]

theorem asDecimal_eq_valid {bound : Bound} (h : asDecimal bound d = .valid x) :
    x.isFinite ∧ bound.check x = .valid x := by
  obtain ⟨y, -, hy⟩ := Validated.andThen_eq_valid.mp h
  by_cases hfin : y.isFinite
  · rw [if_pos hfin] at hy
    obtain rfl := Bound.eq_of_check hy
    exact ⟨hfin, hy⟩
  · simp [hfin, Validated.fault] at hy

theorem eq_of_asDecimal {bound : Bound} {y : Decimal}
    (h : asDecimal bound (.decimal x) = .valid y) : x = y := by
  have hcheck : (if x.isFinite then bound.check x else .fault .notFinite) = .valid y := h
  split_ifs at hcheck
  · exact Bound.eq_of_check hcheck
  · simp [Validated.fault] at hcheck

theorem asDecimal_of_check {bound : Bound} (hx : x.isFinite) (h : bound.check x = .valid x) :
    asDecimal bound (.decimal x) = .valid x := by
  obtain ⟨s, m, e, rfl⟩ := Decimal.exists_of_isFinite hx
  exact h

theorem Bound.check_nonnegative (hx : x.isFinite) :
    check .nonnegative x = .valid x ↔ 0 ≤ x.toRat := by
  rw [← compare_ge_iff_ge]
  cases hc : compare x.toRat 0 <;> simp [check, Decimal.compare?_zero hx, hc, Validated.fault]

theorem Bound.check_positive (hx : x.isFinite) : check .positive x = .valid x ↔ 0 < x.toRat := by
  rw [← compare_gt_iff_gt]
  cases hc : compare x.toRat 0 <;> simp [check, Decimal.compare?_zero hx, hc, Validated.fault]

/-- What a field for a name can hold. -/
structure IsName (s : String) : Prop where
  bare : Text.trimBlank s = s
  nonempty : s ≠ ""

theorem asName_text (text : String) : (Data.text text).asName =
    if Text.trimBlank text = "" then .fault .emptyText else .valid (Text.trimBlank text) := by
  simp only [asName, String.isEmpty_iff]

theorem isName_of_asName {s : String} (h : d.asName = .valid s) : IsName s := by
  obtain ⟨text, rfl⟩ : ∃ text, d = .text text := by
    unfold asName at h
    split at h
    · exact ⟨_, rfl⟩
    · simp [Validated.fault] at h
  rw [asName_text] at h
  split at h
  · simp [Validated.fault] at h
  next hempty =>
    obtain rfl : Text.trimBlank text = s := by simpa using h
    exact ⟨Text.trimBlank_trimBlank text, hempty⟩

theorem asName_of_isName {s : String} (h : IsName s) : (Data.text s).asName = .valid s := by
  rw [asName_text, h.bare, if_neg h.nonempty]

theorem asWholeBetween_eq_valid {low i : ℤ} {high : Option ℤ}
    (h : asWholeBetween low high d = .valid i) : low ≤ i ∧ ∀ n ∈ high, i ≤ n := by
  obtain ⟨j, -, hj⟩ := Validated.andThen_eq_valid.mp h
  split_ifs at hj with hlow hhigh
  · simp [Validated.fault] at hj
  · simp [Validated.fault] at hj
  · obtain rfl : j = i := by simpa using hj
    refine ⟨not_lt.mp hlow, fun n hn => ?_⟩
    rw [Option.mem_def] at hn
    subst hn
    simpa using hhigh

theorem asNatUpTo_eq_valid {high n : Nat} (h : asNatUpTo (some high) d = .valid n) : n ≤ high := by
  obtain ⟨i, hi, rfl⟩ := Validated.map_eq_valid.mp h
  have hle : i ≤ high := (asWholeBetween_eq_valid hi).2 _ rfl
  omega

theorem asRecord_eq_valid {read : Entries → Validated α} {a : α} (h : asRecord read d = .valid a) :
    ∃ entries, read entries = .valid a := by
  cases d with
  | object entries => exact ⟨entries, h⟩
  | scalar | decimal | list => simp [asRecord, Validated.fault] at h

theorem asTagged_eq_valid {read? : String → Option (Entries → Validated α)} {a : α}
    (h : asTagged read? d = .valid a) :
    ∃ tag read entries, read? tag = some read ∧ read entries = .valid a := by
  cases d with
  | object entries =>
    rw [asTagged] at h
    split at h
    · simp [Validated.fault] at h
    · rename_i tag _
      cases hread : read? tag with
      | none => simp [hread, Validated.fault] at h
      | some read =>
        rw [hread] at h
        exact ⟨tag, read, entries, hread, Validated.under_eq_valid.mp h⟩
    · simp [Validated.fault] at h
  | scalar | decimal | list => simp [asTagged, Validated.fault] at h

theorem asPairOf_eq_valid {read : Data → Validated α} {a : α × α} (h : asPairOf read d = .valid a) :
    (∃ item, read item = .valid a.1) ∧ ∃ item, read item = .valid a.2 := by
  cases d with
  | list items =>
    rw [asPairOf] at h
    split_ifs at h with hlong
    · simp [Validated.fault] at h
    · simp only [Validated.seq_eq_valid, Validated.map_eq_valid, Validated.under_eq_valid] at h
      obtain ⟨_, y, ⟨x, hx, rfl⟩, hy, rfl⟩ := h
      constructor
      · split at hx
        · exact ⟨_, hx⟩
        · simp [Validated.fault] at hx
      · split at hy
        · exact ⟨_, hy⟩
        · simp [Validated.fault] at hy
  | scalar | decimal | object => simp [asPairOf, Validated.fault] at h

theorem asListOf_eq_valid {read : Data → Validated α} {as : List α}
    (h : asListOf read d = .valid as) : ∀ a ∈ as, ∃ item, read item = .valid a := by
  cases d with
  | list items =>
    intro a ha
    have hmem := Validated.all_eq_valid h a ha
    obtain ⟨i, hi, hitem⟩ := List.mem_mapIdx.mp hmem
    exact ⟨items[i], Validated.under_eq_valid.mp hitem⟩
  | scalar | decimal | object => simp [asListOf, Validated.fault] at h

theorem asEntryOf_eq_valid {read : Data → Validated α} {key : Scalar} {entry : String × α}
    (h : asEntryOf read key d = .valid entry) : read d = .valid entry.2 := by
  unfold asEntryOf at h
  split at h
  · obtain ⟨a, ha, rfl⟩ := Validated.map_eq_valid.mp h
    exact Validated.under_eq_valid.mp ha
  · simp at h

theorem asMapOf_eq_valid {read : Data → Validated α} {entries : List (String × α)}
    (h : asMapOf read d = .valid entries) : ∀ entry ∈ entries, ∃ d, read d = .valid entry.2 := by
  cases d with
  | object items =>
    obtain ⟨pairs, hpairs, rfl⟩ := Validated.map_eq_valid.mp h
    intro entry hentry
    have hpair := Validated.all_eq_valid hpairs entry (Assoc.mem_of_mem_ofList hentry)
    obtain ⟨item, -, hitem⟩ := List.mem_map.mp hpair
    exact ⟨item.2, asEntryOf_eq_valid hitem⟩
  | scalar | decimal | list => simp [asMapOf, Validated.fault] at h

end Data

end LoanOrders
