import HeapTelemetry.Series.Labels

/-! Label sets as finite maps and as an ordered type: look-up after insertion,
a label set from its own entries, and the order in which series are listed. -/

namespace HeapTelemetry.Labels
open Std

/-! ## Look-up -/

theorem get?_eq_some_iff (l : Labels) (name value : String) :
    l.get? name = some value ↔ (name, value) ∈ l.entries := by
  obtain ⟨entries, sorted⟩ := l
  simp only [get?]
  induction entries with
  | nil => simp
  | cons e rest ih =>
    obtain ⟨n, v⟩ := e
    rw [List.pairwise_cons] at sorted
    by_cases h : name = n
    · subst h
      have hrest : (name, value) ∉ rest := fun hm => String.lt_irrefl name (sorted.1 _ hm)
      simp [hrest, eq_comm]
    · have hne : (name == n) = false := by simp [h]
      simp [List.lookup_cons, hne, h, ih sorted.2]

theorem nodup_entries (l : Labels) : l.entries.Nodup := by
  refine l.sorted.imp ?_
  rintro a _ h rfl
  exact String.lt_irrefl a.1 h

theorem lookup_insertEntry (name value key : String) (l : List Label) :
    (insertEntry name value l).lookup key = if key = name then some value else l.lookup key := by
  induction l with
  | nil => simp only [insertEntry, List.lookup_cons, List.lookup_nil]; split <;> simp_all
  | cons e rest ih =>
    obtain ⟨n, v⟩ := e
    rw [insertEntry]
    by_cases hlt : name < n
    · rw [if_pos hlt, List.lookup_cons]
      split <;> simp_all
    · rw [if_neg hlt]
      by_cases heq : name = n
      · subst heq
        by_cases hk : key = name
        · simp [hk]
        · have hb : (key == name) = false := by simp [hk]
          simp [List.lookup_cons, hb, hk]
      · rw [if_neg heq, List.lookup_cons, List.lookup_cons, ih]
        by_cases hk : key = n
        · simp [hk, Ne.symm heq]
        · have hb : (key == n) = false := by simp [hk]
          simp [hb]

@[simp] theorem get?_insert (l : Labels) (name value key : String) :
    (l.insert name value).get? key = if key = name then some value else l.get? key :=
  lookup_insertEntry name value key l.entries

@[simp] theorem get?_empty (key : String) : empty.get? key = none := rfl

/-! ## A label set from its entries -/

theorem insertEntry_of_forall_lt {name value : String} {l : List Label}
    (h : ∀ e ∈ l, e.1 < name) : insertEntry name value l = l ++ [(name, value)] := by
  induction l with
  | nil => rfl
  | cons e rest ih =>
    have he := h e List.mem_cons_self
    have hlt : ¬ name < e.1 := fun hn => String.lt_irrefl _ (String.lt_trans he hn)
    have hne : name ≠ e.1 := fun hn => String.lt_irrefl e.1 (hn ▸ he)
    simp only [insertEntry, hlt, hne, ↓reduceIte, List.cons_append,
      ih fun x hx => h x (List.mem_cons_of_mem e hx)]

theorem entries_foldl_insert (done : Labels) (rest : List Label)
    (h : (done.entries ++ rest).Pairwise (·.1 < ·.1)) :
    (rest.foldl (fun l (n, v) => l.insert n v) done).entries = done.entries ++ rest := by
  induction rest generalizing done with
  | nil => simp
  | cons e rest ih =>
    obtain ⟨n, v⟩ := e
    have he : (done.insert n v).entries = done.entries ++ [(n, v)] :=
      insertEntry_of_forall_lt fun x hx =>
        (List.pairwise_append.1 h).2.2 x hx (n, v) List.mem_cons_self
    rw [List.foldl_cons, ih _ (by rw [he]; simpa using h), he]
    simp

theorem ofList_entries (l : Labels) : ofList l.entries = l := by
  apply ext_entries
  have h := entries_foldl_insert empty l.entries (by simpa [empty] using l.sorted)
  simpa [ofList, empty] using h

/-! ## The order of label sets -/

/-- One label after the other: by name, then by value. -/
def compareLabel : Label → Label → Ordering :=
  compareLex (compareOn Prod.fst) (compareOn Prod.snd)

theorem compareEntries_eq_compareLex (a b : List Label) :
    compareEntries a b = List.compareLex compareLabel a b := by
  induction a generalizing b with
  | nil => cases b <;> rfl
  | cons x as ih =>
    cases b with
    | nil => rfl
    | cons y bs => rw [compareEntries, ih, List.compareLex_cons_cons]; rfl

instance : TransCmp compareLabel := by unfold compareLabel; infer_instance

instance : LawfulEqCmp compareLabel where
  eq_of_compare := by
    rintro ⟨a, v⟩ ⟨b, w⟩ h
    simp only [compareLabel, compareLex, compareOn, Ordering.then_eq_eq,
      LawfulEqOrd.compare_eq_iff_eq] at h
    rw [h.1, h.2]

theorem compare_eq_compareLex (a b : Labels) :
    a.compare b = List.compareLex compareLabel a.entries b.entries :=
  compareEntries_eq_compareLex a.entries b.entries

theorem compare_eq_iff {a b : Labels} : a.compare b = .eq ↔ a = b := by
  rw [compare_eq_compareLex, LawfulEqCmp.compare_eq_iff_eq]
  exact ⟨ext_entries, fun h => h ▸ rfl⟩

@[simp] theorem compare_self (a : Labels) : a.compare a = .eq := compare_eq_iff.2 rfl

theorem compare_gt_iff {a b : Labels} : a.compare b = .gt ↔ b.compare a = .lt := by
  simp only [compare_eq_compareLex]
  exact OrientedCmp.gt_iff_lt

theorem compare_lt_trans {a b c : Labels} (hab : a.compare b = .lt) (hbc : b.compare c = .lt) :
    a.compare c = .lt := by
  simp only [compare_eq_compareLex] at *
  exact TransCmp.lt_trans hab hbc

theorem compare_ne_of_lt {a b : Labels} (h : a.compare b = .lt) : a ≠ b := by
  rintro rfl
  simp at h

theorem le_iff {a b : Labels} : a.le b = true ↔ a.compare b = .lt ∨ a = b := by
  rw [le, bne_iff_ne, ← compare_eq_iff]
  cases a.compare b <;> simp

theorem le_trans (a b c : Labels) (hab : a.le b = true) (hbc : b.le c = true) :
    a.le c = true := by
  rw [le_iff] at *
  rcases hab with hab | rfl
  · rcases hbc with hbc | rfl
    · exact Or.inl (compare_lt_trans hab hbc)
    · exact Or.inl hab
  · exact hbc

theorem le_total (a b : Labels) : (a.le b || b.le a) = true := by
  rw [Bool.or_eq_true, le_iff, le_iff]
  cases h : a.compare b with
  | lt => exact Or.inl (Or.inl rfl)
  | eq => exact Or.inl (Or.inr (compare_eq_iff.1 h))
  | gt => exact Or.inr (Or.inl (compare_gt_iff.1 h))

end HeapTelemetry.Labels
