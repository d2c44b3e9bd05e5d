import HeapTelemetry.Table

/-! Tables with each key once: membership is look-up, and setting keeps the keys
apart. -/

namespace HeapTelemetry.Table
variable {α β : Type} [DecidableEq α]

theorem mem_of_get? {t : Table α β} {k : α} {v : β} (h : t.get? k = some v) : (k, v) ∈ t := by
  induction t with
  | nil => simp at h
  | cons e rest ih =>
    obtain ⟨k', v'⟩ := e
    rw [get?] at h
    split at h
    · rename_i hk
      rw [hk, Option.some.inj h]
      exact List.mem_cons_self
    · exact List.mem_cons_of_mem _ (ih h)

theorem mem_iff_get? {t : Table α β} (hd : t.keys.Nodup) (k : α) (v : β) :
    (k, v) ∈ t ↔ t.get? k = some v := by
  refine ⟨fun h => ?_, mem_of_get?⟩
  induction t with
  | nil => simp at h
  | cons e rest ih =>
    obtain ⟨k', v'⟩ := e
    have hd' := List.nodup_cons.1 hd
    rw [get?]
    rcases List.mem_cons.1 h with heq | h
    · cases heq
      rw [if_pos rfl]
    · rw [if_neg, ih hd'.2 h]
      intro hk
      have hm : k ∈ keys rest := List.mem_map_of_mem h
      exact hd'.1 (hk ▸ hm)

theorem contains_eq_false {t : Table α β} {k : α} : t.contains k = false ↔ t.get? k = none := by
  simp [contains]

theorem contains_iff {t : Table α β} {k : α} : t.contains k = true ↔ ∃ v, t.get? k = some v := by
  rw [contains, Option.isSome_iff_exists]

theorem contains_set (t : Table α β) (key other : α) (v : β) :
    (t.set key v).contains other = (decide (key = other) || t.contains other) := by
  rw [contains, contains, get?_set]
  by_cases h : key = other <;> simp [h]

theorem mem_keys_iff {t : Table α β} {k : α} : k ∈ t.keys ↔ ∃ v, t.get? k = some v := by
  constructor
  · induction t with
    | nil => simp [keys]
    | cons e rest ih =>
      obtain ⟨k', v'⟩ := e
      intro h
      rw [get?]
      split
      · exact ⟨v', rfl⟩
      · rename_i hk
        exact ih ((List.mem_cons.1 h).resolve_left (Ne.symm hk))
  · rintro ⟨v, h⟩
    exact List.mem_map_of_mem (mem_of_get? h)

theorem mem_keys_set {t : Table α β} {k k' : α} {v : β} :
    k' ∈ (t.set k v).keys ↔ k' = k ∨ k' ∈ t.keys := by
  rw [mem_keys_iff, mem_keys_iff, get?_set]
  by_cases h : k = k'
  · simp [h]
  · simp [h, Ne.symm h]

theorem nodup_keys_set {t : Table α β} (hd : t.keys.Nodup) (k : α) (v : β) :
    (t.set k v).keys.Nodup := by
  induction t with
  | nil => simp [set, keys]
  | cons e rest ih =>
    obtain ⟨k', v'⟩ := e
    have hd' := List.nodup_cons.1 hd
    rw [set]
    split
    · rename_i hk
      subst hk
      exact hd
    · rename_i hk
      refine List.nodup_cons.2 ⟨fun hm => ?_, ih hd'.2⟩
      rcases mem_keys_set.1 hm with h | h
      · exact hk h
      · exact hd'.1 h

theorem set_set (t : Table α β) (k : α) (v v' : β) : (t.set k v).set k v' = t.set k v' := by
  induction t with
  | nil => simp [set]
  | cons e rest ih =>
    obtain ⟨k', w⟩ := e
    by_cases hk : k' = k <;> simp [set, hk, ih]

/-- Setting the same value for a list of keys. -/
theorem get?_foldl_set {γ : Type} (f : γ → α) (v : β) (xs : List γ) (t : Table α β) (k : α) :
    (xs.foldl (fun t x => t.set (f x) v) t).get? k =
      if k ∈ xs.map f then some v else t.get? k := by
  induction xs generalizing t with
  | nil => simp
  | cons x rest ih =>
    rw [List.foldl_cons, ih, get?_set, List.map_cons]
    by_cases hr : k ∈ rest.map f
    · simp [hr]
    · by_cases hx : f x = k
      · simp [hx]
      · simp [hr, hx, Ne.symm hx]

theorem nodup_keys_foldl_set {γ : Type} (f : γ → α) (v : β) (xs : List γ) {t : Table α β}
    (hd : t.keys.Nodup) : (xs.foldl (fun t x => t.set (f x) v) t).keys.Nodup := by
  induction xs generalizing t with
  | nil => exact hd
  | cons x rest ih => exact ih (nodup_keys_set hd (f x) v)

end HeapTelemetry.Table
