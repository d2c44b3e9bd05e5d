import HeapTelemetry.ResultCache

/-! What a cache holds comes from what was put into it. Looking up, removing and collecting
garbage keep entries or drop them, and a report that is found stands in an entry of its key. -/

namespace HeapTelemetry

namespace ResultCache
variable {c : ResultCache} {now : Nat} {key : String} {r : Report} {e : CacheEntry}

theorem mem_of_find? (h : c.find? key = some e) : e ∈ c.entries ∧ e.key = key := by
  rw [find?] at h
  exact ⟨List.mem_of_find?_eq_some h, by simpa using List.find?_some h⟩

theorem mem_of_remove (h : e ∈ (c.remove key).2.entries) : e ∈ c.entries := by
  rw [remove] at h
  split at h
  · exact h
  · exact (List.mem_filter.1 h).1

theorem mem_of_evict {room : Nat} {es : List CacheEntry} {total : Nat}
    (h : e ∈ (evict room es total).1) : e ∈ es := by
  induction es generalizing total with
  | nil => exact h
  | cons first rest ih =>
    rw [evict] at h
    split at h
    · exact List.mem_cons_of_mem _ (ih h)
    · exact h

theorem mem_of_insert (h : e ∈ (c.insert now key r).2.entries) :
    e ∈ c.entries ∨ e.key = key ∧ e.report = r := by
  rw [insert] at h
  split at h
  · exact Or.inl h
  · rcases List.mem_cons.1 h with rfl | h
    · exact Or.inr ⟨rfl, rfl⟩
    · exact Or.inl (mem_of_remove (List.mem_reverse.1 (mem_of_evict (List.mem_reverse.1 h))))

theorem mem_of_get (h : e ∈ (c.get now key).2.entries) : e ∈ c.entries := by
  rw [get] at h
  split at h
  · exact h
  · rename_i found hfound
    split at h
    · exact mem_of_remove h
    · rcases List.mem_cons.1 h with rfl | h
      · exact (mem_of_find? hfound).1
      · exact (List.mem_filter.1 h).1

/-- What is found was stored under its key. -/
theorem exists_of_get (h : (c.get now key).1 = some r) :
    ∃ e ∈ c.entries, e.key = key ∧ e.report = r := by
  rw [get] at h
  split at h
  · cases h
  · rename_i found hfound
    obtain ⟨hmem, hkey⟩ := mem_of_find? hfound
    split at h
    · cases h
    · exact ⟨found, hmem, hkey, Option.some.inj h⟩

theorem limits_remove (c : ResultCache) (key : String) : (c.remove key).2.limits = c.limits := by
  rw [remove]
  split <;> rfl

theorem limits_get (c : ResultCache) (now : Nat) (key : String) :
    (c.get now key).2.limits = c.limits := by
  rw [get]
  split
  · rfl
  · split
    · exact limits_remove c key
    · rfl

/-- What was just stored is found, if it has room and may stay at all. -/
theorem get_insert (hroom : entrySize key r ≤ c.limits.maxTotalSize) (hstays : 0 < c.limits.ttl) :
    ((c.insert now key r).2.get now key).1 = some r := by
  rw [insert, if_neg (Nat.not_lt.2 hroom), get, find?, List.find?_cons_of_pos (by simp)]
  simp [isExpired, limits_remove, Nat.pos_iff_ne_zero.1 hstays]

theorem mem_of_collectGarbage {elapsed : Nat → Nat}
    (h : e ∈ (c.collectGarbage now elapsed).2.entries) : e ∈ c.entries := by
  have hremoved : ∀ (expired : List CacheEntry) (c : ResultCache),
      e ∈ (expired.foldl (fun c e => (c.remove e.key).2) c).entries → e ∈ c.entries := by
    intro expired
    induction expired with
    | nil => exact fun c h => h
    | cons first rest ih => exact fun c h => mem_of_remove (ih _ h)
  exact hremoved _ c h

end ResultCache

namespace TimedCache
variable {t : TimedCache} {e : CacheEntry}

theorem mem_of_startCollecting (h : e ∈ t.startCollecting.cache.entries) : e ∈ t.cache.entries := by
  rw [startCollecting] at h
  split at h
  · exact h
  · exact ResultCache.mem_of_collectGarbage h

theorem mem_of_runDue {limit fuel : Nat} (h : e ∈ (runDue limit fuel t).cache.entries) :
    e ∈ t.cache.entries := by
  induction fuel generalizing t with
  | zero => exact h
  | succ fuel ih =>
    rw [runDue] at h
    split at h
    · exact h
    · rename_i next later _
      split at h
      · exact h
      · exact mem_of_startCollecting (t := { t with now := next, due := later }) (ih h)

theorem mem_of_advance {duration : Nat} (h : e ∈ (t.advance duration).cache.entries) :
    e ∈ t.cache.entries := mem_of_runDue h

end TimedCache
end HeapTelemetry
