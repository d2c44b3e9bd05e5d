import HeapTelemetry.Proofs.Caches
import Mathlib.Data.List.Nodup
import Mathlib.Data.List.TakeWhile
import Mathlib.Algebra.Order.BigOperators.Group.List
import Mathlib.Algebra.GroupWithZero.Nat
import Mathlib.Algebra.Order.Group.Nat

/-! A cache as a map of bounded size. An entry is the latest report that was accepted for its
key. The entries stand in the order in which they were last stored or found, and room is made
with as few as will do of those that were used longest ago. An expired entry is never given
out. -/

namespace HeapTelemetry

namespace ResultCache
variable {c : ResultCache} {now room : Nat} {key : String} {r : Report} {e : CacheEntry}
  {es kept : List CacheEntry} {uses : List String}

def sizes (es : List CacheEntry) : Nat := (es.map (·.size)).sum

@[simp] theorem sizes_cons (e : CacheEntry) (es : List CacheEntry) :
    sizes (e :: es) = e.size + sizes es := List.sum_cons

@[simp] theorem sizes_reverse (es : List CacheEntry) : sizes es.reverse = sizes es := by
  rw [sizes, List.map_reverse, List.sum_reverse]
  rfl

theorem sizes_le (h : kept.Sublist es) : sizes kept ≤ sizes es :=
  (h.map CacheEntry.size).sum_le_sum fun _ _ => Nat.zero_le _

/-- The entries of the other keys. -/
def without (key : String) (es : List CacheEntry) : List CacheEntry := es.filter (·.key ≠ key)

theorem without_sublist (key : String) (es : List CacheEntry) : (without key es).Sublist es :=
  List.filter_sublist

theorem mem_without : e ∈ without key es ↔ e ∈ es ∧ e.key ≠ key := by
  rw [without, List.mem_filter, decide_eq_true_iff]

theorem without_of_absent (h : ∀ e ∈ es, e.key ≠ key) : without key es = es :=
  List.filter_eq_self.2 fun e he => decide_eq_true (h e he)

/-- The other entries are smaller by the one that is left out. -/
theorem sizes_without (hdistinct : (es.map (·.key)).Nodup) (he : e ∈ es) :
    sizes es = e.size + sizes (without e.key es) := by
  induction es with
  | nil => cases he
  | cons first rest ih =>
    obtain ⟨hfirst, hrest⟩ := List.nodup_cons.1 hdistinct
    by_cases hkey : first.key = e.key
    · obtain rfl | hlater := List.mem_cons.1 he
      · have habsent : ∀ x ∈ rest, x.key ≠ e.key := fun x hx hsame =>
          hfirst (List.mem_map.2 ⟨x, hx, hsame⟩)
        rw [without, List.filter_cons_of_neg (by simp), ← without, without_of_absent habsent,
          sizes_cons]
      · exact absurd (List.mem_map.2 ⟨e, hlater, hkey.symm⟩) hfirst
    · obtain rfl | hlater := List.mem_cons.1 he
      · exact absurd rfl hkey
      · rw [without, List.filter_cons_of_pos (by simpa using hkey), ← without, sizes_cons,
          sizes_cons, ih hrest hlater]
        omega

/-! ## The books -/

/-- The total is what the entries take, within the bound, and no key has two entries. -/
structure Accounted (c : ResultCache) : Prop where
  total : c.totalSize = sizes c.entries
  bounded : c.totalSize ≤ c.limits.maxTotalSize
  measured : ∀ e ∈ c.entries, e.size = entrySize e.key e.report
  distinct : (c.entries.map (·.key)).Nodup

theorem Accounted.mono (h : c.Accounted) (hkept : kept.Sublist c.entries) :
    Accounted { c with entries := kept, totalSize := sizes kept } where
  total := rfl
  bounded := Nat.le_trans (sizes_le hkept) (h.total ▸ h.bounded)
  measured e he := h.measured e (hkept.subset he)
  distinct := h.distinct.sublist (hkept.map _)

/-- An entry before others of the cache. -/
theorem Accounted.cons (h : c.Accounted) (hkept : kept.Sublist (without e.key c.entries))
    (hmeasured : e.size = entrySize e.key e.report)
    (hfits : sizes (e :: kept) ≤ c.limits.maxTotalSize) :
    Accounted { c with entries := e :: kept, totalSize := sizes (e :: kept) } where
  total := rfl
  bounded := hfits
  measured x hx := by
    obtain rfl | hx := List.mem_cons.1 hx
    · exact hmeasured
    · exact h.measured x (mem_without.1 (hkept.subset hx)).1
  distinct := by
    refine List.nodup_cons.2 ⟨fun hmem => ?_, ?_⟩
    · obtain ⟨x, hx, hkey⟩ := List.mem_map.1 hmem
      exact (mem_without.1 (hkept.subset hx)).2 hkey
    · exact h.distinct.sublist ((hkept.trans (without_sublist _ _)).map _)

theorem find?_eq_none : c.find? key = none ↔ ∀ e ∈ c.entries, e.key ≠ key := by
  simp [find?]

/-- Taking a key out leaves the others, and the total goes down by its size. -/
theorem Accounted.remove_eq (h : c.Accounted) (key : String) :
    c.remove key = (c.entries.any (·.key = key),
      { c with entries := without key c.entries, totalSize := sizes (without key c.entries) }) := by
  rw [remove]
  split
  · rename_i hnone
    have habsent := find?_eq_none.1 hnone
    rw [without_of_absent habsent, ← h.total]
    refine Prod.ext (Eq.symm ?_) rfl
    simpa using habsent
  · rename_i e hfound
    obtain ⟨hmem, rfl⟩ := mem_of_find? hfound
    have hsmaller : c.totalSize - e.size = sizes (without e.key c.entries) := by
      rw [h.total, sizes_without h.distinct hmem, Nat.add_sub_cancel_left]
    rw [hsmaller]
    refine Prod.ext (Eq.symm ?_) rfl
    simpa using ⟨e, hmem, rfl⟩

/-- The loop goes until there is room, and not further; no subtraction falls short. -/
theorem evict_eq (room : Nat) (es : List CacheEntry) : ∃ victims kept, es = victims ++ kept ∧
    evict room es (sizes es) = (kept, sizes kept) ∧ sizes kept ≤ room ∧
    ∀ fewer more, es = fewer ++ more → sizes more ≤ room → victims.length ≤ fewer.length := by
  induction es with
  | nil => exact ⟨[], [], rfl, rfl, Nat.zero_le _, fun _ _ _ _ => Nat.zero_le _⟩
  | cons e rest ih =>
    rw [evict]
    split
    · rename_i hfull
      obtain ⟨victims, kept, rfl, hrun, hroom, hfewest⟩ := ih
      refine ⟨e :: victims, kept, rfl, ?_, hroom, fun fewer more hsplit hmore => ?_⟩
      · rw [sizes_cons, Nat.add_sub_cancel_left, hrun]
      · cases fewer with
        | nil =>
          rw [hsplit, List.nil_append] at hfull
          omega
        | cons first fewer =>
          rw [List.cons_append, List.cons.injEq] at hsplit
          exact Nat.succ_le_succ (hfewest fewer more hsplit.2 hmore)
    · rename_i hroom
      exact ⟨[], e :: rest, rfl, rfl, Nat.not_lt.1 hroom, fun _ _ _ _ => Nat.zero_le _⟩

/-! ## What is asked of a cache -/

inductive Request where
  | insert (key : String) (r : Report)
  | get (key : String)
  | remove (key : String)
  | collect (elapsed : Nat → Nat)
  | wait (duration : Nat)

inductive Answer where
  | stored (accepted : Bool)
  | found (r : Option Report)
  | removed (present : Bool)
  | collected (n : Nat)
  | waited

/-- A collection that comes to none of its checks late. -/
def Unhurried (c : ResultCache) (elapsed : Nat → Nat) : Prop :=
  ∀ i, 0 < i → i < c.entries.length → i % checkEvery = 0 → elapsed i < c.limits.gcMaxPause

/-- What a map of bounded size answers, and the entries it has then, the latest used one
first. -/
inductive Serves (c : ResultCache) (now : Nat) : Request → Answer → List CacheEntry → Prop
  | refused {key : String} {r : Report} : c.limits.maxTotalSize < entrySize key r →
      Serves c now (.insert key r) (.stored false) c.entries
  | stored {key : String} {r : Report} {kept victims : List CacheEntry} :
      entrySize key r ≤ c.limits.maxTotalSize →
      without key c.entries = kept ++ victims →
      sizes kept + entrySize key r ≤ c.limits.maxTotalSize →
      (∀ more fewer, without key c.entries = more ++ fewer →
        sizes more + entrySize key r ≤ c.limits.maxTotalSize → victims.length ≤ fewer.length) →
      Serves c now (.insert key r) (.stored true) (⟨key, r, entrySize key r, now⟩ :: kept)
  | found {e : CacheEntry} : e ∈ c.entries → now - e.insertedAt < c.limits.ttl →
      Serves c now (.get e.key) (.found (some e.report)) (e :: without e.key c.entries)
  | missed {key : String} :
      (∀ e ∈ c.entries, e.key = key → c.limits.ttl ≤ now - e.insertedAt) →
      Serves c now (.get key) (.found none) (without key c.entries)
  | removed {key : String} :
      Serves c now (.remove key) (.removed (c.entries.any (·.key = key))) (without key c.entries)
  | collected {elapsed : Nat → Nat} {seen unseen : List CacheEntry} :
      c.entries = seen ++ unseen → (c.Unhurried elapsed → unseen = []) →
      Serves c now (.collect elapsed) (.collected (seen.countP (c.limits.ttl ≤ now - ·.insertedAt)))
        (seen.filter (now - ·.insertedAt < c.limits.ttl) ++ unseen)
  | waited {duration : Nat} : Serves c now (.wait duration) .waited c.entries

theorem Accounted.insert_eq (h : c.Accounted) (now : Nat) (key : String) (r : Report) :
    (c.limits.maxTotalSize < entrySize key r ∧ c.insert now key r = (false, c)) ∨
    (entrySize key r ≤ c.limits.maxTotalSize ∧ ∃ kept victims,
      without key c.entries = kept ++ victims ∧
      sizes kept + entrySize key r ≤ c.limits.maxTotalSize ∧
      (∀ more fewer, without key c.entries = more ++ fewer →
        sizes more + entrySize key r ≤ c.limits.maxTotalSize → victims.length ≤ fewer.length) ∧
      c.insert now key r = (true,
        { c with
          entries := ⟨key, r, entrySize key r, now⟩ :: kept
          totalSize := sizes (⟨key, r, entrySize key r, now⟩ :: kept) })) := by
  rw [insert]
  by_cases hlarge : entrySize key r > c.limits.maxTotalSize
  · exact Or.inl ⟨hlarge, if_pos hlarge⟩
  have hsmall := Nat.not_lt.1 hlarge
  obtain ⟨victims, kept, hsplit, hrun, hroom, hfewest⟩ :=
    evict_eq (c.limits.maxTotalSize - entrySize key r) (without key c.entries).reverse
  rw [sizes_reverse] at hrun
  refine Or.inr ⟨hsmall, kept.reverse, victims.reverse, ?_, ?_, fun more fewer hother hfits => ?_, ?_⟩
  · rw [← List.reverse_append, ← hsplit, List.reverse_reverse]
  · rw [sizes_reverse]
    omega
  · have hle : victims.length ≤ fewer.reverse.length := by
      refine hfewest fewer.reverse more.reverse ?_ ?_
      · rw [hother, List.reverse_append]
      · rw [sizes_reverse]
        omega
    rwa [List.length_reverse] at hle ⊢
  · simp only [if_neg hlarge, h.remove_eq key, hrun]
    rw [sizes_cons, sizes_reverse, Nat.add_comm]

theorem Accounted.get_eq (h : c.Accounted) (now : Nat) (key : String) :
    (∃ e ∈ c.entries, e.key = key ∧ now - e.insertedAt < c.limits.ttl ∧
      c.get now key = (some e.report,
        { c with
          entries := e :: without key c.entries
          totalSize := sizes (e :: without key c.entries) })) ∨
    ((∀ e ∈ c.entries, e.key = key → c.limits.ttl ≤ now - e.insertedAt) ∧
      c.get now key = (none,
        { c with
          entries := without key c.entries
          totalSize := sizes (without key c.entries) })) := by
  rw [get]
  split
  · rename_i hnone
    have habsent := find?_eq_none.1 hnone
    refine Or.inr ⟨fun e he hkey => absurd hkey (habsent e he), ?_⟩
    rw [without_of_absent habsent, ← h.total]
  · rename_i e hfound
    obtain ⟨hmem, rfl⟩ := mem_of_find? hfound
    split
    · rename_i hexpired
      refine Or.inr ⟨fun x hx hkey => ?_, by rw [h.remove_eq]⟩
      obtain rfl := List.inj_on_of_nodup_map h.distinct hx hmem hkey
      exact of_decide_eq_true hexpired
    · rename_i hfresh
      refine Or.inl ⟨e, hmem, rfl, ?_, ?_⟩
      · exact Nat.not_le.1 fun hle => hfresh (decide_eq_true hle)
      · rw [sizes_cons, ← sizes_without h.distinct hmem, ← h.total]
        rfl

/-- Taking several keys out, one after the other. -/
theorem Accounted.foldl_remove (h : c.Accounted) (gone : List CacheEntry) :
    gone.foldl (fun c e => (c.remove e.key).2) c =
      { c with
        entries := c.entries.filter (·.key ∉ gone.map (·.key))
        totalSize := sizes (c.entries.filter (·.key ∉ gone.map (·.key))) } := by
  induction gone generalizing c with
  | nil =>
    have hall : c.entries.filter (·.key ∉ [].map CacheEntry.key) = c.entries :=
      List.filter_eq_self.2 fun _ _ => rfl
    rw [hall, ← h.total]
    rfl
  | cons first gone ih =>
    have hboth : (without first.key c.entries).filter (·.key ∉ gone.map (·.key)) =
        c.entries.filter (·.key ∉ (first :: gone).map (·.key)) := by
      rw [without, List.filter_filter]
      refine List.filter_congr fun e _ => ?_
      by_cases hfirst : e.key = first.key <;> simp [hfirst]
    rw [List.foldl_cons, h.remove_eq, ih (h.mono (without_sublist _ _)), hboth]

theorem exists_inspected (c : ResultCache) (elapsed : Nat → Nat) : ∃ unseen,
    c.entries = c.inspected elapsed ++ unseen ∧ (c.Unhurried elapsed → unseen = []) := by
  rw [inspected]
  generalize hlook : (fun (ei : CacheEntry × Nat) => !(0 < ei.2 && ei.2 % checkEvery == 0 &&
    c.limits.gcMaxPause ≤ elapsed ei.2)) = look
  obtain ⟨rest, hrest⟩ := List.takeWhile_prefix look (l := c.entries.zipIdx)
  refine ⟨rest.map Prod.fst, ?_, fun hunhurried => ?_⟩
  · rw [← List.map_append, hrest, List.zipIdx_map_fst]
  · have hall : c.entries.zipIdx.takeWhile look = c.entries.zipIdx := by
      rw [List.takeWhile_eq_self_iff]
      rintro ⟨e, i⟩ hmem
      have hi := (List.mem_zipIdx hmem).2.1
      have hintime := hunhurried i
      rw [← hlook]
      simp only [Bool.not_and, Bool.or_eq_true, Bool.not_eq_eq_eq_not, Bool.not_true,
        decide_eq_false_iff_not, beq_eq_false_iff_ne, ne_eq]
      omega
    rw [hall, List.append_right_eq_self] at hrest
    rw [hrest, List.map_nil]

/-- A collection leaves what it has not looked at, and of the rest what has not expired. -/
theorem Accounted.collectGarbage_eq (h : c.Accounted) (now : Nat) (elapsed : Nat → Nat) :
    ∃ seen unseen, c.entries = seen ++ unseen ∧ (c.Unhurried elapsed → unseen = []) ∧
      c.collectGarbage now elapsed = (seen.countP (c.limits.ttl ≤ now - ·.insertedAt),
        { c with
          entries := seen.filter (now - ·.insertedAt < c.limits.ttl) ++ unseen
          totalSize := sizes (seen.filter (now - ·.insertedAt < c.limits.ttl) ++ unseen) }) := by
  obtain ⟨unseen, hsplit, hall⟩ := exists_inspected c elapsed
  generalize hseen : c.inspected elapsed = seen at hsplit
  refine ⟨seen, unseen, hsplit, hall, ?_⟩
  have hleft : c.entries.filter (·.key ∉ (seen.filter (c.isExpired now)).map (·.key)) =
      seen.filter (now - ·.insertedAt < c.limits.ttl) ++ unseen := by
    have hdistinct := h.distinct
    rw [hsplit] at hdistinct ⊢
    rw [List.filter_append]
    congr 1
    · refine List.filter_congr fun e he => ?_
      have hgone : e.key ∈ (seen.filter (c.isExpired now)).map (·.key) ↔ c.isExpired now e := by
        refine ⟨fun hmem => ?_, fun hexpired => ?_⟩
        · obtain ⟨x, hx, hkey⟩ := List.mem_map.1 hmem
          obtain ⟨hx, hexpired⟩ := List.mem_filter.1 hx
          rwa [List.inj_on_of_nodup_map hdistinct (List.mem_append_left _ he)
            (List.mem_append_left _ hx) hkey.symm]
        · exact List.mem_map.2 ⟨e, List.mem_filter.2 ⟨he, hexpired⟩, rfl⟩
      rw [isExpired, decide_eq_true_iff, ← Nat.not_lt] at hgone
      exact decide_eq_decide.2 (not_congr hgone |>.trans not_not)
    · refine List.filter_eq_self.2 fun e he => decide_eq_true fun hmem => ?_
      obtain ⟨x, hx, hkey⟩ := List.mem_map.1 hmem
      rw [List.map_append] at hdistinct
      exact List.disjoint_of_nodup_append hdistinct
        (List.mem_map_of_mem (List.mem_filter.1 hx).1) (hkey ▸ List.mem_map_of_mem he)
  rw [collectGarbage, hseen, h.foldl_remove, hleft, List.countP_eq_length_filter]
  rfl

/-! ## One request after the other -/

/-- A cache in use, with the entries it accepted and the keys it stored or found, the latest
ones first. -/
structure Course where
  cache : ResultCache
  now : Nat
  stores : List CacheEntry
  uses : List String

namespace Course

def start (limits : CacheLimits) (now : Nat) : Course := ⟨ResultCache.empty limits, now, [], []⟩

def ask (c : Course) : Request → Answer × Course
  | .insert key r =>
    let (accepted, cache) := c.cache.insert c.now key r
    (.stored accepted,
      if accepted then
        { c with
          cache
          stores := ⟨key, r, entrySize key r, c.now⟩ :: c.stores
          uses := key :: c.uses }
      else { c with cache })
  | .get key =>
    let (found, cache) := c.cache.get c.now key
    (.found found, { c with cache, uses := if found.isSome then key :: c.uses else c.uses })
  | .remove key =>
    let (present, cache) := c.cache.remove key
    (.removed present, { c with cache })
  | .collect elapsed =>
    let (n, cache) := c.cache.collectGarbage c.now elapsed
    (.collected n, { c with cache })
  | .wait duration => (.waited, { c with now := c.now + duration })

def askAll (c : Course) (requests : List Request) : Course :=
  requests.foldl (fun c request => (c.ask request).2) c

/-- Every entry is the latest one accepted for its key, and the entries stand in the order of
their last use. -/
structure Faithful (limits : CacheLimits) (c : Course) : Prop where
  limits : c.cache.limits = limits
  accounted : c.cache.Accounted
  latest : ∀ e ∈ c.cache.entries, c.stores.find? (·.key = e.key) = some e
  past : ∀ e ∈ c.cache.entries, e.insertedAt ≤ c.now
  recent : c.cache.entries.Pairwise fun e e' => c.uses.idxOf e.key < c.uses.idxOf e'.key

variable {limits : CacheLimits} {c : Course}

theorem Faithful.keep (h : c.Faithful limits) (hkept : kept.Sublist c.cache.entries) :
    Faithful limits
      { c with cache := { c.cache with entries := kept, totalSize := sizes kept } } where
  limits := h.limits
  accounted := h.accounted.mono hkept
  latest e he := h.latest e (hkept.subset he)
  past e he := h.past e (hkept.subset he)
  recent := h.recent.sublist hkept

/-- An entry that was stored or found comes before all others. -/
theorem Faithful.use (h : c.Faithful limits) {stores : List CacheEntry}
    (hkept : kept.Sublist (without e.key c.cache.entries))
    (hcache : Accounted { c.cache with entries := e :: kept, totalSize := sizes (e :: kept) })
    (hpast : e.insertedAt ≤ c.now) (hlatest : stores.find? (·.key = e.key) = some e)
    (hothers : ∀ key, key ≠ e.key → stores.find? (·.key = key) = c.stores.find? (·.key = key)) :
    Faithful limits
      { cache := { c.cache with entries := e :: kept, totalSize := sizes (e :: kept) }
        now := c.now
        stores
        uses := e.key :: c.uses } where
  limits := h.limits
  accounted := hcache
  latest x hx := by
    obtain rfl | hx := List.mem_cons.1 hx
    · exact hlatest
    · obtain ⟨hmem, hkey⟩ := mem_without.1 (hkept.subset hx)
      exact (hothers x.key hkey).trans (h.latest x hmem)
  past x hx := by
    obtain rfl | hx := List.mem_cons.1 hx
    · exact hpast
    · exact h.past x (mem_without.1 (hkept.subset hx)).1
  recent := by
    have hlater : ∀ x ∈ kept, (e.key :: c.uses).idxOf x.key = c.uses.idxOf x.key + 1 := fun x hx =>
      List.idxOf_cons_ne _ (mem_without.1 (hkept.subset hx)).2.symm
    refine List.pairwise_cons.2 ⟨fun x hx => ?_, ?_⟩
    · rw [List.idxOf_cons_self, hlater x hx]
      exact Nat.succ_pos _
    · refine (h.recent.sublist (hkept.trans (without_sublist _ _))).imp_of_mem ?_
      intro x y hx hy hxy
      rw [hlater x hx, hlater y hy]
      exact Nat.succ_lt_succ hxy

/-- Every request is served as it should be, and leaves the cache in order. -/
theorem Faithful.ask (h : c.Faithful limits) (request : Request) :
    Serves c.cache c.now request (c.ask request).1 (c.ask request).2.cache.entries ∧
      (c.ask request).2.Faithful limits := by
  cases request with
  | insert key r =>
    rcases h.accounted.insert_eq c.now key r with ⟨hlarge, hrun⟩ |
      ⟨hsmall, kept, victims, hsplit, hfits, hfewest, hrun⟩
    · simp only [Course.ask, hrun]
      exact ⟨.refused hlarge, h⟩
    · have hkept : kept.Sublist (without key c.cache.entries) := hsplit ▸ List.sublist_append_left _ _
      have hcache := h.accounted.cons (e := ⟨key, r, entrySize key r, c.now⟩) hkept rfl
        (by rw [sizes_cons, Nat.add_comm]; exact hfits)
      simp only [Course.ask, hrun]
      refine ⟨.stored hsmall hsplit hfits hfewest, h.use hkept hcache (Nat.le_refl _) ?_ ?_⟩
      · exact List.find?_cons_of_pos (decide_eq_true rfl)
      · exact fun other hne => List.find?_cons_of_neg (by simpa using hne.symm)
  | get key =>
    rcases h.accounted.get_eq c.now key with ⟨e, hmem, rfl, hfresh, hrun⟩ | ⟨hexpired, hrun⟩
    · have hcache := h.accounted.cons (e := e) (List.Sublist.refl _) (h.accounted.measured e hmem)
        (by rw [sizes_cons, ← sizes_without h.accounted.distinct hmem, ← h.accounted.total]
            exact h.accounted.bounded)
      simp only [Course.ask, hrun]
      exact ⟨.found hmem hfresh, h.use (List.Sublist.refl _) hcache (h.past e hmem) (h.latest e hmem)
        fun _ _ => rfl⟩
    · simp only [Course.ask, hrun]
      exact ⟨.missed hexpired, h.keep (without_sublist _ _)⟩
  | remove key =>
    simp only [Course.ask, h.accounted.remove_eq key]
    exact ⟨.removed, h.keep (without_sublist _ _)⟩
  | collect elapsed =>
    obtain ⟨seen, unseen, hsplit, hall, hrun⟩ := h.accounted.collectGarbage_eq c.now elapsed
    simp only [Course.ask, hrun]
    exact ⟨.collected hsplit hall, h.keep (hsplit ▸ List.filter_sublist.append_right unseen)⟩
  | wait duration =>
    exact ⟨.waited, h.limits, h.accounted, h.latest,
      fun e he => Nat.le_add_right_of_le (h.past e he), h.recent⟩

theorem faithful_start (limits : CacheLimits) (now : Nat) : (start limits now).Faithful limits where
  limits := rfl
  accounted := ⟨rfl, Nat.zero_le _, nofun, List.nodup_nil⟩
  latest := nofun
  past := nofun
  recent := List.Pairwise.nil

theorem Faithful.askAll (h : c.Faithful limits) (requests : List Request) :
    (c.askAll requests).Faithful limits := by
  induction requests generalizing c with
  | nil => exact h
  | cons request requests ih => exact ih (h.ask request).2

/-- After any requests, the cache is within its bound and in the order of use, and it serves
the next request, whichever it is, as a map of bounded size that forgets what was used longest
ago. -/
theorem bounded_least_recently_used (limits : CacheLimits) (now : Nat) (requests : List Request)
    (request : Request) :
    let c := (start limits now).askAll requests
    c.Faithful limits ∧
      Serves c.cache c.now request (c.ask request).1 (c.ask request).2.cache.entries := by
  have h := (faithful_start limits now).askAll requests
  exact ⟨h, (h.ask request).1⟩

end Course

end ResultCache
end HeapTelemetry
