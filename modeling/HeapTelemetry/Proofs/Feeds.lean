import HeapTelemetry.Feed
import HeapTelemetry.Proofs.Tables
import Mathlib.Data.List.Nodup

/-! What each operation of a feed does to the subscribers of every session, and from that what
it does to one subscriber. A session whose list would be empty is not in the table. -/

namespace HeapTelemetry.Feed

variable {α : Type}

/-! ## Subscribers of a session -/

/-- A subscriber after an update was offered to it. -/
def offered (f : Feed α) (update : α) (x : Subscriber α) : Subscriber α :=
  if f.accepts x then { x with queue := x.queue ++ [update] } else x

theorem id_offered (f : Feed α) (update : α) (x : Subscriber α) :
    (f.offered update x).id = x.id := by
  rw [offered]
  split <;> rfl

theorem subscribers_eq {f : Feed α} {k : String} {subs : List (Subscriber α)}
    (h : f.table.get? k = some subs) : f.subscribers k = subs := by
  rw [subscribers, h, Option.getD_some]

theorem subscribers_eq_nil {f : Feed α} {k : String} (h : f.table.get? k = none) :
    f.subscribers k = [] := by
  rw [subscribers, h, Option.getD_none]

theorem subscribers_set (f : Feed α) (k k' : String) (subs : List (Subscriber α)) (n : Nat) :
    subscribers ⟨f.depth, n, f.table.set k subs⟩ k' =
      if k = k' then subs else f.subscribers k' := by
  rw [subscribers, Table.get?_set]
  split <;> rfl

theorem subscribers_subscribe (f : Feed α) (k k' : String) :
    (f.subscribe k).2.subscribers k' =
      if k = k' then f.subscribers k' ++ [⟨f.lastId + 1, [], false⟩] else f.subscribers k' := by
  rw [subscribe, subscribers_set]
  split
  · rename_i hk
    rw [hk]
  · rfl

theorem subscribers_broadcast (f : Feed α) (k : String) (update : α) (k' : String) :
    (f.broadcast k update).2.subscribers k' =
      if k = k' then (f.subscribers k').map (f.offered update) else f.subscribers k' := by
  rw [broadcast]
  split
  · rename_i hk
    split
    · rename_i heq
      rw [← heq, subscribers_eq_nil hk, List.map_nil]
    · rfl
  · rename_i subs hk
    rw [subscribers_set]
    split
    · rename_i heq
      rw [← heq, subscribers_eq hk]
      rfl
    · rfl

theorem subscribers_change (f : Feed α) (s : Subscription) (g : Subscriber α → Subscriber α)
    (k : String) : (f.change s g).subscribers k =
      if s.session = k then (f.subscribers k).map fun x => if x.id = s.id then g x else x
      else f.subscribers k := by
  rw [change]
  split
  · rename_i hk
    split
    · rename_i heq
      rw [← heq, subscribers_eq_nil hk, List.map_nil]
    · rfl
  · rename_i subs hk
    rw [subscribers_set]
    split
    · rename_i heq
      rw [← heq, subscribers_eq hk]
    · rfl

theorem subscribers_remove (f : Feed α) (s : Subscription) (k : String) :
    (f.remove s).subscribers k =
      if s.session = k then (f.subscribers k).filter (·.id ≠ s.id) else f.subscribers k := by
  rw [remove]
  split
  · rename_i hk
    split
    · rename_i heq
      rw [← heq, subscribers_eq_nil hk, List.filter_nil]
    · rfl
  · rename_i subs hk
    by_cases hrest : (subs.filter (·.id ≠ s.id)).isEmpty
    · simp only [hrest, ↓reduceIte]
      rw [subscribers, Table.get?_erase]
      split
      · rename_i heq
        rw [← heq, subscribers_eq hk, List.isEmpty_iff.1 hrest, Option.getD_none]
      · rfl
    · simp only [hrest, ↓reduceIte, Bool.false_eq_true]
      rw [subscribers_set]
      split
      · rename_i heq
        rw [← heq, subscribers_eq hk]
      · rfl

/-- The subscriptions of a session that are in the table. -/
def listed (f : Feed α) (k : String) : List Subscription :=
  (f.subscribers k).map fun x => ⟨k, x.id⟩

theorem listed_subscribe (f : Feed α) (k k' : String) :
    (f.subscribe k).2.listed k' =
      if k = k' then f.listed k' ++ [⟨k, f.lastId + 1⟩] else f.listed k' := by
  simp only [listed, subscribers_subscribe]
  split
  · rename_i hk
    simp [hk]
  · rfl

theorem listed_broadcast (f : Feed α) (k : String) (update : α) (k' : String) :
    (f.broadcast k update).2.listed k' = f.listed k' := by
  simp only [listed, subscribers_broadcast]
  split <;> simp [id_offered]

theorem listed_change (f : Feed α) (s : Subscription) (g : Subscriber α → Subscriber α)
    (hg : ∀ x, (g x).id = x.id) (k : String) : (f.change s g).listed k = f.listed k := by
  simp only [listed, subscribers_change]
  split
  · rw [List.map_map]
    apply List.map_congr_left
    intro x _
    simp only [Function.comp_apply]
    split <;> simp [hg]
  · rfl

theorem listed_remove (f : Feed α) (s : Subscription) (k : String) :
    (f.remove s).listed k = (f.listed k).filter (· ≠ s) := by
  obtain ⟨session, id⟩ := s
  simp only [listed, subscribers_remove, List.filter_map]
  split
  · rename_i hk
    subst hk
    congr 1
    apply List.filter_congr
    intro x _
    simp
  · rename_i hk
    congr 1
    symm
    rw [List.filter_eq_self]
    intro x _
    simp [Ne.symm hk]

/-- A broadcast counts those it finds ready. -/
theorem broadcast_fst (f : Feed α) (k : String) (update : α) :
    (f.broadcast k update).1 = ((f.subscribers k).filter f.accepts).length := by
  rw [broadcast]
  split
  · rename_i hk
    rw [subscribers_eq_nil hk]
    rfl
  · rename_i subs hk
    rw [subscribers_eq hk]

/-! ## Numbers and depth -/

theorem broadcast_kept (f : Feed α) (k : String) (update : α) :
    (f.broadcast k update).2.depth = f.depth ∧ (f.broadcast k update).2.lastId = f.lastId := by
  rw [broadcast]
  split <;> exact ⟨rfl, rfl⟩

theorem change_kept (f : Feed α) (s : Subscription) (g : Subscriber α → Subscriber α) :
    (f.change s g).depth = f.depth ∧ (f.change s g).lastId = f.lastId := by
  rw [change]
  split <;> exact ⟨rfl, rfl⟩

theorem remove_kept (f : Feed α) (s : Subscription) :
    (f.remove s).depth = f.depth ∧ (f.remove s).lastId = f.lastId := by
  rw [remove]
  split <;> exact ⟨rfl, rfl⟩

/-! ## One subscriber -/

theorem find?_of_nodup {f : Feed α} {k : String} {x : Subscriber α}
    (hd : ((f.subscribers k).map Subscriber.id).Nodup) (hx : x ∈ f.subscribers k) :
    f.find? ⟨k, x.id⟩ = some x := by
  obtain ⟨y, hy⟩ : ∃ y, f.find? ⟨k, x.id⟩ = some y := by
    rw [← Option.isSome_iff_exists, find?, List.find?_isSome]
    exact ⟨x, hx, by simp⟩
  have hid : y.id = x.id := by simpa using List.find?_some hy
  rw [hy, List.inj_on_of_nodup_map hd (List.mem_of_find?_eq_some hy) hx hid]

theorem find?_subscribe (f : Feed α) (k : String) (s : Subscription) :
    (f.subscribe k).2.find? s =
      (f.find? s).or (if s = ⟨k, f.lastId + 1⟩ then some ⟨f.lastId + 1, [], false⟩ else none) := by
  obtain ⟨session, id⟩ := s
  simp only [find?, subscribers_subscribe]
  by_cases hk : k = session
  · by_cases hid : f.lastId + 1 = id
    · simp [hk, hid, List.find?_append]
    · simp [hk, hid, Ne.symm hid, List.find?_append]
  · simp [hk, Ne.symm hk]

theorem find?_broadcast (f : Feed α) (k : String) (update : α) (s : Subscription) :
    (f.broadcast k update).2.find? s =
      if k = s.session then (f.find? s).map (f.offered update) else f.find? s := by
  simp only [find?, subscribers_broadcast]
  split
  · rw [List.find?_map]
    simp only [Function.comp_def, id_offered]
  · rfl

theorem find?_change (f : Feed α) (s : Subscription) (g : Subscriber α → Subscriber α)
    (hg : ∀ x, (g x).id = x.id) (t : Subscription) :
    (f.change s g).find? t = if s = t then (f.find? t).map g else f.find? t := by
  obtain ⟨session, id⟩ := t
  simp only [find?, subscribers_change]
  by_cases hk : s.session = session
  · have hid : ∀ x : Subscriber α, (if x.id = s.id then g x else x).id = x.id := fun x => by
      split
      · exact hg x
      · rfl
    simp only [hk, ↓reduceIte, List.find?_map, Function.comp_def, hid]
    by_cases hs : s = ⟨session, id⟩
    · subst hs
      simp only [↓reduceIte]
      cases hfind : (f.subscribers session).find? (·.id = id) with
      | none => rfl
      | some x =>
        have hx : x.id = id := by simpa using List.find?_some hfind
        simp only [Option.map_some, hx, ↓reduceIte]
    · have hne : s.id ≠ id := fun h => hs (by rw [← hk, ← h])
      simp only [hs, ↓reduceIte]
      cases hfind : (f.subscribers session).find? (·.id = id) with
      | none => rfl
      | some x =>
        have hx : x.id = id := by simpa using List.find?_some hfind
        simp only [Option.map_some, hx, Ne.symm hne, ↓reduceIte]
  · have hs : s ≠ ⟨session, id⟩ := fun h => hk (by rw [h])
    simp only [hk, hs, ↓reduceIte]

theorem find?_cancel (f : Feed α) (s t : Subscription) :
    (f.cancel s).find? t =
      if s = t then (f.find? t).map fun x => { x with cancelled := true } else f.find? t :=
  find?_change f s (fun x => { x with cancelled := true }) (fun _ => rfl) t

theorem find?_remove (f : Feed α) (s t : Subscription) :
    (f.remove s).find? t = if s = t then none else f.find? t := by
  obtain ⟨session, id⟩ := t
  simp only [find?, subscribers_remove]
  by_cases hk : s.session = session
  · simp only [hk, ↓reduceIte, List.find?_filter]
    by_cases hs : s = ⟨session, id⟩
    · subst hs
      simp
    · have hne : s.id ≠ id := fun h => hs (by rw [← hk, ← h])
      simp only [hs, ↓reduceIte]
      congr 1
      funext x
      by_cases hx : x.id = id <;> simp [hx, Ne.symm hne]
  · have hs : s ≠ ⟨session, id⟩ := fun h => hk (by rw [h])
    simp only [hk, hs, ↓reduceIte]

/-- The updates that wait for a subscriber. -/
def queue (f : Feed α) (s : Subscription) : List α := ((f.find? s).map Subscriber.queue).getD []

theorem queue_of_find? {f : Feed α} {s : Subscription} {x : Subscriber α}
    (h : f.find? s = some x) : f.queue s = x.queue := by
  rw [queue, h]
  rfl

theorem queue_of_find?_none {f : Feed α} {s : Subscription} (h : f.find? s = none) :
    f.queue s = [] := by
  rw [queue, h]
  rfl

/-- Taking gives the oldest update that waits and leaves the others. -/
theorem poll_eq (f : Feed α) (s : Subscription) :
    f.poll s = ((f.queue s).head?,
      if (f.queue s).isEmpty then f
      else f.change s fun x => { x with queue := (f.queue s).tail }) := by
  rw [poll, queue]
  cases hfind : f.find? s with
  | none => rfl
  | some x => cases hq : x.queue <;> simp [hq]

theorem find?_poll (f : Feed α) (s t : Subscription) :
    (f.poll s).2.find? t =
      if s = t then (f.find? t).map fun x => { x with queue := x.queue.tail } else f.find? t := by
  have hchange := f.find?_change s (fun x => { x with queue := (f.queue s).tail })
    (fun _ => rfl) t
  rw [poll_eq]
  by_cases hs : s = t
  · subst hs
    rw [if_pos rfl] at hchange ⊢
    split
    · rename_i hempty
      cases hfind : f.find? s with
      | none => rfl
      | some x =>
        have hnil : x.queue = [] := by rwa [queue_of_find? hfind, List.isEmpty_iff] at hempty
        obtain ⟨id, q, c⟩ := x
        cases hnil
        rfl
    · rw [hchange]
      cases hfind : f.find? s with
      | none => rfl
      | some x => rw [queue_of_find? hfind]; rfl
  · rw [if_neg hs] at hchange ⊢
    split
    · rfl
    · exact hchange

/-- A subscriber that is gone or cancelled receives the end, whatever waits for it. -/
theorem receive_ended {f : Feed α} {s : Subscription}
    (h : ∀ x, f.find? s = some x → x.cancelled = true) : f.receive s = (.ended, f) := by
  rw [receive]
  split
  · rfl
  · rename_i x hfind
    rw [if_pos (h x hfind)]

/-- Any other receives as it polls. -/
theorem receive_live {f : Feed α} {s : Subscription} {x : Subscriber α}
    (h : f.find? s = some x) (hlive : x.cancelled = false) :
    f.receive s = (((f.poll s).1.map Received.update).getD .pending, (f.poll s).2) := by
  rw [receive, h]
  simp only [hlive, Bool.false_eq_true, ↓reduceIte]
  cases f.poll s with
  | mk value f' => cases value <;> rfl

theorem queue_subscribe (f : Feed α) (k : String) (s : Subscription) :
    (f.subscribe k).2.queue s = f.queue s := by
  rw [queue, queue, find?_subscribe]
  cases f.find? s with
  | some x => rfl
  | none => split <;> rfl

theorem queue_poll (f : Feed α) (t s : Subscription) :
    (f.poll t).2.queue s = if t = s then (f.queue s).tail else f.queue s := by
  rw [queue, queue, find?_poll]
  split
  · cases f.find? s <;> rfl
  · rfl

theorem queue_cancel (f : Feed α) (t s : Subscription) : (f.cancel t).queue s = f.queue s := by
  rw [queue, queue, find?_cancel]
  split
  · cases f.find? s <;> rfl
  · rfl

theorem queue_remove (f : Feed α) {t s : Subscription} (h : t ≠ s) :
    (f.remove t).queue s = f.queue s := by
  rw [queue, queue, find?_remove, if_neg h]

theorem poll_kept (f : Feed α) (s : Subscription) :
    (f.poll s).2.depth = f.depth ∧ (f.poll s).2.lastId = f.lastId := by
  rw [poll_eq]
  split
  · exact ⟨rfl, rfl⟩
  · exact change_kept _ _ _

theorem listed_poll (f : Feed α) (s : Subscription) (k : String) :
    (f.poll s).2.listed k = f.listed k := by
  rw [poll_eq]
  split
  · rfl
  · exact listed_change f s (fun x => { x with queue := (f.queue s).tail }) (fun _ => rfl) k

/-! ## Sessions in the table -/

/-- No session is listed without a subscriber. -/
def Pruned (f : Feed α) : Prop := ∀ k, f.table.get? k ≠ some []

theorem Pruned.set {f : Feed α} (h : f.Pruned) {k : String} {subs : List (Subscriber α)}
    (hne : subs ≠ []) (n : Nat) : Pruned ⟨f.depth, n, f.table.set k subs⟩ := by
  intro k'
  rw [Table.get?_set]
  split
  · exact fun heq => hne (Option.some.inj heq)
  · exact h k'

theorem Pruned.subscribe {f : Feed α} (h : f.Pruned) (k : String) : (f.subscribe k).2.Pruned :=
  h.set (by simp) _

theorem Pruned.broadcast {f : Feed α} (h : f.Pruned) (k : String) (update : α) :
    (f.broadcast k update).2.Pruned := by
  rw [Feed.broadcast]
  split
  · exact h
  · rename_i subs hk
    exact h.set (fun hnil => h k (by rw [hk, List.map_eq_nil_iff.1 hnil])) _

theorem Pruned.change {f : Feed α} (h : f.Pruned) (s : Subscription)
    (g : Subscriber α → Subscriber α) : (f.change s g).Pruned := by
  rw [Feed.change]
  split
  · exact h
  · rename_i subs hk
    exact h.set (fun hnil => h s.session (by rw [hk, List.map_eq_nil_iff.1 hnil])) _

theorem Pruned.poll {f : Feed α} (h : f.Pruned) (s : Subscription) : (f.poll s).2.Pruned := by
  rw [poll_eq]
  split
  · exact h
  · exact h.change s _

theorem Pruned.remove {f : Feed α} (h : f.Pruned) (s : Subscription) : (f.remove s).Pruned := by
  rw [Feed.remove]
  split
  · exact h
  · rename_i subs hk
    by_cases hrest : (subs.filter (·.id ≠ s.id)).isEmpty
    · simp only [hrest, ↓reduceIte]
      intro k'
      rw [Table.get?_erase]
      split
      · exact (Option.some_ne_none _).symm
      · exact h k'
    · simp only [hrest, ↓reduceIte, Bool.false_eq_true]
      exact h.set (fun hnil => hrest (by rw [hnil]; rfl)) _

theorem Pruned.hasSubscribers_iff {f : Feed α} (h : f.Pruned) (k : String) :
    f.hasSubscribers k = true ↔ f.subscribers k ≠ [] := by
  rw [hasSubscribers, Table.contains_iff]
  cases hk : f.table.get? k with
  | none => simp [subscribers_eq_nil hk]
  | some subs =>
    rw [subscribers_eq hk]
    refine ⟨fun _ hnil => h k (by rw [hk, hnil]), fun _ => ⟨subs, rfl⟩⟩

end HeapTelemetry.Feed
