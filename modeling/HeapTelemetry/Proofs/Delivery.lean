import HeapTelemetry.Proofs.Feeds
import Mathlib.Data.List.Basic
import Mathlib.Data.List.Induction

/-! Runs of a feed. Subscriptions are made, updates broadcast, queues emptied, contexts
cancelled and subscriptions dropped in any order. What a subscriber takes, with what still
waits for it, are the updates that were due to it, oldest first, and nothing that is done
with another subscription changes them. -/

namespace HeapTelemetry.Feed

variable {α : Type}

/-! ## Runs -/

/-- What is done with a subscription. A context that several subscriptions share is
cancelled for each of them. -/
inductive Act
  | tryReceive | receive | cancel | drop
  deriving DecidableEq

inductive Event (α : Type)
  | subscribe (session : String)
  | broadcast (session : String) (update : α)
  | act (s : Subscription) (a : Act)

/-- A feed with the subscriptions it gave out and what was done with them; `taken` are the
updates handed to subscribers, in order. -/
structure History (α : Type) where
  feed : Feed α
  issued : List Subscription
  cancelled : List Subscription
  dropped : List Subscription
  taken : List (Subscription × α)

end Feed

def Received.value? {α : Type} : Received α → Option α
  | .update value => some value
  | .pending | .ended => none

namespace Feed

variable {α : Type} {b : Nat} {h : History α} {s : Subscription}

namespace History

def start (b : Nat) : History α := ⟨Feed.empty b, [], [], [], []⟩

def act (h : History α) (s : Subscription) : Act → History α
  | .tryReceive =>
    let (value, feed) := h.feed.poll s
    { h with feed, taken := h.taken ++ value.toList.map (s, ·) }
  | .receive =>
    let (received, feed) := h.feed.receive s
    { h with feed, taken := h.taken ++ received.value?.toList.map (s, ·) }
  | .cancel => { h with feed := h.feed.cancel s, cancelled := h.cancelled ++ [s] }
  | .drop => { h with feed := h.feed.remove s, dropped := h.dropped ++ [s] }

/-- Only a subscription that was given out can be used. -/
def happen (h : History α) : Event α → History α
  | .subscribe session =>
    let (s, feed) := h.feed.subscribe session
    { h with feed, issued := h.issued ++ [s] }
  | .broadcast session update => { h with feed := (h.feed.broadcast session update).2 }
  | .act s a => if s ∈ h.issued then h.act s a else h

/-- The updates that a subscriber has taken. -/
def takenBy (h : History α) (s : Subscription) : List α :=
  (h.taken.filter (·.1 = s)).map Prod.snd

/-- An update of the session is due to a subscriber that is there, not cancelled, and has
room for it. -/
def Due (b : Nat) (h : History α) (session : String) (s : Subscription) : Prop :=
  s.session = session ∧ s ∈ h.issued ∧ s ∉ h.dropped ∧ s ∉ h.cancelled ∧
    (h.feed.queue s).length < b

instance (session : String) : Decidable (h.Due b session s) :=
  inferInstanceAs (Decidable (_ ∧ _))

end History

/-- What has happened after some events, with queues of `b` updates. -/
def history (b : Nat) (events : List (Event α)) : History α :=
  events.foldl History.happen (.start b)

/-- The updates that were due to a subscriber when they were broadcast, with their places
among the events. -/
def due (b : Nat) (s : Subscription) (events : List (Event α)) : List (Nat × α) :=
  events.zipIdx.filterMap fun (e, i) => match e with
    | .broadcast session update =>
      if (history b (events.take i)).Due b session s then some (i, update) else none
    | .subscribe _ | .act _ _ => none

/-- Events that a subscriber has to do with; numbers are given out in the order of all
subscriptions. -/
def Event.concerns (s : Subscription) : Event α → Bool
  | .subscribe _ => true
  | .broadcast session _ => session = s.session
  | .act t _ => t = s

theorem history_concat (b : Nat) (events : List (Event α)) (e : Event α) :
    history b (events ++ [e]) = (history b events).happen e := by
  rw [history, history, List.foldl_append]
  rfl

theorem due_concat (b : Nat) (s : Subscription) (events : List (Event α)) (e : Event α) :
    due b s (events ++ [e]) = due b s events ++ match e with
      | .broadcast session update =>
        if (history b events).Due b session s then [(events.length, update)] else []
      | .subscribe _ | .act _ _ => [] := by
  rw [due, List.zipIdx_append, List.filterMap_append]
  congr 1
  · apply List.filterMap_congr
    rintro ⟨x, i⟩ hx
    have hi : i ≤ events.length := by
      have hlt := (List.mem_zipIdx hx).2.1
      omega
    cases x with
    | broadcast session update => simp only [List.take_append_of_le_length hi]
    | subscribe _ => rfl
    | act _ _ => rfl
  · cases e with
    | broadcast session update =>
      simp only [Nat.zero_add, List.zipIdx_singleton, List.filterMap_cons, List.filterMap_nil,
        List.take_append_length]
      split <;> simp_all
    | subscribe _ => rfl
    | act _ _ => rfl

/-! ## The table -/

namespace History

/-- The table lists what was given out and not dropped, under its session, and its entries
agree with what was done. -/
structure Sound (b : Nat) (h : History α) : Prop where
  depth : h.feed.depth = b
  pruned : h.feed.Pruned
  numbered : h.issued.map Subscription.id = List.range' 1 h.feed.lastId
  listed : ∀ k, h.feed.listed k = h.issued.filter fun s => s.session = k ∧ s ∉ h.dropped
  marked : ∀ s x, h.feed.find? s = some x →
    (x.cancelled = true ↔ s ∈ h.cancelled) ∧ x.queue.length ≤ b
  known : ∀ s, s ∈ h.cancelled ∨ s ∈ h.dropped → s ∈ h.issued

theorem sound_start (hb : 1 ≤ b) : (start b : History α).Sound b where
  depth := Nat.max_eq_left hb
  pruned _ := by simp [start, Feed.empty]
  numbered := rfl
  listed _ := rfl
  marked s x h := by simp [start, Feed.empty, find?, subscribers] at h
  known s h := by simp [start] at h

theorem Sound.fresh (hs : h.Sound b) (k : String) : ⟨k, h.feed.lastId + 1⟩ ∉ h.issued := by
  intro hm
  have hid : h.feed.lastId + 1 ∈ h.issued.map Subscription.id := List.mem_map_of_mem hm
  rw [hs.numbered, List.mem_range'_1] at hid
  omega

theorem Sound.nodup (hs : h.Sound b) : (h.issued.map Subscription.id).Nodup := by
  rw [hs.numbered]
  exact List.nodup_range'

theorem find?_isSome_iff (f : Feed α) (s : Subscription) :
    (∃ x, f.find? s = some x) ↔ s ∈ f.listed s.session := by
  rw [← Option.isSome_iff_exists, find?, List.find?_isSome, Feed.listed, List.mem_map]
  obtain ⟨session, id⟩ := s
  simp

/-- A subscriber is found as long as it was not dropped. -/
theorem Sound.find?_iff (hs : h.Sound b) :
    (∃ x, h.feed.find? s = some x) ↔ s ∈ h.issued ∧ s ∉ h.dropped := by
  rw [find?_isSome_iff, hs.listed]
  simp

theorem Sound.queue_eq_nil (hs : h.Sound b) (hn : ¬ (s ∈ h.issued ∧ s ∉ h.dropped)) :
    h.feed.queue s = [] := by
  cases hfind : h.feed.find? s with
  | none => exact queue_of_find?_none hfind
  | some x => exact absurd (hs.find?_iff.1 ⟨x, hfind⟩) hn

theorem Sound.length_queue_le (hs : h.Sound b) (s : Subscription) :
    (h.feed.queue s).length ≤ b := by
  cases hfind : h.feed.find? s with
  | none => simp [queue_of_find?_none hfind]
  | some x =>
    rw [queue_of_find? hfind]
    exact (hs.marked s x hfind).2

/-- The feed offers an update to those to whom it is due. -/
theorem Sound.accepts_iff (hs : h.Sound b) {x : Subscriber α} (hfind : h.feed.find? s = some x) :
    h.feed.accepts x = true ↔ h.Due b s.session s := by
  obtain ⟨hi, hd⟩ := hs.find?_iff.1 ⟨x, hfind⟩
  have hmark := (hs.marked s x hfind).1
  rw [accepts, hs.depth, Due, queue_of_find? hfind]
  simp [hi, hd, ← hmark]

/-- Receiving is taking, except that a subscriber that is gone or cancelled gets nothing. -/
theorem act_receive (h : History α) (s : Subscription) :
    h.act s .receive =
      if (h.feed.find? s).any (!·.cancelled) then h.act s .tryReceive else h := by
  by_cases hlive : ∃ x, h.feed.find? s = some x ∧ x.cancelled = false
  · obtain ⟨x, hfind, hx⟩ := hlive
    have hany : (h.feed.find? s).any (!·.cancelled) = true := by simp [hfind, hx]
    rw [if_pos hany]
    simp only [act, receive_live hfind hx]
    cases (h.feed.poll s).1 <;> rfl
  · have hend : ∀ x, h.feed.find? s = some x → x.cancelled = true := fun x hx => by
      by_contra hc
      exact hlive ⟨x, hx, by simpa using hc⟩
    have hany : ¬ (h.feed.find? s).any (!·.cancelled) = true := by
      rw [Option.any_eq_true]
      rintro ⟨x, hx, hc⟩
      simp [hend x hx] at hc
    rw [if_neg hany]
    simp only [act, receive_ended hend]
    simp [Received.value?]

theorem Sound.subscribe (hs : h.Sound b) (k : String) : (h.happen (.subscribe k)).Sound b where
  depth := hs.depth
  pruned := hs.pruned.subscribe k
  numbered := by
    have hnew : (h.issued ++ [(h.feed.subscribe k).1]).map Subscription.id =
        List.range' 1 (h.feed.lastId + 1) := by
      rw [List.map_append, hs.numbered, List.range'_concat]
      simp [Feed.subscribe, Nat.add_comm]
    exact hnew
  listed k' := by
    have hd : (⟨k, h.feed.lastId + 1⟩ : Subscription) ∉ h.dropped :=
      fun hm => hs.fresh k (hs.known _ (Or.inr hm))
    show (h.feed.subscribe k).2.listed k' =
      (h.issued ++ [(h.feed.subscribe k).1]).filter fun s => s.session = k' ∧ s ∉ h.dropped
    rw [listed_subscribe, List.filter_append, ← hs.listed]
    by_cases hk : k = k'
    · subst hk
      simp [Feed.subscribe, hd]
    · simp [Feed.subscribe, hk]
  marked s x hx := by
    have hx : (h.feed.subscribe k).2.find? s = some x := hx
    rw [find?_subscribe] at hx
    cases hfind : h.feed.find? s with
    | some y =>
      rw [hfind, Option.some_or] at hx
      exact Option.some.inj hx ▸ hs.marked s y hfind
    | none =>
      rw [hfind, Option.none_or] at hx
      split at hx
      · rename_i heq
        cases hx
        have hc : s ∉ h.cancelled := fun hm => hs.fresh k (heq ▸ hs.known s (Or.inl hm))
        exact ⟨iff_of_false Bool.false_ne_true hc, Nat.zero_le b⟩
      · cases hx
  known s hm := List.mem_append_left _ (hs.known s hm)

theorem Sound.broadcast (hs : h.Sound b) (k : String) (update : α) :
    (h.happen (.broadcast k update)).Sound b where
  depth := (broadcast_kept h.feed k update).1.trans hs.depth
  pruned := hs.pruned.broadcast k update
  numbered := by
    show h.issued.map Subscription.id = List.range' 1 (h.feed.broadcast k update).2.lastId
    rw [(broadcast_kept h.feed k update).2]
    exact hs.numbered
  listed k' := (listed_broadcast h.feed k update k').trans (hs.listed k')
  marked s x hx := by
    have hx : (h.feed.broadcast k update).2.find? s = some x := hx
    rw [find?_broadcast] at hx
    split at hx
    · obtain ⟨y, hy, rfl⟩ := Option.map_eq_some_iff.1 hx
      rw [offered]
      split
      · rename_i haccepts
        have hroom := ((hs.accepts_iff hy).1 haccepts).2.2.2.2
        rw [queue_of_find? hy] at hroom
        refine ⟨(hs.marked s y hy).1, ?_⟩
        rw [List.length_append]
        exact hroom
      · exact hs.marked s y hy
    · exact hs.marked s x hx
  known := hs.known

theorem Sound.tryReceive (hs : h.Sound b) (t : Subscription) : (h.act t .tryReceive).Sound b where
  depth := (poll_kept h.feed t).1.trans hs.depth
  pruned := hs.pruned.poll t
  numbered := by
    show h.issued.map Subscription.id = List.range' 1 (h.feed.poll t).2.lastId
    rw [(poll_kept h.feed t).2]
    exact hs.numbered
  listed k := (listed_poll h.feed t k).trans (hs.listed k)
  marked s x hx := by
    have hx : (h.feed.poll t).2.find? s = some x := hx
    rw [find?_poll] at hx
    split at hx
    · obtain ⟨y, hy, rfl⟩ := Option.map_eq_some_iff.1 hx
      obtain ⟨hmark, hle⟩ := hs.marked s y hy
      refine ⟨hmark, ?_⟩
      simp only [List.length_tail]
      omega
    · exact hs.marked s x hx
  known := hs.known

theorem Sound.cancel (hs : h.Sound b) {t : Subscription} (ht : t ∈ h.issued) :
    (h.act t .cancel).Sound b where
  depth := (change_kept h.feed t _).1.trans hs.depth
  pruned := hs.pruned.change t _
  numbered := by
    show h.issued.map Subscription.id = List.range' 1 (h.feed.cancel t).lastId
    rw [Feed.cancel, (change_kept h.feed t _).2]
    exact hs.numbered
  listed k :=
    (listed_change h.feed t (fun x => { x with cancelled := true }) (fun _ => rfl) k).trans
      (hs.listed k)
  marked s x hx := by
    have hx : (h.feed.cancel t).find? s = some x := hx
    rw [find?_cancel] at hx
    show (x.cancelled = true ↔ s ∈ h.cancelled ++ [t]) ∧ _
    split at hx
    · rename_i heq
      obtain ⟨y, hy, rfl⟩ := Option.map_eq_some_iff.1 hx
      exact ⟨by simp [heq], (hs.marked s y hy).2⟩
    · rename_i hne
      obtain ⟨hmark, hle⟩ := hs.marked s x hx
      exact ⟨by simp [hmark, Ne.symm hne], hle⟩
  known s hm := by
    have hm : s ∈ h.cancelled ++ [t] ∨ s ∈ h.dropped := hm
    rw [List.mem_append, List.mem_singleton] at hm
    rcases hm with (hm | rfl) | hm
    · exact hs.known s (Or.inl hm)
    · exact ht
    · exact hs.known s (Or.inr hm)

theorem Sound.drop (hs : h.Sound b) {t : Subscription} (ht : t ∈ h.issued) :
    (h.act t .drop).Sound b where
  depth := (remove_kept h.feed t).1.trans hs.depth
  pruned := hs.pruned.remove t
  numbered := by
    show h.issued.map Subscription.id = List.range' 1 (h.feed.remove t).lastId
    rw [(remove_kept h.feed t).2]
    exact hs.numbered
  listed k := by
    show (h.feed.remove t).listed k =
      h.issued.filter fun s => s.session = k ∧ s ∉ h.dropped ++ [t]
    rw [listed_remove, hs.listed, List.filter_filter]
    apply List.filter_congr
    intro s _
    by_cases hst : s = t <;> simp [hst]
  marked s x hx := by
    have hx : (h.feed.remove t).find? s = some x := hx
    rw [find?_remove] at hx
    split at hx
    · cases hx
    · exact hs.marked s x hx
  known s hm := by
    have hm : s ∈ h.cancelled ∨ s ∈ h.dropped ++ [t] := hm
    rw [List.mem_append, List.mem_singleton] at hm
    rcases hm with hm | hm | rfl
    · exact hs.known s (Or.inl hm)
    · exact hs.known s (Or.inr hm)
    · exact ht

theorem Sound.act (hs : h.Sound b) {t : Subscription} (ht : t ∈ h.issued) (a : Act) :
    (h.act t a).Sound b := by
  cases a with
  | tryReceive => exact hs.tryReceive t
  | receive =>
    rw [act_receive]
    split
    · exact hs.tryReceive t
    · exact hs
  | cancel => exact hs.cancel ht
  | drop => exact hs.drop ht

theorem Sound.happen (hs : h.Sound b) (e : Event α) : (h.happen e).Sound b := by
  cases e with
  | subscribe k => exact hs.subscribe k
  | broadcast k update => exact hs.broadcast k update
  | act t a =>
    rw [History.happen]
    split
    · rename_i ht
      exact hs.act ht a
    · exact hs

end History

theorem sound_history (hb : 1 ≤ b) (events : List (Event α)) : (history b events).Sound b := by
  induction events using List.reverseRecOn with
  | nil => exact History.sound_start hb
  | append_singleton events e ih => exact history_concat b events e ▸ ih.happen e

/-! ## Delivery -/

namespace History

theorem Sound.queue_broadcast (hs : h.Sound b) (k : String) (update : α) (s : Subscription) :
    (h.feed.broadcast k update).2.queue s =
      h.feed.queue s ++ if h.Due b k s then [update] else [] := by
  rw [queue, find?_broadcast]
  by_cases hk : k = s.session
  · subst hk
    rw [if_pos rfl]
    cases hfind : h.feed.find? s with
    | none =>
      have hdue : ¬ h.Due b s.session s := fun hd => by
        obtain ⟨x, hx⟩ := hs.find?_iff.2 ⟨hd.2.1, hd.2.2.1⟩
        rw [hfind] at hx
        cases hx
      rw [if_neg hdue, queue_of_find?_none hfind]
      rfl
    | some x =>
      rw [queue_of_find? hfind, Option.map_some, Option.map_some, Option.getD_some, offered]
      by_cases hdue : h.Due b s.session s
      · rw [if_pos hdue, if_pos ((hs.accepts_iff hfind).2 hdue)]
      · rw [if_neg hdue, if_neg (fun ha => hdue ((hs.accepts_iff hfind).1 ha)), List.append_nil]
  · have hdue : ¬ h.Due b k s := fun hd => hk hd.1.symm
    rw [if_neg hk, if_neg hdue, List.append_nil, queue]

/-- A broadcast gives the number of those to whom the update was due. -/
theorem Sound.broadcast_fst (hs : h.Sound b) (k : String) (update : α) :
    (h.feed.broadcast k update).1 = (h.issued.filter fun s => h.Due b k s).length := by
  have hlisted : (h.issued.filter fun s => h.Due b k s) =
      (h.feed.listed k).filter fun s => h.Due b k s := by
    rw [hs.listed, List.filter_filter]
    apply List.filter_congr
    intro s _
    by_cases hdue : h.Due b k s
    · simp [hdue, hdue.1, hdue.2.2.1]
    · simp [hdue]
  have hnodup : ((h.feed.subscribers k).map Subscriber.id).Nodup := by
    have hsub : ((h.feed.listed k).map Subscription.id).Nodup :=
      hs.nodup.sublist ((hs.listed k ▸ List.filter_sublist).map _)
    rwa [Feed.listed, List.map_map] at hsub
  have haccepts : ∀ x ∈ h.feed.subscribers k,
      (decide (h.Due b k ⟨k, x.id⟩) = h.feed.accepts x) := by
    intro x hx
    have hfind : h.feed.find? ⟨k, x.id⟩ = some x := find?_of_nodup hnodup hx
    rw [Bool.eq_iff_iff, decide_eq_true_iff]
    exact (hs.accepts_iff hfind).symm
  rw [Feed.broadcast_fst, hlisted, Feed.listed, List.filter_map, List.length_map]
  congr 1
  exact (List.filter_congr haccepts).symm

/-- The updates `due` so far are those that a subscriber took and those that wait for it. -/
structure Flows (h : History α) (s : Subscription) (due : List α) : Prop where
  waiting : s ∉ h.dropped → due = h.takenBy s ++ h.feed.queue s
  taken : h.takenBy s <+: due

variable {updates : List α}

theorem Flows.subscribe (hf : h.Flows s updates) (k : String) :
    (h.happen (.subscribe k)).Flows s updates where
  waiting hd := by
    show updates = h.takenBy s ++ (h.feed.subscribe k).2.queue s
    rw [queue_subscribe]
    exact hf.waiting hd
  taken := hf.taken

theorem Flows.broadcast (hf : h.Flows s updates) (hs : h.Sound b) (k : String) (update : α) :
    (h.happen (.broadcast k update)).Flows s
      (updates ++ if h.Due b k s then [update] else []) where
  waiting hd := by
    show _ = h.takenBy s ++ (h.feed.broadcast k update).2.queue s
    rw [hs.queue_broadcast, ← List.append_assoc, ← hf.waiting hd]
  taken := hf.taken.trans (List.prefix_append _ _)

theorem takenBy_tryReceive (h : History α) (t s : Subscription) :
    (h.act t .tryReceive).takenBy s =
      h.takenBy s ++ if t = s then (h.feed.queue s).head?.toList else [] := by
  simp only [takenBy, act, poll_eq, List.filter_append, List.map_append]
  congr 1
  split
  · rename_i heq
    subst heq
    cases (h.feed.queue t).head? <;> simp
  · rename_i hne
    cases (h.feed.queue t).head? <;> simp [hne]

theorem Flows.tryReceive (hf : h.Flows s updates) (hs : h.Sound b) (t : Subscription) :
    (h.act t .tryReceive).Flows s updates := by
  have hsplit : (h.act t .tryReceive).takenBy s ++ (h.feed.poll t).2.queue s =
      h.takenBy s ++ h.feed.queue s := by
    rw [takenBy_tryReceive, queue_poll]
    split
    · cases h.feed.queue s <;> simp
    · simp
  refine ⟨fun hd => hsplit ▸ hf.waiting hd, ?_⟩
  by_cases hd : s ∈ h.dropped
  · have hnil : h.feed.queue s = [] := hs.queue_eq_nil (fun hn => hn.2 hd)
    rw [takenBy_tryReceive, hnil]
    simpa using hf.taken
  · rw [hf.waiting hd, ← hsplit]
    exact List.prefix_append _ _

theorem Flows.act (hf : h.Flows s updates) (hs : h.Sound b) (t : Subscription) (a : Act) :
    (h.act t a).Flows s updates := by
  cases a with
  | tryReceive => exact hf.tryReceive hs t
  | receive =>
    rw [act_receive]
    split
    · exact hf.tryReceive hs t
    · exact hf
  | cancel =>
    refine ⟨fun hd => ?_, hf.taken⟩
    show updates = h.takenBy s ++ (h.feed.cancel t).queue s
    rw [queue_cancel]
    exact hf.waiting hd
  | drop =>
    refine ⟨fun hd => ?_, hf.taken⟩
    have hd : s ∉ h.dropped ++ [t] := hd
    rw [List.mem_append, List.mem_singleton, not_or] at hd
    show updates = h.takenBy s ++ (h.feed.remove t).queue s
    rw [queue_remove h.feed (Ne.symm hd.2)]
    exact hf.waiting hd.1

end History

theorem flows_history (hb : 1 ≤ b) (events : List (Event α)) (s : Subscription) :
    (history b events).Flows s ((due b s events).map Prod.snd) := by
  induction events using List.reverseRecOn with
  | nil => exact ⟨fun _ => rfl, List.prefix_refl _⟩
  | append_singleton events e ih =>
    have hs := sound_history hb events
    rw [history_concat, due_concat, List.map_append]
    cases e with
    | subscribe k =>
      rw [List.map_nil, List.append_nil]
      exact ih.subscribe k
    | broadcast k update =>
      have hstep := ih.broadcast hs k update
      simp only
      split
      · rename_i hdue
        rwa [if_pos hdue] at hstep
      · rename_i hdue
        rwa [if_neg hdue] at hstep
    | act t a =>
      rw [List.map_nil, List.append_nil, History.happen]
      split
      · exact ih.act hs t a
      · exact ih

theorem mem_due_iff {events : List (Event α)} {i : Nat} {update : α} :
    (i, update) ∈ due b s events ↔ events[i]? = some (.broadcast s.session update) ∧
      (history b (events.take i)).Due b s.session s := by
  rw [due, List.mem_filterMap]
  constructor
  · rintro ⟨⟨e, j⟩, hmem, he⟩
    have hget := List.mk_mem_zipIdx_iff_getElem?.1 hmem
    cases e with
    | broadcast session x =>
      simp only at he
      split at he
      · rename_i hdue
        cases he
        have hsession := hdue.1
        subst hsession
        exact ⟨hget, hdue⟩
      · cases he
    | subscribe _ => cases he
    | act _ _ => cases he
  · rintro ⟨hget, hdue⟩
    exact ⟨(.broadcast s.session update, i), List.mk_mem_zipIdx_iff_getElem?.2 hget, by simp [hdue]⟩

theorem ascending_due (b : Nat) (s : Subscription) (events : List (Event α)) :
    (due b s events).Pairwise fun x y => x.1 < y.1 := by
  induction events using List.reverseRecOn with
  | nil => exact List.Pairwise.nil
  | append_singleton events e ih =>
    have hlt : ∀ x ∈ due b s events, x.1 < events.length := fun x hx =>
      (List.getElem?_eq_some_iff.1 (mem_due_iff.1 hx).1).1
    rw [due_concat, List.pairwise_append]
    cases e with
    | broadcast session update =>
      simp only
      split
      · exact ⟨ih, List.pairwise_singleton _ _, fun x hx y hy => List.mem_singleton.1 hy ▸ hlt x hx⟩
      · exact ⟨ih, List.Pairwise.nil, by simp⟩
    | subscribe _ => exact ⟨ih, List.Pairwise.nil, by simp⟩
    | act _ _ => exact ⟨ih, List.Pairwise.nil, by simp⟩

/-! ## Other subscribers -/

/-- Two runs that one subscription cannot tell apart. -/
structure Alike (s : Subscription) (h h' : History α) : Prop where
  issued : h.issued = h'.issued
  lastId : h.feed.lastId = h'.feed.lastId
  depth : h.feed.depth = h'.feed.depth
  entry : h.feed.find? s = h'.feed.find? s
  taken : h.takenBy s = h'.takenBy s

variable {h' : History α}

theorem Alike.queue (ha : Alike s h h') : h.feed.queue s = h'.feed.queue s := by
  rw [Feed.queue, Feed.queue, ha.entry]

theorem Alike.tryReceive (ha : Alike s h h') :
    Alike s (h.act s .tryReceive) (h'.act s .tryReceive) where
  issued := ha.issued
  lastId := (poll_kept _ _).2.trans (ha.lastId.trans (poll_kept _ _).2.symm)
  depth := (poll_kept _ _).1.trans (ha.depth.trans (poll_kept _ _).1.symm)
  entry := by
    show (h.feed.poll s).2.find? s = (h'.feed.poll s).2.find? s
    rw [find?_poll, find?_poll, ha.entry]
  taken := by rw [History.takenBy_tryReceive, History.takenBy_tryReceive, ha.taken, ha.queue]

theorem Alike.act (ha : Alike s h h') (a : Act) : Alike s (h.act s a) (h'.act s a) := by
  cases a with
  | tryReceive => exact ha.tryReceive
  | receive =>
    rw [History.act_receive, History.act_receive, ha.entry]
    split
    · exact ha.tryReceive
    · exact ha
  | cancel =>
    refine ⟨ha.issued, (change_kept _ _ _).2.trans (ha.lastId.trans (change_kept _ _ _).2.symm),
      (change_kept _ _ _).1.trans (ha.depth.trans (change_kept _ _ _).1.symm), ?_, ha.taken⟩
    show (h.feed.cancel s).find? s = (h'.feed.cancel s).find? s
    rw [find?_cancel, find?_cancel, ha.entry]
  | drop =>
    refine ⟨ha.issued, (remove_kept _ _).2.trans (ha.lastId.trans (remove_kept _ _).2.symm),
      (remove_kept _ _).1.trans (ha.depth.trans (remove_kept _ _).1.symm), ?_, ha.taken⟩
    show (h.feed.remove s).find? s = (h'.feed.remove s).find? s
    rw [find?_remove, find?_remove, ha.entry]

/-- What concerns a subscription has the same effect on it in both runs. -/
theorem Alike.happen (ha : Alike s h h') (e : Event α) (hc : e.concerns s) :
    Alike s (h.happen e) (h'.happen e) := by
  cases e with
  | subscribe k =>
    have hnew : (h.feed.subscribe k).1 = (h'.feed.subscribe k).1 := by
      rw [subscribe, subscribe, ha.lastId]
    refine ⟨?_, congrArg (· + 1) ha.lastId, ha.depth, ?_, ha.taken⟩
    · show h.issued ++ [(h.feed.subscribe k).1] = h'.issued ++ [(h'.feed.subscribe k).1]
      rw [ha.issued, hnew]
    · show (h.feed.subscribe k).2.find? s = (h'.feed.subscribe k).2.find? s
      rw [find?_subscribe, find?_subscribe, ha.entry, ha.lastId]
  | broadcast k update =>
    have hoffered : h.feed.offered update = h'.feed.offered update := by
      funext x
      rw [offered, offered, accepts, accepts, ha.depth]
    refine ⟨ha.issued,
      (broadcast_kept _ _ _).2.trans (ha.lastId.trans (broadcast_kept _ _ _).2.symm),
      (broadcast_kept _ _ _).1.trans (ha.depth.trans (broadcast_kept _ _ _).1.symm), ?_, ha.taken⟩
    show (h.feed.broadcast k update).2.find? s = (h'.feed.broadcast k update).2.find? s
    rw [find?_broadcast, find?_broadcast, ha.entry, hoffered]
  | act t a =>
    have ht : t = s := by simpa [Event.concerns] using hc
    subst ht
    rw [History.happen, History.happen, ha.issued]
    split
    · exact ha.act a
    · exact ha

theorem Alike.trans {h'' : History α} (ha : Alike s h h') (ha' : Alike s h' h'') :
    Alike s h h'' :=
  ⟨ha.issued.trans ha'.issued, ha.lastId.trans ha'.lastId, ha.depth.trans ha'.depth,
    ha.entry.trans ha'.entry, ha.taken.trans ha'.taken⟩

theorem alike_tryReceive (h : History α) {t : Subscription} (hne : t ≠ s) :
    Alike s (h.act t .tryReceive) h where
  issued := rfl
  lastId := (poll_kept _ _).2
  depth := (poll_kept _ _).1
  entry := (find?_poll _ _ _).trans (if_neg hne)
  taken := by rw [History.takenBy_tryReceive, if_neg hne, List.append_nil]

theorem alike_act (h : History α) {t : Subscription} (hne : t ≠ s) (a : Act) :
    Alike s (h.act t a) h := by
  cases a with
  | tryReceive => exact alike_tryReceive h hne
  | receive =>
    rw [History.act_receive]
    split
    · exact alike_tryReceive h hne
    · exact ⟨rfl, rfl, rfl, rfl, rfl⟩
  | cancel =>
    exact ⟨rfl, (change_kept _ _ _).2, (change_kept _ _ _).1,
      (find?_cancel _ _ _).trans (if_neg hne), rfl⟩
  | drop =>
    exact ⟨rfl, (remove_kept _ _).2, (remove_kept _ _).1,
      (find?_remove _ _ _).trans (if_neg hne), rfl⟩

/-- What does not concern a subscription has no effect on it. -/
theorem alike_happen (h : History α) (e : Event α) (hc : ¬ e.concerns s) :
    Alike s (h.happen e) h := by
  cases e with
  | subscribe _ => exact absurd rfl hc
  | broadcast k update =>
    have hk : ¬ k = s.session := by simpa [Event.concerns] using hc
    exact ⟨rfl, (broadcast_kept _ _ _).2, (broadcast_kept _ _ _).1,
      (find?_broadcast _ _ _ _).trans (if_neg hk), rfl⟩
  | act t a =>
    have hne : t ≠ s := by simpa [Event.concerns] using hc
    rw [History.happen]
    split
    · exact alike_act h hne a
    · exact ⟨rfl, rfl, rfl, rfl, rfl⟩

theorem alike_filter (b : Nat) (s : Subscription) (events : List (Event α)) :
    Alike s (history b events) (history b (events.filter (·.concerns s))) := by
  induction events using List.reverseRecOn with
  | nil => exact ⟨rfl, rfl, rfl, rfl, rfl⟩
  | append_singleton events e ih =>
    rw [history_concat, List.filter_append]
    by_cases hc : e.concerns s
    · have hlast : [e].filter (·.concerns s) = [e] := by simp [hc]
      rw [hlast, history_concat]
      exact ih.happen e hc
    · have hlast : [e].filter (·.concerns s) = [] := by simp [hc]
      rw [hlast, List.append_nil]
      exact (alike_happen _ e hc).trans ih

/-- A session is in the table exactly as long as a subscription of it was not dropped. -/
theorem History.Sound.hasSubscribers_iff (hs : h.Sound b) (k : String) :
    h.feed.hasSubscribers k = true ↔ ∃ s ∈ h.issued, s ∉ h.dropped ∧ s.session = k := by
  have hnil : h.feed.subscribers k ≠ [] ↔ h.feed.listed k ≠ [] := by
    rw [Feed.listed, Ne, Ne, List.map_eq_nil_iff]
  rw [hs.pruned.hasSubscribers_iff, hnil, hs.listed, Ne, List.filter_eq_nil_iff]
  simp [and_comm]

/-- What a subscriber that is there gets when it asks. -/
theorem History.Sound.receive_eq (hs : h.Sound b) (hi : s ∈ h.issued) (hd : s ∉ h.dropped) :
    (h.feed.receive s).1 = if s ∈ h.cancelled then .ended
      else ((h.feed.queue s).head?.map Received.update).getD .pending := by
  obtain ⟨x, hx⟩ := hs.find?_iff.2 ⟨hi, hd⟩
  have hmark := (hs.marked s x hx).1
  split
  · rename_i hc
    have hend : ∀ y, h.feed.find? s = some y → y.cancelled = true := fun y hy => by
      rw [hx] at hy
      exact Option.some.inj hy ▸ hmark.2 hc
    rw [receive_ended hend]
  · rename_i hc
    have hlive : x.cancelled = false := by
      rw [← Bool.not_eq_true]
      exact fun ht => hc (hmark.1 ht)
    rw [receive_live hx hlive, poll_eq]

/-- For every run of a feed with queues of `b` updates: no number is given twice; the queue
of a subscription never holds more than `b` updates; the updates it took, followed until it
is dropped by those in its queue, are those broadcast for its session after it was made and
before it was dropped, while it was not cancelled and had room, in the order of the
broadcasts; asking gives the oldest one; and without all that was done with other
subscriptions and sessions it would have taken and be waiting for the same. A broadcast gives
the number of subscriptions whose queues it lengthens, and the table has the sessions with a
subscription that was not dropped. -/
theorem subscribers_receive_what_is_due (b : Nat) (hb : 1 ≤ b) (events : List (Event α)) :
    let h := history b events
    (h.issued.map Subscription.id).Nodup ∧
    (∀ s ∈ h.issued,
      (h.feed.queue s).length ≤ b ∧
      (∀ i update, (i, update) ∈ due b s events ↔
        events[i]? = some (.broadcast s.session update) ∧
          (history b (events.take i)).Due b s.session s) ∧
      ((due b s events).Pairwise fun x y => x.1 < y.1) ∧
      h.takenBy s <+: (due b s events).map Prod.snd ∧
      (s ∉ h.dropped →
        (due b s events).map Prod.snd = h.takenBy s ++ h.feed.queue s ∧
        (h.feed.poll s).1 = (h.feed.queue s).head? ∧
        (h.feed.receive s).1 = if s ∈ h.cancelled then .ended
          else ((h.feed.queue s).head?.map Received.update).getD .pending) ∧
      h.takenBy s = (history b (events.filter (·.concerns s))).takenBy s ∧
      h.feed.find? s = (history b (events.filter (·.concerns s))).feed.find? s) ∧
    (∀ k update,
      (h.feed.broadcast k update).1 = (h.issued.filter fun s => h.Due b k s).length ∧
      ∀ s, (h.feed.broadcast k update).2.queue s =
        h.feed.queue s ++ if h.Due b k s then [update] else []) ∧
    ∀ k, h.feed.hasSubscribers k = true ↔ ∃ s ∈ h.issued, s ∉ h.dropped ∧ s.session = k := by
  intro h
  have hs : h.Sound b := sound_history hb events
  refine ⟨hs.nodup, fun s hi => ?_, fun k update => ⟨hs.broadcast_fst k update,
    hs.queue_broadcast k update⟩, hs.hasSubscribers_iff⟩
  have hflows := flows_history hb events s
  have halike := alike_filter b s events
  refine ⟨hs.length_queue_le s, fun _ _ => mem_due_iff, ascending_due b s events, hflows.taken,
    fun hd => ⟨hflows.waiting hd, ?_, hs.receive_eq hi hd⟩, halike.taken, halike.entry⟩
  rw [poll_eq]

/-- Two subscribers of one session. The first is dropped with an update in its queue; the
second misses an update with its queue full and another one when it is cancelled. -/
def crowded : List (Event Nat) :=
  [.subscribe "cart", .subscribe "cart", .broadcast "cart" 1, .act ⟨"cart", 1⟩ .tryReceive,
    .broadcast "cart" 2, .act ⟨"cart", 2⟩ .cancel, .act ⟨"cart", 2⟩ .tryReceive,
    .broadcast "cart" 3, .act ⟨"cart", 1⟩ .drop]

theorem subscribers_receive_what_is_due_crowded :
    let h := history 1 crowded
    1 ≤ 1 ∧ due 1 ⟨"cart", 1⟩ crowded = [(2, 1), (4, 2)] ∧ h.takenBy ⟨"cart", 1⟩ <+: [1, 2] ∧
      [1] = h.takenBy ⟨"cart", 2⟩ ++ h.feed.queue ⟨"cart", 2⟩ ∧
      (h.feed.receive ⟨"cart", 2⟩).1 = .ended ∧ h.feed.hasSubscribers "cart" = true := by
  have hrun := subscribers_receive_what_is_due 1 (Nat.le_refl 1) crowded
  have hfirst : due 1 ⟨"cart", 1⟩ crowded = [(2, 1), (4, 2)] := by decide +kernel
  have hsecond : due 1 ⟨"cart", 2⟩ crowded = [(2, 1)] := by decide +kernel
  have hissued : (history 1 crowded).issued = [⟨"cart", 1⟩, ⟨"cart", 2⟩] := by decide +kernel
  have hdropped : (history 1 crowded).dropped = [⟨"cart", 1⟩] := by decide +kernel
  have hcancelled : (history 1 crowded).cancelled = [⟨"cart", 2⟩] := by decide +kernel
  obtain ⟨_, hone, _, htable⟩ := hrun
  rw [hissued] at hone htable
  rw [hdropped] at hone htable
  obtain ⟨_, _, _, htaken, _⟩ := hone ⟨"cart", 1⟩ (by decide)
  obtain ⟨_, _, _, _, hthere, _⟩ := hone ⟨"cart", 2⟩ (by decide)
  obtain ⟨hflow, _, hreceive⟩ := hthere (by decide)
  rw [hfirst] at htaken
  rw [hsecond] at hflow
  rw [hcancelled] at hreceive
  exact ⟨Nat.le_refl 1, hfirst, htaken, hflow, hreceive,
    (htable "cart").2 ⟨⟨"cart", 2⟩, by decide, by decide, rfl⟩⟩

end HeapTelemetry.Feed
