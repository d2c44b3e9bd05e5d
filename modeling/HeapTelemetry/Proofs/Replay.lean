import HeapTelemetry.Proofs.Storage.Arrival
import HeapTelemetry.Proofs.Windows

/-! Windows of measurements as they arrived, beside the windows of what is read back
of them. Both are the same where the measurements that the windows can hold arrived
in order, and as long as the windows hold everything they are the same only then. -/

namespace HeapTelemetry

namespace Measurement

/-- Measurements at instants that can be stored, in which no id stands twice at one
instant and none for two call stacks. -/
structure Coherent (ms : List Measurement) : Prop where
  dated : Dated ms
  once : ∀ time, ((locationsAt ms time).map fun l => l.stack.id).Nodup
  distinct : DistinctIds ms

/-- The latest measurements are steady and later than the others. They fill the
windows, or nothing else has locations. -/
def Settled (capacity : Nat) (ms : List Measurement) : Prop :=
  ∃ early late, ms = early ++ late ∧ Steady late ∧
    (∀ e ∈ early, e.locations ≠ [] → ∀ m ∈ late, e.time < m.time) ∧
    ((∀ e ∈ early, e.locations = []) ∨ max capacity 1 ≤ late.length)

theorem Steady.settled {ms : List Measurement} (h : Steady ms) (capacity : Nat) :
    Settled capacity ms :=
  ⟨[], ms, rfl, h, fun _ he => absurd he List.not_mem_nil,
    Or.inl fun _ he => absurd he List.not_mem_nil⟩

/-! ## Call-sites of what is read back -/

theorem site?_eq_some_iff {m : Measurement} (h : m.Unrepeated) {id : String} {l : Location} :
    m.site? id = some l ↔ l ∈ m.locations ∧ l.stack.id = id := by
  constructor
  · intro hl
    exact ⟨List.mem_of_find?_eq_some hl, by simpa using List.find?_some hl⟩
  · rintro ⟨hl, hid⟩
    cases hsite : m.site? id with
    | none => exact absurd (List.mem_map.2 ⟨l, hl, hid⟩) (site?_eq_none_iff.1 hsite)
    | some l' =>
      have hid' : l'.stack.id = id := by simpa using List.find?_some hsite
      exact congrArg some
        (List.inj_on_of_nodup_map h (List.mem_of_find?_eq_some hsite) hl (hid'.trans hid.symm))

/-- Measurements that match give the same points. -/
theorem Matches.site? {a b : Measurement} (h : Matches a b) (ha : a.Unrepeated) (id : String) :
    a.site? id = b.site? id := by
  have hb : b.Unrepeated := (h.2.map _).nodup_iff.1 ha
  apply Option.ext
  intro l
  rw [site?_eq_some_iff ha, site?_eq_some_iff hb, h.2.mem_iff]

theorem Matches.point {a b : Measurement} (h : Matches a b) (ha : a.Unrepeated) (id : String) :
    a.point id = b.point id := by
  rw [Measurement.point, Measurement.point, h.1, h.site? ha]

theorem points_of_matches {xs ys : List Measurement} (h : List.Forall₂ Matches xs ys)
    (hxs : ∀ m ∈ xs, m.Unrepeated) (id : String) : xs.map (point id) = ys.map (point id) := by
  induction h with
  | nil => rfl
  | cons hab _ ih =>
    obtain ⟨ha, hxs⟩ := List.forall_mem_cons.1 hxs
    rw [List.map_cons, List.map_cons, hab.point ha, ih hxs]

theorem history_of_matches {xs ys : List Measurement} (h : List.Forall₂ Matches xs ys)
    (hxs : ∀ m ∈ xs, m.Unrepeated) (id : String) : history id xs = history id ys := by
  induction h with
  | nil => rfl
  | @cons a b xs ys hab hrest ih =>
    obtain ⟨ha, hrests⟩ := List.forall_mem_cons.1 hxs
    rw [history, history, List.dropWhile_cons, List.dropWhile_cons, hab.site? ha]
    split
    · exact ih hrests
    · exact points_of_matches (.cons hab hrest) hxs id

theorem stack?_isSome_iff {id : String} {ms : List Measurement} :
    (stack? id ms).isSome ↔ ∃ stack ∈ callStacks ms, stack.id = id := by
  rw [stack?, Option.isSome_map, List.isSome_findSome?, List.any_eq_true]
  constructor
  · rintro ⟨m, hm, hsite⟩
    obtain ⟨l, hl⟩ := Option.isSome_iff_exists.1 hsite
    refine ⟨l.stack, List.mem_flatMap.2 ⟨m, hm, List.mem_map_of_mem ?_⟩, ?_⟩
    · exact List.mem_of_find?_eq_some hl
    · simpa using List.find?_some hl
  · rintro ⟨stack, hstack, hid⟩
    obtain ⟨m, hm, hstack⟩ := List.mem_flatMap.1 hstack
    obtain ⟨l, hl, rfl⟩ := List.mem_map.1 hstack
    refine ⟨m, hm, Option.isSome_iff_ne_none.2 fun hnone => ?_⟩
    exact site?_eq_none_iff.1 hnone (List.mem_map.2 ⟨l, hl, hid⟩)

theorem mem_callStacks_of_stack? {id : String} {ms : List Measurement} {stack : CallStack}
    (h : stack? id ms = some stack) : stack ∈ callStacks ms ∧ stack.id = id := by
  obtain ⟨l, hl, rfl⟩ := Option.map_eq_some_iff.1 h
  obtain ⟨m, hm, hl⟩ := List.exists_of_findSome?_eq_some hl
  exact ⟨List.mem_flatMap.2 ⟨m, hm, List.mem_map_of_mem (List.mem_of_find?_eq_some hl)⟩,
    by simpa using List.find?_some hl⟩

theorem stack?_eq_some_iff {id : String} {ms : List Measurement} (h : DistinctIds ms)
    {stack : CallStack} : stack? id ms = some stack ↔ stack ∈ callStacks ms ∧ stack.id = id := by
  refine ⟨mem_callStacks_of_stack?, fun ⟨hstack, hid⟩ => ?_⟩
  obtain ⟨first, hfirst⟩ := Option.isSome_iff_exists.1 (stack?_isSome_iff.2 ⟨stack, hstack, hid⟩)
  obtain ⟨hmem, hid'⟩ := mem_callStacks_of_stack? hfirst
  rw [hfirst, h first hmem stack hstack (hid'.trans hid.symm)]

theorem mem_callStacks_iff {ms : List Measurement} (hd : Dated ms) {stack : CallStack} :
    stack ∈ callStacks ms ↔ ∃ time, ∃ l ∈ locationsAt ms time, l.stack = stack := by
  constructor
  · intro hstack
    obtain ⟨m, hm, hstack⟩ := List.mem_flatMap.1 hstack
    obtain ⟨l, hl, rfl⟩ := List.mem_map.1 hstack
    exact ⟨m.time, l, mem_locationsAt.2 ⟨m, hm, hd m hm, hl⟩, rfl⟩
  · rintro ⟨time, l, hl, rfl⟩
    obtain ⟨m, hm, _, hl⟩ := mem_locationsAt.1 hl
    exact List.mem_flatMap.2 ⟨m, hm, List.mem_map_of_mem hl⟩

theorem Reassembled.mem_callStacks {ms out : List Measurement} (h : Reassembled ms out)
    (hd : Dated ms) {stack : CallStack} : stack ∈ callStacks out ↔ stack ∈ callStacks ms := by
  rw [mem_callStacks_iff hd, mem_callStacks_iff h.steady.dated]
  simp only [(h.locations _).mem_iff]

theorem Coherent.unrepeated {ms : List Measurement} (h : Coherent ms) :
    ∀ m ∈ ms, m.Unrepeated := by
  intro m hm
  have hmem : m ∈ ms.filter (·.observedAt.nanos? = some m.time) :=
    List.mem_filter.2 ⟨hm, decide_eq_true (h.dated m hm)⟩
  have hsub : m.locations.Sublist (locationsAt ms m.time) := by
    rw [locationsAt, List.flatMap_def]
    exact List.sublist_flatten_of_mem (List.mem_map_of_mem hmem)
  exact (h.once m.time).sublist (hsub.map _)

theorem Coherent.of_perm {ms ms' : List Measurement} (h : Coherent ms) (hperm : ms.Perm ms') :
    Coherent ms' where
  dated m hm := h.dated m (hperm.mem_iff.2 hm)
  once time := ((((hperm.filter _).flatMap_right _).map _).nodup_iff).1 (h.once time)
  distinct a ha b hb := h.distinct a ((hperm.flatMap_right _).mem_iff.2 ha) b
    ((hperm.flatMap_right _).mem_iff.2 hb)

/-- What is read back is as coherent as what arrived. -/
theorem Coherent.reassembled {ms out : List Measurement} (h : Coherent ms)
    (hout : Reassembled ms out) : Coherent out where
  dated := hout.steady.dated
  once time := ((hout.locations time).map _).nodup_iff.2 (h.once time)
  distinct a ha b hb :=
    h.distinct a ((hout.mem_callStacks h.dated).1 ha) b ((hout.mem_callStacks h.dated).1 hb)

/-- The points of a call stack have ascending times, so it has one location at most at
each. -/
theorem nodup_callStacks_locationsAt {ms : List Measurement} (hd : Dated ms)
    (h : ∀ stack, (track ms stack).points.Pairwise (·.1 < ·.1)) (time : Int64) :
    ((locationsAt ms time).map Location.stack).Nodup := by
  rw [List.nodup_iff_count_le_one]
  intro stack
  have hcount : ((locationsAt ms time).map Location.stack).count stack =
      ((track ms stack).points.filter (·.1 = time)).length := by
    rw [← List.length_map (fun p : Int64 × Usage => (⟨stack, p.2⟩ : Location)),
      track_at hd, List.count_eq_length_filter, List.filter_map, List.length_map]
    rfl
  have hascending := (h stack).filter fun p => p.1 = time
  have htime : ∀ p ∈ (track ms stack).points.filter (·.1 = time), p.1 = time := fun p hp =>
    of_decide_eq_true (List.mem_filter.1 hp).2
  rw [hcount]
  generalize (track ms stack).points.filter (·.1 = time) = found at hascending htime ⊢
  match found with
  | [] => exact Nat.zero_le 1
  | [p] => exact Nat.le_refl 1
  | p :: q :: rest =>
    have hlt : p.1 < q.1 := (List.pairwise_cons.1 hascending).1 q List.mem_cons_self
    rw [htime p List.mem_cons_self, htime q (List.mem_cons_of_mem p List.mem_cons_self)] at hlt
    exact absurd hlt Int64.lt_irrefl

theorem coherent_of_ascending {ms : List Measurement} (hd : Dated ms)
    (h : ∀ stack, (track ms stack).points.Pairwise (·.1 < ·.1)) (hids : DistinctIds ms) :
    Coherent ms := by
  refine ⟨hd, fun time => ?_, hids⟩
  have hsplit : (locationsAt ms time).map (fun l => l.stack.id) =
      ((locationsAt ms time).map Location.stack).map CallStack.id := by
    rw [List.map_map]
    rfl
  have hmem : ∀ stack ∈ (locationsAt ms time).map Location.stack, stack ∈ callStacks ms := by
    intro stack hstack
    obtain ⟨l, hl, rfl⟩ := List.mem_map.1 hstack
    exact (mem_callStacks_iff hd).2 ⟨time, l, hl, rfl⟩
  rw [hsplit]
  exact (nodup_callStacks_locationsAt hd h time).map_on fun a ha b hb hab =>
    hids a (hmem a ha) b (hmem b hb) hab

/-- The same call-sites are met in what arrived and in what is read back. -/
theorem Coherent.stack?_eq {ms out : List Measurement} (h : Coherent ms)
    (hout : Reassembled ms out) (id : String) : stack? id out = stack? id ms := by
  apply Option.ext
  intro stack
  rw [stack?_eq_some_iff h.distinct, stack?_eq_some_iff (h.reassembled hout).distinct,
    hout.mem_callStacks h.dated]

theorem rtake_append {α : Type} {n : Nat} (xs : List α) {ys : List α} (h : n ≤ ys.length) :
    (xs ++ ys).rtake n = ys.rtake n := by
  have hlength : (xs ++ ys).length - n = xs.length + (ys.length - n) := by
    rw [List.length_append]
    omega
  rw [List.rtake, List.rtake, hlength, List.drop_length_add_append]

theorem rtake_of_length_le {α : Type} {n : Nat} {xs : List α} (h : xs.length ≤ n) :
    xs.rtake n = xs := by
  rw [List.rtake, Nat.sub_eq_zero_of_le h, List.drop_zero]

/-- Of settled measurements the windows hold the same points on both ways. -/
theorem Coherent.history_eq {capacity : Nat} {ms out : List Measurement} (h : Coherent ms)
    (hout : Reassembled ms out) (hs : Settled capacity ms) (id : String) :
    (history id ms).rtake (max capacity 1) = (history id out).rtake (max capacity 1) := by
  obtain ⟨early, late, rfl, hlate, hbefore, hfill⟩ := hs
  obtain ⟨hearly, _⟩ := List.forall_mem_append.1 h.dated
  obtain ⟨_, hunrepeated⟩ := List.forall_mem_append.1 h.unrepeated
  obtain ⟨earlyOut, lateOut, rfl, hearlyOut, hmatches⟩ := hout.exists_parts hearly hlate hbefore
  have hmet : (stack? id earlyOut).isSome ↔ (stack? id early).isSome := by
    simp only [stack?_isSome_iff, hearlyOut.mem_callStacks hearly]
  rw [history_append, history_append]
  by_cases hstack : (stack? id early).isSome
  · rw [if_pos hstack, if_pos (hmet.2 hstack)]
    rcases hfill with hnone | hfill
    · obtain ⟨stack, hstack, _⟩ := stack?_isSome_iff.1 hstack
      obtain ⟨e, he, hstack⟩ := List.mem_flatMap.1 hstack
      rw [hnone e he] at hstack
      cases hstack
    · have hlength : late.length = lateOut.length := hmatches.length_eq
      rw [rtake_append _ (by rwa [List.length_map]),
        rtake_append _ (by rwa [List.length_map, ← hlength]), points_of_matches hmatches hunrepeated]
  · rw [if_neg hstack, if_neg (mt hmet.1 hstack), history_of_matches hmatches hunrepeated]

end Measurement

/-! ## Agreement -/

namespace SessionWindows
open Measurement
variable {capacity : Nat} {ms out : List Measurement}

/-- The windows that are read back are those of the measurements as they arrived. -/
theorem get?_of_settled (h : Coherent ms) (hout : Reassembled ms out) (hs : Settled capacity ms)
    (id : String) : (replayed capacity ms).sites.get? id = (replayed capacity out).sites.get? id := by
  rw [get?_replayed capacity h.unrepeated, get?_replayed capacity (h.reassembled hout).unrepeated,
    h.history_eq hout hs, h.stack?_eq hout]

theorem compute_of_settled (h : Coherent ms) (hout : Reassembled ms out) (hs : Settled capacity ms) :
    (replayed capacity ms).compute = (replayed capacity out).compute :=
  compute_congr (nodup_keys_replayed _ _) (nodup_keys_replayed _ _) (get?_of_settled h hout hs)

/-- However measurements are read back, the report is the same. -/
theorem compute_of_reassembled (capacity : Nat) {out' : List Measurement} (h : Coherent ms)
    (hout : Reassembled ms out) (hout' : Reassembled ms out') :
    (replayed capacity out').compute = (replayed capacity out).compute :=
  (compute_of_settled (h.reassembled hout) (hout.again hout') (hout.steady.settled capacity)).symm

theorem points?_replayed (capacity : Nat) {ms : List Measurement} (h : Coherent ms)
    {stack : CallStack} (hstack : stack ∈ callStacks ms) :
    (replayed capacity ms).points? stack = some ((history stack.id ms).rtake (max capacity 1)) := by
  rw [points?, get?_replayed capacity h.unrepeated,
    (stack?_eq_some_iff h.distinct).2 ⟨hstack, rfl⟩]
  rfl

/-- A report has an entry for every call stack, from the window of its id. -/
theorem mem_compute_replayed (capacity : Nat) (h : Coherent ms) {r : SiteRates} :
    r ∈ (replayed capacity ms).compute ↔ ∃ stack ∈ callStacks ms, r = Window.rates
      ⟨stack, max capacity 1, (history stack.id ms).rtake (max capacity 1)⟩ := by
  have hwindow := get?_replayed capacity h.unrepeated
  rw [mem_compute]
  constructor
  · rintro ⟨⟨id, window⟩, hmem, rfl⟩
    have hget := (Table.mem_iff_get? (nodup_keys_replayed capacity ms) id window).1 hmem
    rw [hwindow, Option.map_eq_some_iff] at hget
    obtain ⟨stack, hfirst, rfl⟩ := hget
    obtain ⟨hstack, rfl⟩ := (stack?_eq_some_iff h.distinct).1 hfirst
    exact ⟨stack, hstack, rfl⟩
  · rintro ⟨stack, hstack, rfl⟩
    refine ⟨(stack.id, _), Table.mem_of_get? ?_, rfl⟩
    rw [hwindow, (stack?_eq_some_iff h.distinct).2 ⟨hstack, rfl⟩]
    rfl

/-- If the instants at which measurements arrived are, in their order, instants at which
something is read back, then these measurements are steady. -/
theorem steady_of_sublist (h : Coherent ms) (hout : Reassembled ms out) {late : List Measurement}
    (hall : ∀ m ∈ ms, m.locations ≠ [] → m ∈ late)
    (hsub : (late.map Measurement.observedAt).Sublist (out.map Measurement.observedAt)) :
    Steady late := by
  have hread : ∀ m ∈ late, ∃ o ∈ out, o.observedAt = m.observedAt ∧ o.time = m.time := by
    intro m hm
    obtain ⟨o, ho, hobserved⟩ := List.mem_map.1 (hsub.subset (List.mem_map_of_mem hm))
    exact ⟨o, ho, hobserved, by rw [time, time, hobserved]⟩
  have hwhole : ∀ m ∈ late, m.observedAt = Timestamp.ofNanos m.time := by
    intro m hm
    obtain ⟨o, ho, hobserved, htime⟩ := hread m hm
    rw [← hobserved, ← htime]
    exact hout.timed o ho
  have hascending : late.Pairwise (·.time < ·.time) := by
    have hbefore := (List.pairwise_map.2 hout.ascending).sublist hsub
    refine (List.pairwise_map.1 hbefore).imp_of_mem fun {a b} ha hb hlt => ?_
    rw [hwhole a ha, hwhole b hb] at hlt
    exact Timestamp.before_ofNanos_iff.1 hlt
  refine ⟨fun m hm => ?_, hwhole, hascending⟩
  -- Something is read back at the instant, so a located measurement arrived at it, and
  -- of the late ones only this one did.
  obtain ⟨o, ho, _, htime⟩ := hread m hm
  have hne : locationsAt ms m.time ≠ [] :=
    (hout.mem_times _).1 (List.mem_map.2 ⟨o, ho, htime⟩)
  obtain ⟨l, hl⟩ := List.exists_mem_of_ne_nil _ hne
  obtain ⟨m', hm', hnanos, hl⟩ := mem_locationsAt.1 hl
  rw [h.dated m' hm'] at hnanos
  have hm'late := hall m' hm' (List.ne_nil_of_mem hl)
  have hsame : m' = m :=
    List.inj_on_of_nodup_map (nodup_times hascending) hm'late hm (Option.some.inj hnanos)
  exact hsame ▸ List.ne_nil_of_mem hl

/-- The measurements without a location that stand before all others. -/
theorem exists_unlocated_prefix (ms : List Measurement) : ∃ early late, ms = early ++ late ∧
    (∀ e ∈ early, e.locations = []) ∧ ∀ m ∈ late.head?, m.locations ≠ [] := by
  refine ⟨ms.takeWhile (·.locations.isEmpty), ms.dropWhile (·.locations.isEmpty),
    List.takeWhile_append_dropWhile.symm, fun e he => ?_, fun m hm hnil => ?_⟩
  · simpa using List.mem_takeWhile_imp he
  · have hhead := List.head?_dropWhile_not (fun m : Measurement => m.locations.isEmpty) ms
    rw [Option.mem_def.1 hm] at hhead
    simp [hnil] at hhead

/-- A site that is met first has a point for every measurement since. -/
theorem history_of_first {early rest : List Measurement} {first : Measurement} {l : Location}
    (hearly : ∀ e ∈ early, e.locations = []) (hfirst : first.Unrepeated)
    (hl : l ∈ first.locations) :
    history l.stack.id (early ++ first :: rest) = (first :: rest).map (point l.stack.id) := by
  have hnone : ¬ (stack? l.stack.id early).isSome := by
    rw [stack?_isSome_iff]
    rintro ⟨stack, hstack, _⟩
    obtain ⟨e, he, hstack⟩ := List.mem_flatMap.1 hstack
    rw [hearly e he] at hstack
    cases hstack
  have hsite : (first.site? l.stack.id).isNone = false := by
    rw [(site?_eq_some_iff hfirst).2 ⟨hl, rfl⟩]
    rfl
  rw [history_append, if_neg hnone, history, List.dropWhile_cons, hsite]
  rfl

/-- The points of a site stand at instants of the measurements, in their order. -/
theorem times_history_sublist (id : String) (ms : List Measurement) :
    ((history id ms).map Point.time).Sublist (ms.map Measurement.observedAt) := by
  have htimes : (history id ms).map Point.time =
      (ms.dropWhile fun m => (m.site? id).isNone).map Measurement.observedAt := by
    rw [history, List.map_map]
    rfl
  exact htimes ▸ (List.dropWhile_sublist _).map _

/-- Windows that hold everything agree on measurements that are settled, and on no
others. -/
theorem settled_of_points? (h : Coherent ms) (hout : Reassembled ms out)
    (hcapacity : ms.length ≤ max capacity 1)
    (hpoints : ∀ stack,
      (replayed capacity ms).points? stack = (replayed capacity out).points? stack) :
    Settled capacity ms := by
  obtain ⟨early, late, rfl, hearly, hlate⟩ := exists_unlocated_prefix ms
  refine ⟨early, late, rfl, ?_, fun e he hne => absurd (hearly e he) hne, Or.inl hearly⟩
  cases late with
  | nil => exact ⟨fun _ hm => (List.not_mem_nil hm).elim, fun _ hm => (List.not_mem_nil hm).elim,
      List.Pairwise.nil⟩
  | cons first rest =>
    have hfirst : first ∈ early ++ first :: rest :=
      List.mem_append_right _ List.mem_cons_self
    refine steady_of_sublist h hout (fun m hm hne => ?_) ?_
    · exact (List.mem_append.1 hm).resolve_left fun hm => hne (hearly m hm)
    -- A window of the site that is met first shows all instants since.
    obtain ⟨l, hl⟩ := List.exists_mem_of_ne_nil _ (hlate first rfl)
    have hstack : l.stack ∈ callStacks (early ++ first :: rest) :=
      List.mem_flatMap.2 ⟨first, hfirst, List.mem_map_of_mem hl⟩
    have hlength : ((first :: rest).map (point l.stack.id)).length ≤ max capacity 1 := by
      rw [List.length_map]
      rw [List.length_append] at hcapacity
      exact Nat.le_trans (Nat.le_add_left _ _) hcapacity
    have hsame := hpoints l.stack
    rw [points?_replayed capacity h hstack, points?_replayed capacity (h.reassembled hout)
      ((hout.mem_callStacks h.dated).2 hstack), Option.some.injEq,
      history_of_first hearly (h.unrepeated first hfirst) hl, rtake_of_length_le hlength] at hsame
    have htimes : (first :: rest).map Measurement.observedAt =
        ((first :: rest).map (point l.stack.id)).map Point.time := by
      rw [List.map_map]
      rfl
    have hlatest : ((history l.stack.id out).rtake (max capacity 1)).Sublist _ :=
      List.drop_sublist _ _
    rw [htimes, hsame]
    exact (hlatest.map _).trans (times_history_sublist _ _)

end SessionWindows
end HeapTelemetry
