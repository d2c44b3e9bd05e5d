import HeapTelemetry.Proofs.FileReplay

/-! Windows that fill in what a measurement leaves out. Whatever a session is offered and
asked for, the window of a call-site is cut from one list: the points of the accepted
measurements from the first that names the site. -/

namespace HeapTelemetry

/-! ## The first measurement that names a call-site -/

namespace Measurement

theorem isSome_stack? (id : String) (ms : List Measurement) :
    (stack? id ms).isSome = (ms.findIdx? fun m => (m.site? id).isSome).isSome := by
  rw [stack?, Option.isSome_map, List.isSome_findSome?, List.findIdx?_isSome]

/-- A history starts at the place of that measurement. -/
theorem history_eq_drop {id : String} {ms : List Measurement} {first : Nat}
    (h : ms.findIdx? (fun m => (m.site? id).isSome) = some first) :
    history id ms = (ms.drop first).map (point id) := by
  induction ms generalizing first with
  | nil => cases h
  | cons m ms ih =>
    rw [List.findIdx?_cons] at h
    cases hsite : m.site? id with
    | some l =>
      rw [hsite] at h
      cases h
      rw [history, List.dropWhile_cons, hsite]
      rfl
    | none =>
      rw [hsite] at h
      obtain ⟨place, hplace, rfl⟩ := Option.map_eq_some_iff.1 h
      have hskip : history id (m :: ms) = history id ms := by
        rw [history, List.dropWhile_cons, hsite]
        rfl
      rw [hskip, ih hplace]
      rfl

end Measurement

namespace SessionWindows
open Measurement

/-! ## What is refused -/

theorem go_eq_some {seen ids : List String} {id : String} (h : repeated?.go seen ids = some id) :
    id ∈ ids ∧ (id ∈ seen ∨ 1 < ids.count id) := by
  induction ids generalizing seen with
  | nil => cases h
  | cons next rest ih =>
    rw [repeated?.go] at h
    split at h
    case isTrue hseen =>
      cases h
      exact ⟨List.mem_cons_self, Or.inl hseen⟩
    case isFalse hseen =>
      obtain ⟨hrest, hid⟩ := ih h
      refine ⟨List.mem_cons_of_mem _ hrest, ?_⟩
      have hcount : 0 < rest.count id := List.count_pos_iff.2 hrest
      by_cases hnext : next = id
      · subst hnext
        rw [List.count_cons_self]
        exact Or.inr (Nat.succ_lt_succ hcount)
      · rw [List.count_cons_of_ne hnext]
        exact hid.imp_left fun hmem => (List.mem_cons.1 hmem).resolve_left (Ne.symm hnext)

/-- The error names an id that the measurement has more than once. -/
theorem register_eq_error {w : SessionWindows} {m : Measurement} {e : Error}
    (h : w.register m = .error e) : ∃ id, e = .repeatedCallStack m.observedAt.display id ∧
      1 < (m.locations.map fun l => l.stack.id).count id := by
  rw [register] at h
  cases hids : repeated? (m.locations.map fun l => l.stack.id) with
  | none =>
    rw [hids] at h
    cases h
  | some id =>
    rw [hids] at h
    cases h
    obtain ⟨_, hseen | hcount⟩ := go_eq_some hids
    · cases hseen
    · exact ⟨id, rfl, hcount⟩

/-! ## Windows in use -/

/-- What is done with the windows of a session. -/
inductive Use where
  | offer (m : Measurement)
  | report

def Use.offered? : Use → Option Measurement
  | .offer m => some m
  | .report => none

/-- Windows in use, and what they have accepted so far. -/
structure Course where
  windows : SessionWindows
  accepted : List Measurement

namespace Course

def started (capacity : Nat) : Course := ⟨.empty capacity, []⟩

def use (c : Course) : Use → Course
  | .offer m =>
    match c.windows.register m with
    | .ok windows => ⟨windows, c.accepted ++ [m]⟩
    | .error _ => c
  | .report => { c with windows := c.windows.metrics.2 }

def useAll (c : Course) (uses : List Use) : Course := uses.foldl use c

theorem useAll_concat (c : Course) (uses : List Use) (u : Use) :
    c.useAll (uses ++ [u]) = (c.useAll uses).use u := by
  rw [useAll, List.foldl_append]
  rfl

theorem use_unrepeated (c : Course) {m : Measurement} (h : m.Unrepeated) :
    c.use (.offer m) = ⟨c.windows.taking m, c.accepted ++ [m]⟩ := by
  obtain ⟨w, hw⟩ := register_unrepeated c.windows h
  rw [use, taking, hw]

theorem use_repeated (c : Course) {m : Measurement} (h : ¬ m.Unrepeated) :
    c.use (.offer m) = c := by
  obtain ⟨e, he⟩ := register_repeated c.windows h
  rw [use, he]

theorem accepted_use (c : Course) (u : Use) :
    (c.use u).accepted = c.accepted ++ u.offered?.toList.filter (Unrepeated ·) := by
  cases u with
  | report => exact (List.append_nil _).symm
  | offer m =>
    by_cases hm : m.Unrepeated
    · rw [use_unrepeated c hm]
      simp [Use.offered?, hm]
    · rw [use_repeated c hm]
      simp [Use.offered?, hm]

/-- Accepted is what was offered, less what names a call stack twice. -/
theorem accepted_after (c : Course) (uses : List Use) : (c.useAll uses).accepted =
    c.accepted ++ (uses.filterMap Use.offered?).filter (Unrepeated ·) := by
  induction uses using List.reverseRecOn with
  | nil => exact (List.append_nil _).symm
  | append_singleton uses u ih =>
    rw [useAll_concat, accepted_use, ih, List.filterMap_append, List.filter_append,
      List.append_assoc]
    cases u <;> rfl

theorem accepted_useAll (capacity : Nat) (uses : List Use) :
    ((started capacity).useAll uses).accepted =
      (uses.filterMap Use.offered?).filter (Unrepeated ·) :=
  accepted_after (started capacity) uses

/-- The windows are those of the accepted measurements alone, with their report or
without one. -/
structure Filled (capacity : Nat) (c : Course) : Prop where
  unrepeated : ∀ m ∈ c.accepted, m.Unrepeated
  mirrors : Mirrors c.windows (replayed capacity c.accepted)

theorem filled_started (capacity : Nat) : Filled capacity (started capacity) :=
  ⟨fun _ hm => absurd hm List.not_mem_nil, Mirrors.refl rfl⟩

theorem Filled.use {capacity : Nat} {c : Course} (h : Filled capacity c) (u : Use) :
    Filled capacity (c.use u) := by
  cases u with
  | report => exact ⟨h.unrepeated, h.mirrors.metrics.2⟩
  | offer m =>
    by_cases hm : m.Unrepeated
    · have hmirrors := h.mirrors.taking m
      rw [← replayed_concat] at hmirrors
      rw [use_unrepeated c hm]
      exact ⟨List.forall_mem_append.2 ⟨h.unrepeated, List.forall_mem_singleton.2 hm⟩, hmirrors⟩
    · rw [use_repeated c hm]
      exact h

theorem Filled.useAll {capacity : Nat} {c : Course} (h : Filled capacity c) (uses : List Use) :
    Filled capacity (c.useAll uses) := by
  induction uses generalizing c with
  | nil => exact h
  | cons u uses ih => exact ih (h.use u)

end Course

/-! ## What filled windows hold -/

theorem measurements_replayed (capacity : Nat) {ms : List Measurement}
    (h : ∀ m ∈ ms, m.Unrepeated) : (replayed capacity ms).measurements = ms.length := by
  induction ms using List.reverseRecOn with
  | nil => rfl
  | append_singleton ms m ih =>
    obtain ⟨hms, hm⟩ := List.forall_mem_append.1 h
    rw [replayed_concat, taking_unrepeated _ (hm m List.mem_cons_self), List.length_append]
    simp only [ih hms, List.length_singleton]

theorem lastObservedAt_replayed (capacity : Nat) {ms : List Measurement}
    (h : ∀ m ∈ ms, m.Unrepeated) :
    (replayed capacity ms).lastObservedAt = ms.getLast?.map Measurement.observedAt := by
  induction ms using List.reverseRecOn with
  | nil => rfl
  | append_singleton ms m =>
    obtain ⟨_, hm⟩ := List.forall_mem_append.1 h
    rw [replayed_concat, taking_unrepeated _ (hm m List.mem_cons_self), List.getLast?_concat]
    rfl

/-- A site has a window from the first measurement that names it, and in it the latest
points since then. -/
theorem window_replayed (capacity : Nat) {ms : List Measurement} (h : ∀ m ∈ ms, m.Unrepeated)
    (id : String) : ((replayed capacity ms).sites.get? id).map Window.points =
      (ms.findIdx? fun m => (m.site? id).isSome).map fun first =>
        ((ms.drop first).map (point id)).rtake (max capacity 1) := by
  have hmet := isSome_stack? id ms
  rw [get?_replayed capacity h]
  cases hfirst : ms.findIdx? fun m => (m.site? id).isSome with
  | none =>
    rw [hfirst, Option.isSome_none, Option.isSome_eq_false_iff, Option.isNone_iff_eq_none] at hmet
    rw [hmet]
    rfl
  | some first =>
    rw [hfirst] at hmet
    obtain ⟨stack, hstack⟩ := Option.isSome_iff_exists.1 hmet
    rw [hstack, Option.map_some, Option.map_some, Option.map_some, ← history_eq_drop hfirst]

/-- The times of a window are the latest ones of what was accepted. -/
theorem times_suffix (capacity : Nat) {ms : List Measurement} (h : ∀ m ∈ ms, m.Unrepeated)
    {id : String} {window : Window} (hw : (replayed capacity ms).sites.get? id = some window) :
    window.points.map Point.time <:+ ms.map Measurement.observedAt := by
  have hpoints := window_replayed capacity h id
  rw [hw, Option.map_some] at hpoints
  obtain ⟨first, _, hpoints⟩ := Option.map_eq_some_iff.1 hpoints.symm
  have htimes : ((ms.drop first).map (point id)).map Point.time =
      (ms.drop first).map Measurement.observedAt := by
    rw [List.map_map]
    rfl
  have hkept : ((ms.drop first).map (point id)).rtake (max capacity 1) <:+
      (ms.drop first).map (point id) := List.drop_suffix _ _
  rw [← hpoints]
  exact (hkept.map _).trans (htimes ▸ (List.drop_suffix first ms).map _)

/-- What is counted of the accepted measurements, and the report on them. -/
theorem Course.Filled.counters {capacity : Nat} {c : Course} (h : Course.Filled capacity c) :
    c.windows.sites = (replayed capacity c.accepted).sites ∧
      c.windows.measurements = c.accepted.length ∧
      c.windows.lastObservedAt = c.accepted.getLast?.map Measurement.observedAt ∧
      ∀ report ∈ c.windows.report, report = c.windows.compute := by
  obtain ⟨hunrepeated, report, hwindows, hreport⟩ := h
  have hmeasurements := measurements_replayed capacity hunrepeated
  have hlast := lastObservedAt_replayed capacity hunrepeated
  rw [hwindows]
  exact ⟨rfl, hmeasurements, hlast, hreport⟩

/-- Either a measurement is accepted, or nothing changes and the error says which id it
has more than once. -/
theorem Course.use_offer (c : Course) (m : Measurement) :
    if (m.locations.map fun l => l.stack.id).Nodup
      then (c.use (.offer m)).accepted = c.accepted ++ [m]
      else c.use (.offer m) = c ∧ ∃ id, 1 < (m.locations.map fun l => l.stack.id).count id ∧
        c.windows.register m = .error (.repeatedCallStack m.observedAt.display id) := by
  split
  case isTrue hm =>
    rw [use_unrepeated c hm]
  case isFalse hm =>
    obtain ⟨e, he⟩ := register_repeated c.windows hm
    obtain ⟨id, rfl, hcount⟩ := register_eq_error he
    exact ⟨use_repeated c hm, id, hcount, he⟩

/-- Whatever a session is offered and asked for, the window of a site holds the latest
points since the first accepted measurement that names it, one for each accepted
measurement, and no more than fit in; where a site is left out its point is without usage.
Refused is what names an id twice, and that leaves everything as it is. Windows of
different lengths end with the same times. -/
theorem points_of_accepted (capacity : Nat) (uses : List Use) :
    let c := (Course.started capacity).useAll uses
    c.accepted = (uses.filterMap Use.offered?).filter (Unrepeated ·) ∧
      (∀ id, (c.windows.sites.get? id).map Window.points =
        (c.accepted.findIdx? fun m => (m.site? id).isSome).map fun first =>
          ((c.accepted.drop first).map fun m =>
            (⟨m.observedAt, ((m.site? id).map Location.usage).getD Usage.zero⟩ : Point)).rtake
              (max capacity 1)) ∧
      c.windows.measurements = c.accepted.length ∧
      c.windows.lastObservedAt = c.accepted.getLast?.map Measurement.observedAt ∧
      (∀ report ∈ c.windows.report, report = c.windows.compute) ∧
      (∀ m : Measurement, if (m.locations.map fun l => l.stack.id).Nodup
        then (c.use (.offer m)).accepted = c.accepted ++ [m]
        else c.use (.offer m) = c ∧ ∃ id, 1 < (m.locations.map fun l => l.stack.id).count id ∧
          c.windows.register m = .error (.repeatedCallStack m.observedAt.display id)) ∧
      ∀ id other, ∀ a ∈ c.windows.sites.get? id, ∀ b ∈ c.windows.sites.get? other,
        a.points.map Point.time <:+ b.points.map Point.time ∨
          b.points.map Point.time <:+ a.points.map Point.time := by
  intro c
  have hfilled : Course.Filled capacity c := (Course.filled_started capacity).useAll uses
  obtain ⟨hsites, hmeasurements, hlast, hreport⟩ := hfilled.counters
  refine ⟨Course.accepted_useAll capacity uses, fun id => ?_, hmeasurements, hlast, hreport,
    c.use_offer, fun id other a ha b hb => ?_⟩
  · rw [hsites]
    exact window_replayed capacity hfilled.unrepeated id
  · rw [hsites] at ha hb
    exact List.suffix_or_suffix_of_suffix (times_suffix capacity hfilled.unrepeated ha)
      (times_suffix capacity hfilled.unrepeated hb)

end SessionWindows
end HeapTelemetry
