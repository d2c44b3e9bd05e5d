import HeapTelemetry.Proofs.Storage.Grouping
import HeapTelemetry.Proofs.Storage.Merging
import HeapTelemetry.Proofs.Timestamps

/-! What the stored series of a session read as. If its call stacks have distinct
ids, the series reassemble to the measurements that were stored; if not, the
session cannot be read. -/

namespace HeapTelemetry

namespace Measurement

/-- The time under which a measurement is stored. -/
def time (m : Measurement) : Int64 := m.observedAt.nanos?.getD 0

theorem time_ofNanos (t : Int64) (locations : List Location) :
    (⟨Timestamp.ofNanos t, locations⟩ : Measurement).time = t := by
  rw [time, Timestamp.nanos?_ofNanos]
  rfl

/-- The call stacks that the measurements name. -/
def callStacks (ms : List Measurement) : List CallStack :=
  ms.flatMap fun m => m.locations.map Location.stack

/-- The points of a call stack in a sequence of measurements. -/
def track (ms : List Measurement) (stack : CallStack) : Track where
  stack := stack
  points := ms.flatMap fun m =>
    (m.locations.filter (·.stack = stack)).map fun l => (m.time, l.usage)

/-- The samples that are stored of them. -/
def column (ms : List Measurement) (stack : CallStack) (k : Metric) : List Sample :=
  (track ms stack).points.map fun p => SiteSeries.sample p.1 p.2 k

/-- The locations that are measured at a time. -/
def locationsAt (ms : List Measurement) (time : Int64) : List Location :=
  (ms.filter (·.observedAt.nanos? = some time)).flatMap Measurement.locations

/-- No two call stacks of the measurements share an id. -/
def DistinctIds (ms : List Measurement) : Prop :=
  ∀ a ∈ callStacks ms, ∀ b ∈ callStacks ms, a.id = b.id → a = b

instance (ms : List Measurement) : Decidable (DistinctIds ms) :=
  inferInstanceAs (Decidable (∀ a ∈ callStacks ms, ∀ b ∈ callStacks ms, a.id = b.id → a = b))

end Measurement

/-- What comes back of measurements: at ascending instants the locations that were
measured at each, and no instant without any. -/
structure Measurement.Reassembled (ms out : List Measurement) : Prop where
  ascending : out.Pairwise fun a b => a.observedAt.Before b.observedAt
  inhabited : ∀ m ∈ out, m.locations ≠ []
  timed : ∀ m ∈ out, m.observedAt = Timestamp.ofNanos m.time
  locations : ∀ time, (locationsAt out time).Perm (locationsAt ms time)

/-! ## Tracks and measurements -/

namespace Measurement

variable {ms : List Measurement} (htimes : ∀ m ∈ ms, m.observedAt.nanos? = some m.time)
include htimes

theorem track_at (stack : CallStack) (time : Int64) :
    (((track ms stack).points.filter (·.1 = time)).map fun p => (⟨stack, p.2⟩ : Location)) =
      (locationsAt ms time).filter (·.stack = stack) := by
  induction ms with
  | nil => rfl
  | cons m ms ih =>
    obtain ⟨hm, hms⟩ := List.forall_mem_cons.1 htimes
    have hpoints : (track (m :: ms) stack).points =
        (m.locations.filter (·.stack = stack)).map (fun l => (m.time, l.usage)) ++
          (track ms stack).points := rfl
    have hlocations : locationsAt (m :: ms) time =
        (if m.time = time then m.locations else []) ++ locationsAt ms time := by
      by_cases ht : m.time = time <;> simp [locationsAt, hm, ht]
    have hsame : ∀ l ∈ m.locations.filter (·.stack = stack), (⟨stack, l.usage⟩ : Location) = l := by
      intro l hl
      have hstack : l.stack = stack := by simpa using (List.mem_filter.1 hl).2
      rw [← hstack]
    rw [hpoints, hlocations, List.filter_append, List.map_append, List.filter_append, ih hms]
    congr 1
    by_cases ht : m.time = time
    · rw [if_pos ht, List.filter_map, List.map_map]
      have hall : (m.locations.filter (·.stack = stack)).filter
          ((fun p : Int64 × Usage => decide (p.1 = time)) ∘ fun l => (m.time, l.usage)) =
          m.locations.filter (·.stack = stack) := by
        rw [List.filter_eq_self]
        intro l _
        exact decide_eq_true ht
      rw [hall]
      exact (List.map_congr_left hsame).trans (List.map_id _)
    · rw [if_neg ht, List.filter_map]
      have hnone : (m.locations.filter (·.stack = stack)).filter
          ((fun p : Int64 × Usage => decide (p.1 = time)) ∘ fun l => (m.time, l.usage)) = [] := by
        rw [List.filter_eq_nil_iff]
        intro l _
        simpa using ht
      rw [hnone]
      rfl

/-- At every time the tracks of all call stacks have just the locations that are
measured at it. -/
theorem locationsAt_tracks {order : List CallStack} (hd : order.Nodup)
    (hcover : ∀ stack ∈ callStacks ms, stack ∈ order) (time : Int64) :
    (Track.locationsAt (order.map (track ms)) time).Perm (locationsAt ms time) := by
  have heq : Track.locationsAt (order.map (track ms)) time =
      order.flatMap fun stack => (locationsAt ms time).filter (·.stack = stack) := by
    rw [Track.locationsAt, List.flatMap_map]
    exact List.flatMap_congr fun stack _ => track_at htimes stack time
  rw [heq]
  refine perm_flatMap_filter Location.stack hd fun l hl => hcover _ ?_
  obtain ⟨m, hm, hl⟩ := List.mem_flatMap.1 hl
  exact List.mem_flatMap.2 ⟨m, (List.mem_filter.1 hm).1, List.mem_map_of_mem hl⟩

omit htimes

theorem locationsAt_measurementAt (tracks : List Track) {times : List Int64} (hd : times.Nodup)
    (hcover : ∀ x ∈ tracks, ∀ p ∈ x.points, p.1 ∈ times) (time : Int64) :
    locationsAt (times.map (Track.measurementAt tracks)) time = Track.locationsAt tracks time := by
  have hfilter : (times.map (Track.measurementAt tracks)).filter
      (·.observedAt.nanos? = some time) =
      (times.filter (· = time)).map (Track.measurementAt tracks) := by
    rw [List.filter_map]
    congr 1
    apply List.filter_congr
    intro t _
    simp [Track.measurementAt, Timestamp.nanos?_ofNanos]
  rw [locationsAt, hfilter, List.filter_eq]
  by_cases ht : time ∈ times
  · rw [List.count_eq_one_of_mem hd ht]
    simp [Track.measurementAt]
  · rw [List.count_eq_zero_of_not_mem ht]
    symm
    show Track.locationsAt tracks time = []
    rw [Track.locationsAt, List.flatMap_eq_nil_iff]
    intro x hx
    rw [List.map_eq_nil_iff, List.filter_eq_nil_iff]
    intro p hp heq
    exact ht (of_decide_eq_true heq ▸ hcover x hx p hp)

/-- The merge of the tracks reassembles the measurements. -/
theorem reassembled_of_merge {order : List CallStack} {out : List Measurement}
    (htimes : ∀ m ∈ ms, m.observedAt.nanos? = some m.time) (hd : order.Nodup)
    (hcover : ∀ stack ∈ callStacks ms, stack ∈ order)
    (h : Track.Merge (order.map (track ms)) out) : Reassembled ms out := by
  obtain ⟨times, hascending, hmem, rfl⟩ := h
  have hnodup : times.Nodup := by
    refine hascending.imp ?_
    rintro a _ hlt rfl
    exact Int64.lt_irrefl hlt
  refine ⟨?_, fun m hm => ?_, fun m hm => ?_, fun time => ?_⟩
  · rw [List.pairwise_map]
    exact hascending.imp Timestamp.before_ofNanos_iff.2
  · obtain ⟨t, ht, rfl⟩ := List.mem_map.1 hm
    obtain ⟨x, hx, u, hu⟩ := (hmem t).1 ht
    refine List.ne_nil_of_mem (a := ⟨x.stack, u⟩) (List.mem_flatMap.2 ⟨x, hx, ?_⟩)
    exact List.mem_map.2 ⟨(t, u), List.mem_filter.2 ⟨hu, decide_eq_true rfl⟩, rfl⟩
  · obtain ⟨t, _, rfl⟩ := List.mem_map.1 hm
    rw [Track.measurementAt, time_ofNanos]
  · rw [locationsAt_measurementAt _ hnodup fun x hx p hp => (hmem p.1).2 ⟨x, hx, p.2, hp⟩]
    exact locationsAt_tracks htimes hd hcover time

end Measurement

/-! ## A call-site read back -/

namespace SiteHistory
open SiteSeries

theorem usage_samples (time : Int64) {u : Usage} (h : u.Exact) :
    usage (Metric.all.map (sample time u)) = u := by
  have hcounter : ∀ k, counter (sample time u k).value = k.read u := fun k =>
    Binary64.toInt64_ofInt (h k)
  simp only [usage, Metric.all, List.map_cons, List.map_nil, List.zip_cons_cons, List.zip_nil_right,
    List.foldl_cons, List.foldl_nil, hcounter, Metric.write, Metric.read]

/-- The history of a call-site with these points. -/
def ofPoints (id : String) (stack : CallStack) (points : List (Int64 × Usage)) : SiteHistory :=
  ⟨id, stack, Metric.all.map fun k => points.map fun p => sample p.1 p.2 k⟩

theorem readsAs_ofPoints (id : String) (stack : CallStack) {points : List (Int64 × Usage)}
    (h : ∀ p ∈ points, p.2.Exact) : ReadsAs (ofPoints id stack points) points := by
  induction points with
  | nil => rfl
  | cons p rest ih =>
    obtain ⟨hp, hrest⟩ := List.forall_mem_cons.1 h
    refine ⟨?_, ih hrest⟩
    have husage := usage_samples p.1 hp
    simp only [Metric.all, List.map_cons, List.map_nil] at husage
    simp only [current, ofPoints, Metric.all, List.map_cons, List.map_nil, List.filterMap_cons,
      List.filterMap_nil, List.head?_cons, husage]
    simp [sample]

end SiteHistory

/-! ## A session read back -/

namespace SessionSeries
open Measurement SiteGroup SiteHistory

/-- The series of a session after these measurements, each once. -/
structure Recorded (s : Session) (ms : List Measurement) (found : List Series) : Prop where
  distinct : (found.map Series.labels).Nodup
  mem : ∀ x, x ∈ found ↔ ∃ stack ∈ callStacks ms, ∃ k, x = seriesOf s (column ms) (stack, k)

variable {s : Session} {ms : List Measurement} {found : List Series}

theorem seriesOf_injective {column : CallStack → Metric → List Sample} {e e' : CallStack × Metric}
    (h : seriesOf s column e = seriesOf s column e') : e = e' := by
  obtain ⟨_, hstack, hk⟩ := SiteSeries.labels_injective (congrArg Series.labels h)
  exact Prod.ext hstack hk

/-- The series in terms of their call stacks and metrics. -/
theorem Recorded.entries (h : Recorded s ms found) : ∃ entries : List (CallStack × Metric),
    found = entries.map (seriesOf s (column ms)) ∧ entries.Nodup ∧
      ∀ e : CallStack × Metric, e ∈ entries ↔ e.1 ∈ callStacks ms := by
  obtain ⟨entries, rfl⟩ := exists_map_eq (seriesOf s (column ms)) fun x (hx : x ∈ found) => by
    obtain ⟨stack, _, k, rfl⟩ := (h.mem x).1 hx
    exact ⟨(stack, k), rfl⟩
  refine ⟨entries, rfl, (List.Nodup.of_map _ h.distinct).of_map, fun e => ?_⟩
  constructor
  · intro he
    obtain ⟨stack, hstack, k, heq⟩ := (h.mem _).1 (List.mem_map_of_mem he)
    rw [seriesOf_injective heq]
    exact hstack
  · intro he
    obtain ⟨e', he', heq⟩ := List.mem_map.1 ((h.mem (seriesOf s (column ms) e)).2 ⟨e.1, he, e.2, rfl⟩)
    exact seriesOf_injective heq ▸ he'

theorem nodup_keys_iff {entries : List (CallStack × Metric)} (hd : entries.Nodup)
    (hm : ∀ e : CallStack × Metric, e ∈ entries ↔ e.1 ∈ callStacks ms) :
    (entries.map key).Nodup ↔ DistinctIds ms := by
  constructor
  · intro h a ha b hb hid
    have heq := List.inj_on_of_nodup_map h ((hm (a, .allocBytes)).2 ha) ((hm (b, .allocBytes)).2 hb)
      (Prod.ext hid rfl)
    exact congrArg Prod.fst heq
  · intro h
    refine hd.map_on fun e he e' he' hkey => ?_
    obtain ⟨hid, hk⟩ := Prod.mk.inj hkey
    exact Prod.ext (h e.1 ((hm e).1 he) e'.1 ((hm e').1 he') hid) hk

theorem ofGroup_gathered {entries : List (CallStack × Metric)} {groups : List SiteGroup}
    (h : Gathered (column ms) entries groups)
    (hm : ∀ e : CallStack × Metric, e ∈ entries ↔ e.1 ∈ callStacks ms)
    {g : SiteGroup} (hg : g ∈ groups) :
    ofGroup g = .ok (ofPoints g.id g.stack (track ms g.stack).points) := by
  obtain ⟨hid, k, hk⟩ := h.callStacks g hg
  have hcolumns : Metric.all.mapM g.found.get? = some (Metric.all.map (column ms g.stack)) := by
    apply mapM_eq_some
    intro k' _
    exact (h.found g hg k' _).2 ⟨g.stack, (hm (g.stack, k')).2 ((hm (g.stack, k)).1 hk), hid, rfl⟩
  rw [ofGroup, hcolumns]
  rfl

/-- A session whose call stacks share ids cannot be read. -/
theorem reading_failed (h : Recorded s ms found) (hids : ¬ DistinctIds ms) :
    ∃ k : Metric, reading found = .failed (.duplicateSeries k.name) := by
  obtain ⟨entries, rfl, hd, hm⟩ := h.entries
  rcases gather_cases s (column ms) entries with ⟨hnodup, _⟩ | ⟨_, k, herror⟩
  · exact absurd ((nodup_keys_iff hd hm).1 hnodup) hids
  · refine ⟨k, ?_⟩
    rw [reading, ofSeries, herror]
    rfl

/-- A session whose call stacks have distinct ids reads as the merge of their
tracks, in the order of the ids. -/
theorem reading_recorded (h : Recorded s ms found) (hids : DistinctIds ms)
    (hexact : ∀ m ∈ ms, ∀ l ∈ m.locations, l.usage.Exact)
    (hascending : ∀ stack, (track ms stack).points.Pairwise (·.1 < ·.1)) :
    ∃ (order : List CallStack) (out : List Measurement), reading found = .items (out.map .ok) none ∧
      order.Pairwise (·.id < ·.id) ∧ (∀ stack, stack ∈ order ↔ stack ∈ callStacks ms) ∧
      Track.Merge (order.map (track ms)) out := by
  obtain ⟨entries, rfl, hd, hm⟩ := h.entries
  rcases gather_cases s (column ms) entries with ⟨_, groups, hok, hg⟩ | ⟨hnodup, _⟩
  · let history (g : SiteGroup) : SiteHistory × Track :=
      (ofPoints g.id g.stack (track ms g.stack).points, track ms g.stack)
    have hsites : ofSeries (entries.map (seriesOf s (column ms))) =
        .ok ((groups.map history).map Prod.fst) := by
      rw [ofSeries, hok, List.map_map]
      exact mapM_ok fun g hgm => ofGroup_gathered hg hm hgm
    have hstands : ∀ x ∈ groups.map history, Stands x.1 x.2 := by
      intro x hx
      obtain ⟨g, _, rfl⟩ := List.mem_map.1 hx
      refine ⟨rfl, readsAs_ofPoints g.id g.stack fun p hp => ?_, hascending g.stack⟩
      obtain ⟨m, hmem, hp⟩ := List.mem_flatMap.1 hp
      obtain ⟨l, hl, rfl⟩ := List.mem_map.1 hp
      exact hexact m hmem l (List.mem_filter.1 hl).1
    obtain ⟨out, hout, hmerge⟩ := measurements_of_stands hstands (Nat.lt_succ_self _)
    refine ⟨groups.map (·.stack), out, ?_, ?_, fun stack => ?_, ?_⟩
    · rw [reading, hsites]
      simp only [hout]
    · rw [List.pairwise_map]
      refine hg.sorted.imp_of_mem fun ha hb hlt => ?_
      rwa [(hg.callStacks _ ha).1, (hg.callStacks _ hb).1]
    · constructor
      · intro hstack
        obtain ⟨g, hgm, rfl⟩ := List.mem_map.1 hstack
        obtain ⟨_, k, hk⟩ := hg.callStacks g hgm
        exact (hm (g.stack, k)).1 hk
      · intro hstack
        obtain ⟨g, hgm, hid⟩ := hg.covers (stack, .allocBytes) ((hm _).2 hstack)
        obtain ⟨hgid, k, hk⟩ := hg.callStacks g hgm
        have heq := hids g.stack ((hm (g.stack, k)).1 hk) stack hstack (hgid.trans hid)
        exact List.mem_map.2 ⟨g, hgm, heq⟩
    · rw [List.map_map] at hmerge ⊢
      exact hmerge
  · exact absurd ((nodup_keys_iff hd hm).2 hids) hnodup

end SessionSeries
end HeapTelemetry
