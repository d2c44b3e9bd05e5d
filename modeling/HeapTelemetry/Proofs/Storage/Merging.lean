import HeapTelemetry.Proofs.Lists
import HeapTelemetry.Storage.SiteHistory
import Mathlib.Data.List.Basic

/-! Reading call-sites side by side merges them by time. A history that can be
read stands for a track of points; the measurements that come out have strictly
ascending times and gather, at each, the points of all tracks. -/

namespace HeapTelemetry

/-- A call-site and its counters at a number of times. -/
structure Track where
  stack : CallStack
  points : List (Int64 × Usage)

namespace Track

/-- The locations that the tracks have at a time. -/
def locationsAt (tracks : List Track) (time : Int64) : List Location :=
  tracks.flatMap fun x => (x.points.filter (·.1 = time)).map fun p => ⟨x.stack, p.2⟩

def measurementAt (tracks : List Track) (time : Int64) : Measurement :=
  ⟨Timestamp.ofNanos time, locationsAt tracks time⟩

/-- One measurement for each time that a track has, in ascending order. -/
def Merge (tracks : List Track) (ms : List Measurement) : Prop :=
  ∃ times : List Int64, times.Pairwise (· < ·) ∧
    (∀ t, t ∈ times ↔ ∃ x ∈ tracks, ∃ u, (t, u) ∈ x.points) ∧
    ms = times.map (measurementAt tracks)

/-- The rest of the track after a time. -/
def after (time : Int64) (x : Track) : Track :=
  { x with points := x.points.filter (time < ·.1) }

theorem locationsAt_after {time t : Int64} (h : time < t) (tracks : List Track) :
    locationsAt (tracks.map (after time)) t = locationsAt tracks t := by
  induction tracks with
  | nil => rfl
  | cons x tracks ih =>
    have hx : (x.points.filter (time < ·.1)).filter (·.1 = t) = x.points.filter (·.1 = t) := by
      rw [List.filter_filter]
      apply List.filter_congr
      intro p _
      by_cases hp : p.1 = t <;> simp [hp, h]
    simp only [locationsAt, List.map_cons, List.flatMap_cons] at ih ⊢
    rw [ih, after, hx]

theorem merge_nil {tracks : List Track} (h : ∀ x ∈ tracks, x.points = []) : Merge tracks [] := by
  refine ⟨[], List.Pairwise.nil, fun t => ?_, rfl⟩
  simp only [List.not_mem_nil, false_iff]
  rintro ⟨x, hx, u, hu⟩
  rw [h x hx] at hu
  cases hu

/-- The earliest time comes first, then those of the tracks after it. -/
theorem merge_cons {tracks : List Track} {time : Int64} {ms : List Measurement}
    (hmem : ∃ x ∈ tracks, ∃ u, (time, u) ∈ x.points)
    (hle : ∀ x ∈ tracks, ∀ p ∈ x.points, time ≤ p.1) (h : Merge (tracks.map (after time)) ms) :
    Merge tracks (measurementAt tracks time :: ms) := by
  obtain ⟨times, hascending, htimes, rfl⟩ := h
  have hafter : ∀ t, t ∈ times ↔ time < t ∧ ∃ x ∈ tracks, ∃ u, (t, u) ∈ x.points := by
    intro t
    rw [htimes]
    constructor
    · rintro ⟨y, hy, u, hu⟩
      obtain ⟨x, hx, rfl⟩ := List.mem_map.1 hy
      obtain ⟨hu, hlt⟩ := List.mem_filter.1 hu
      exact ⟨of_decide_eq_true hlt, x, hx, u, hu⟩
    · rintro ⟨hlt, x, hx, u, hu⟩
      exact ⟨_, List.mem_map_of_mem hx, u, List.mem_filter.2 ⟨hu, decide_eq_true hlt⟩⟩
  refine ⟨time :: times, List.pairwise_cons.2 ⟨fun t ht => ((hafter t).1 ht).1, hascending⟩,
    fun t => ?_, ?_⟩
  · rw [List.mem_cons, hafter]
    constructor
    · rintro (rfl | ⟨_, ht⟩)
      · exact hmem
      · exact ht
    · rintro ⟨x, hx, u, hu⟩
      by_cases htime : t = time
      · exact Or.inl htime
      · exact Or.inr ⟨Int64.lt_of_le_of_ne (hle x hx _ hu) (Ne.symm htime), x, hx, u, hu⟩
  · rw [List.map_cons]
    congr 1
    apply List.map_congr_left
    intro t ht
    rw [measurementAt, locationsAt_after ((hafter t).1 ht).1, measurementAt]

section
variable {time : Int64} {points : List (Int64 × Usage)} (h : points.Pairwise (·.1 < ·.1))
include h

theorem filter_eq_head (hle : ∀ p ∈ points.head?, time ≤ p.1) :
    points.filter (·.1 = time) = (points.head?.filter (·.1 = time)).toList := by
  cases points with
  | nil => rfl
  | cons p rest =>
    obtain ⟨hp, _⟩ := List.pairwise_cons.1 h
    have htime : time ≤ p.1 := hle p rfl
    have hrest : rest.filter (·.1 = time) = [] := by
      rw [List.filter_eq_nil_iff]
      intro q hq heq
      have hlt : p.1 < time := of_decide_eq_true heq ▸ hp q hq
      exact Int64.lt_irrefl (Int64.lt_of_le_of_lt htime hlt)
    by_cases hpt : p.1 = time <;> simp [hpt, hrest, Option.filter_some]

theorem filter_eq_tail (hle : ∀ p ∈ points.head?, time ≤ p.1) :
    points.filter (time < ·.1) =
      if points.head?.map Prod.fst = some time then points.tail else points := by
  cases points with
  | nil => rfl
  | cons p rest =>
    obtain ⟨hp, _⟩ := List.pairwise_cons.1 h
    have htime : time ≤ p.1 := hle p rfl
    have hrest : rest.filter (time < ·.1) = rest := by
      rw [List.filter_eq_self]
      intro q hq
      exact decide_eq_true (Int64.lt_of_le_of_lt htime (hp q hq))
    by_cases hpt : p.1 = time
    · simp [hpt, hrest, Int64.lt_irrefl]
    · have hlt : time < p.1 := Int64.lt_of_le_of_ne htime (Ne.symm hpt)
      simp [hpt, hrest, hlt]

end

end Track

namespace SiteHistory

/-! ## One item -/

/-- What is read next of the history, if that can be read. -/
def head (h : SiteHistory) : Option (Int64 × Usage) := h.current.toOption.join

/-- The location that is read next, if its time is this. -/
def locationAt? (time : Int64) (h : SiteHistory) : Option Location :=
  h.head.bind fun p => if p.1 = time then some ⟨h.stack, p.2⟩ else none

/-- What a measurement at this time leaves of the history. -/
def after (time : Int64) (h : SiteHistory) : SiteHistory :=
  if h.head.map Prod.fst = some time then h.advance else h

theorem head_of_current {h : SiteHistory} {p : Option (Int64 × Usage)} (hc : h.current = .ok p) :
    h.head = p := by
  rw [head, hc]
  rfl

theorem isLive_eq_false {h : SiteHistory} : h.isLive = false ↔ h.current = .ok none := by
  rw [isLive]
  split
  · rename_i hc
    simp [hc]
  · rename_i hc
    simpa using hc

variable {sites : List SiteHistory}

theorem heads_eq_ok {heads : List (SiteHistory × Option (Int64 × Usage))} :
    sites.mapM (fun s => do return (s, ← s.current)) = (.ok heads : Except Error _) ↔
      (∀ s ∈ sites, s.current = .ok s.head) ∧ heads = sites.map fun s => (s, s.head) := by
  refine mapM_eq_ok fun s y => ?_
  cases hc : s.current with
  | error e => simp [bind, Except.bind]
  | ok p => simp [bind, Except.bind, pure, Except.pure, head_of_current hc, eq_comm]

/-- If every history can be read, the earliest time of all is read off those that have it. -/
theorem next_eq (h : ∀ s ∈ sites, s.current = .ok s.head) :
    next sites = (sites.filterMap fun s => s.head.map Prod.fst).min?.map fun time =>
      (.ok ⟨Timestamp.ofNanos time, sites.filterMap (locationAt? time)⟩,
        (sites.map (after time)).filter isLive) := by
  rw [next, heads_eq_ok.2 ⟨h, rfl⟩]
  simp only [List.filterMap_map, List.map_map]
  show Option.bind _ _ = _
  rw [Option.map_eq_bind]
  rfl

theorem next_cases (sites : List SiteHistory) :
    (∃ e, next sites = some (.error e, [])) ∨ ∀ s ∈ sites, s.current = .ok s.head := by
  cases hheads : sites.mapM (fun s => do return (s, ← s.current) : SiteHistory → Except Error _) with
  | error e => exact Or.inl ⟨e, by rw [next, hheads]⟩
  | ok heads => exact Or.inr (heads_eq_ok.1 hheads).1

theorem next_eq_ok {m : Measurement} {rest : List SiteHistory}
    (h : next sites = some (.ok m, rest)) : (∀ s ∈ sites, s.current = .ok s.head) ∧
      ∃ time, (sites.filterMap fun s => s.head.map Prod.fst).min? = some time ∧
        m = ⟨Timestamp.ofNanos time, sites.filterMap (locationAt? time)⟩ ∧
        rest = (sites.map (after time)).filter isLive := by
  rcases next_cases sites with ⟨e, he⟩ | hall
  · rw [he] at h
    cases h
  · rw [next_eq hall] at h
    obtain ⟨time, htime, heq⟩ := Option.map_eq_some_iff.1 h
    obtain ⟨hm, hrest⟩ := Prod.mk.inj heq
    exact ⟨hall, time, htime, (Except.ok.inj hm).symm, hrest.symm⟩

theorem next_eq_none (h : next sites = none) : ∀ s ∈ sites, s.current = .ok none := by
  rcases next_cases sites with ⟨e, he⟩ | hall
  · rw [he] at h
    cases h
  · rw [next_eq hall, Option.map_eq_none_iff, List.min?_eq_none_iff,
      List.filterMap_eq_nil_iff] at h
    intro s hs
    rw [hall s hs, Option.map_eq_none_iff.1 (h s hs)]

/-- After a failure nothing is left. -/
theorem next_eq_error {e : Error} {rest : List SiteHistory}
    (h : next sites = some (.error e, rest)) : rest = [] := by
  rcases next_cases sites with ⟨e', he⟩ | hall
  · rw [he] at h
    cases h
    rfl
  · rw [next_eq hall] at h
    obtain ⟨_, _, heq⟩ := Option.map_eq_some_iff.1 h
    cases heq

/-- What ends before the others is passed over. -/
theorem heads_filter (sites : List SiteHistory) :
    (sites.filter isLive).mapM (fun s => do return (s, ← s.current)) =
      (sites.mapM (fun s => do return (s, ← s.current)) : Except Error _).map
        (List.filter fun e => e.1.isLive) := by
  induction sites with
  | nil => rfl
  | cons s rest ih =>
    cases hlive : s.isLive with
    | false =>
      rw [List.filter_cons_of_neg (by rw [hlive]; exact Bool.false_ne_true), ih, List.mapM_cons,
        isLive_eq_false.1 hlive]
      cases rest.mapM (fun s => do return (s, ← s.current) : SiteHistory → Except Error _) with
      | error e => rfl
      | ok heads => simp [bind, Except.bind, Except.map, pure, Except.pure, hlive]
    | true =>
      rw [List.filter_cons_of_pos hlive, List.mapM_cons, List.mapM_cons, ih]
      cases s.current with
      | error e => rfl
      | ok p =>
        cases rest.mapM (fun s => do return (s, ← s.current) : SiteHistory → Except Error _) with
        | error e => rfl
        | ok heads => simp [bind, Except.bind, Except.map, pure, Except.pure, hlive]

theorem head_of_ended {h : SiteHistory} (hlive : h.isLive = false) : h.head = none :=
  head_of_current (isLive_eq_false.1 hlive)

theorem filterMap_live {α : Type} {f : SiteHistory → Option α}
    (hf : ∀ s : SiteHistory, s.head = none → f s = none) (sites : List SiteHistory) :
    (sites.filter isLive).filterMap f = sites.filterMap f := by
  rw [List.filterMap_filter]
  apply List.filterMap_congr
  intro s _
  cases hlive : s.isLive with
  | false => simpa using (hf s (head_of_ended hlive)).symm
  | true => rfl

theorem after_live (time : Int64) (sites : List SiteHistory) :
    ((sites.filter isLive).map (after time)).filter isLive =
      (sites.map (after time)).filter isLive := by
  rw [List.filter_map, List.filter_map, List.filter_filter]
  congr 1
  apply List.filter_congr
  intro s _
  cases hlive : s.isLive with
  | false =>
    have hsame : after time s = s := by rw [after, head_of_ended hlive]; rfl
    rw [Function.comp_apply, hsame, hlive]
    rfl
  | true => exact Bool.and_true _

/-- Histories that have ended make no difference. -/
theorem next_filter (sites : List SiteHistory) : next (sites.filter isLive) = next sites := by
  cases hheads : sites.mapM (fun s => do return (s, ← s.current) : SiteHistory → Except Error _) with
  | error e =>
    rw [next, next, heads_filter, hheads]
    rfl
  | ok heads =>
    obtain ⟨hall, _⟩ := heads_eq_ok.1 hheads
    rw [next_eq hall, next_eq fun s hs => hall s (List.mem_filter.1 hs).1,
      filterMap_live fun s hs => by rw [hs]; rfl]
    congr 1
    funext time
    rw [after_live, filterMap_live fun s hs => by rw [locationAt?, hs]; rfl]

theorem measurements_filter (fuel : Nat) (sites : List SiteHistory) :
    measurements fuel (sites.filter isLive) = measurements fuel sites := by
  cases fuel with
  | zero => rfl
  | succ fuel => rw [measurements, measurements, next_filter]

/-! ## Samples that are left -/

theorem length_tails_le (columns : List (List Sample)) :
    (columns.map List.tail).flatten.length ≤ columns.flatten.length := by
  induction columns with
  | nil => exact Nat.le_refl 0
  | cons c columns ih =>
    simp only [List.map_cons, List.flatten_cons, List.length_append, List.length_tail]
    omega

theorem length_tails_lt {columns : List (List Sample)} (h : columns.filterMap List.head? ≠ []) :
    (columns.map List.tail).flatten.length < columns.flatten.length := by
  induction columns with
  | nil => exact absurd rfl h
  | cons c columns ih =>
    have hle := length_tails_le columns
    simp only [List.map_cons, List.flatten_cons, List.length_append, List.length_tail]
    cases c with
    | nil => simpa using ih h
    | cons s c =>
      simp only [List.length_cons]
      omega

/-- Reading on takes a sample or more. -/
theorem advance_lt {h : SiteHistory} {p : Int64 × Usage} (hc : h.current = .ok (some p)) :
    h.advance.columns.flatten.length < h.columns.flatten.length := by
  apply length_tails_lt
  intro hnone
  rw [current, hnone] at hc
  cases hc

theorem size_cons (s : SiteHistory) (sites : List SiteHistory) :
    size (s :: sites) = s.columns.flatten.length + size sites := rfl

theorem size_filter_le (sites : List SiteHistory) : size (sites.filter isLive) ≤ size sites := by
  induction sites with
  | nil => exact Nat.le_refl _
  | cons s sites ih =>
    rw [List.filter_cons]
    split
    · rw [size_cons, size_cons]
      omega
    · rw [size_cons]
      omega

theorem after_le (time : Int64) (h : SiteHistory) :
    (after time h).columns.flatten.length ≤ h.columns.flatten.length := by
  rw [after]
  split
  · exact length_tails_le _
  · exact Nat.le_refl _

theorem size_after_le (time : Int64) (sites : List SiteHistory) :
    size (sites.map (after time)) ≤ size sites := by
  induction sites with
  | nil => exact Nat.le_refl _
  | cons s sites ih =>
    have hs := after_le time s
    rw [List.map_cons, size_cons, size_cons]
    omega

theorem size_after_lt {time : Int64} (hall : ∀ s ∈ sites, s.current = .ok s.head)
    (h : ∃ s ∈ sites, ∃ u, s.head = some (time, u)) :
    size (sites.map (after time)) < size sites := by
  induction sites with
  | nil =>
    obtain ⟨s, hs, _⟩ := h
    cases hs
  | cons s sites ih =>
    obtain ⟨x, hx, u, hu⟩ := h
    have hs := after_le time s
    have hle := size_after_le time sites
    rw [List.map_cons, size_cons, size_cons]
    rcases List.mem_cons.1 hx with rfl | hx
    · have hlt : (after time x).columns.flatten.length < x.columns.flatten.length := by
        rw [after, if_pos (by rw [hu]; rfl)]
        exact advance_lt ((hall x List.mem_cons_self).trans (congrArg _ hu))
      omega
    · have hlt := ih (fun y hy => hall y (List.mem_cons_of_mem s hy)) ⟨x, hx, u, hu⟩
      omega

/-- Every measurement leaves less to read. -/
theorem size_next_lt {m : Measurement} {rest : List SiteHistory}
    (h : next sites = some (.ok m, rest)) : size rest < size sites := by
  obtain ⟨hall, time, htime, _, rfl⟩ := next_eq_ok h
  obtain ⟨s, hs, hst⟩ := List.mem_filterMap.1 (List.min?_eq_some_iff.1 htime).1
  obtain ⟨p, hp, rfl⟩ := Option.map_eq_some_iff.1 hst
  exact Nat.lt_of_le_of_lt (size_filter_le _) (size_after_lt hall ⟨s, hs, p.2, hp⟩)

/-! ## Histories that can be read -/

/-- Read step by step, the history gives these points and then ends. -/
def ReadsAs : SiteHistory → List (Int64 × Usage) → Prop
  | h, [] => h.current = .ok none
  | h, p :: rest => h.current = .ok (some p) ∧ ReadsAs h.advance rest

theorem ReadsAs.current {h : SiteHistory} {points : List (Int64 × Usage)} (hr : ReadsAs h points) :
    h.current = .ok points.head? := by
  cases points with
  | nil => exact hr
  | cons p rest => exact hr.1

/-- The history stands for the track, whose times ascend. -/
structure Stands (h : SiteHistory) (x : Track) : Prop where
  stack : h.stack = x.stack
  reads : ReadsAs h x.points
  ascending : x.points.Pairwise (·.1 < ·.1)

theorem Stands.head {h : SiteHistory} {x : Track} (hs : Stands h x) : h.head = x.points.head? :=
  head_of_current hs.reads.current

/-- Reading on leaves a history for the rest of its track. -/
def passing (time : Int64) (x : SiteHistory × Track) : SiteHistory × Track :=
  (after time x.1, x.2.after time)

theorem Stands.passing {x : SiteHistory × Track} (h : Stands x.1 x.2) {time : Int64}
    (hle : ∀ p ∈ x.2.points.head?, time ≤ p.1) :
    Stands (passing time x).1 (passing time x).2 where
  stack := by
    rw [SiteHistory.passing, SiteHistory.after]
    split <;> exact h.stack
  reads := by
    rw [SiteHistory.passing, SiteHistory.after, h.head, Track.after,
      Track.filter_eq_tail h.ascending hle]
    have hreads := h.reads
    cases hpoints : x.2.points with
    | nil => simpa [hpoints] using hreads
    | cons p rest =>
      rw [hpoints] at hreads
      split
      · exact hreads.2
      · exact hreads
  ascending := h.ascending.filter _

/-! ## All measurements -/

variable {xs : List (SiteHistory × Track)} (hxs : ∀ x ∈ xs, Stands x.1 x.2)
include hxs

theorem current_of_stands : ∀ h ∈ xs.map Prod.fst, h.current = .ok h.head := by
  intro h hh
  obtain ⟨x, hx, rfl⟩ := List.mem_map.1 hh
  rw [(hxs x hx).head]
  exact (hxs x hx).reads.current

theorem next_none (h : ∀ x ∈ xs, x.2.points = []) : next (xs.map Prod.fst) = none := by
  have htimes : (xs.map Prod.fst).filterMap (fun h => h.head.map Prod.fst) = [] := by
    rw [List.filterMap_map, List.filterMap_eq_nil_iff]
    intro x hx
    rw [Function.comp_apply, (hxs x hx).head, h x hx]
    rfl
  rw [next_eq (current_of_stands hxs), htimes]
  rfl

theorem next_some {time : Int64} (hmem : ∃ x ∈ xs, ∃ u, x.2.points.head? = some (time, u))
    (hle : ∀ x ∈ xs, ∀ p ∈ x.2.points.head?, time ≤ p.1) :
    next (xs.map Prod.fst) = some (.ok (Track.measurementAt (xs.map Prod.snd) time),
      ((xs.map (passing time)).map Prod.fst).filter isLive) := by
  have htimes : ((xs.map Prod.fst).filterMap fun h => h.head.map Prod.fst).min? = some time := by
    rw [List.filterMap_map, List.min?_eq_some_iff]
    constructor
    · obtain ⟨x, hx, u, hu⟩ := hmem
      refine List.mem_filterMap.2 ⟨x, hx, ?_⟩
      rw [Function.comp_apply, (hxs x hx).head, hu]
      rfl
    · intro t ht
      obtain ⟨x, hx, hxt⟩ := List.mem_filterMap.1 ht
      rw [Function.comp_apply, (hxs x hx).head] at hxt
      obtain ⟨p, hp, rfl⟩ := Option.map_eq_some_iff.1 hxt
      exact hle x hx p hp
  have hlocations : (xs.map Prod.fst).filterMap (locationAt? time) =
      Track.locationsAt (xs.map Prod.snd) time := by
    rw [List.filterMap_map, List.filterMap_eq_flatMap_toList, Track.locationsAt, List.flatMap_map]
    apply List.flatMap_congr
    intro x hx
    rw [Track.filter_eq_head (hxs x hx).ascending (hle x hx), ← (hxs x hx).stack,
      Function.comp_apply, locationAt?, (hxs x hx).head]
    cases x.2.points.head? with
    | none => rfl
    | some p => by_cases hp : p.1 = time <;> simp [hp, Option.filter_some]
  have hrest : (xs.map (passing time)).map Prod.fst = (xs.map Prod.fst).map (after time) := by
    rw [List.map_map, List.map_map]
    rfl
  rw [next_eq (current_of_stands hxs), htimes, Track.measurementAt, ← hlocations, hrest]
  rfl

omit hxs

theorem exists_earliest (tracks : List Track) (h : ¬ ∀ x ∈ tracks, x.points = []) :
    ∃ time, (∃ x ∈ tracks, ∃ u, x.points.head? = some (time, u)) ∧
      ∀ x ∈ tracks, ∀ p ∈ x.points.head?, time ≤ p.1 := by
  have hne : tracks.filterMap (fun x => x.points.head?.map Prod.fst) ≠ [] := by
    intro hnil
    apply h
    intro x hx
    have hx := List.filterMap_eq_nil_iff.1 hnil x hx
    exact List.head?_eq_none_iff.1 (Option.map_eq_none_iff.1 hx)
  obtain ⟨time, htime⟩ := Option.ne_none_iff_exists'.1 (mt List.min?_eq_none_iff.1 hne)
  obtain ⟨hmem, hle⟩ := List.min?_eq_some_iff.1 htime
  obtain ⟨x, hx, hxt⟩ := List.mem_filterMap.1 hmem
  obtain ⟨p, hp, rfl⟩ := Option.map_eq_some_iff.1 hxt
  refine ⟨p.1, ⟨x, hx, p.2, hp⟩, fun y hy q hq => ?_⟩
  exact hle q.1 (List.mem_filterMap.2 ⟨y, hy, Option.map_eq_some_iff.2 ⟨q, hq, rfl⟩⟩)

theorem le_of_head_le {time : Int64} {points : List (Int64 × Usage)}
    (h : points.Pairwise (·.1 < ·.1)) (hle : ∀ p ∈ points.head?, time ≤ p.1) :
    ∀ p ∈ points, time ≤ p.1 := by
  cases points with
  | nil => simp
  | cons q rest =>
    obtain ⟨hq, _⟩ := List.pairwise_cons.1 h
    intro p hp
    rcases List.mem_cons.1 hp with rfl | hp
    · exact hle p rfl
    · exact Int64.le_of_lt (Int64.lt_of_le_of_lt (hle q rfl) (hq p hp))

/-- All of the histories are read, without a failure, and what comes out is the
merge of their tracks. -/
theorem measurements_of_stands {xs : List (SiteHistory × Track)}
    (hxs : ∀ x ∈ xs, Stands x.1 x.2) {fuel : Nat} (hfuel : size (xs.map Prod.fst) < fuel) :
    ∃ ms, measurements fuel (xs.map Prod.fst) = (ms, none) ∧ Track.Merge (xs.map Prod.snd) ms := by
  induction fuel generalizing xs with
  | zero => omega
  | succ fuel ih =>
    have hsnd : ∀ {P : Track → Prop}, (∀ x ∈ xs, P x.2) → ∀ x ∈ xs.map Prod.snd, P x := by
      intro P h x hx
      obtain ⟨y, hy, rfl⟩ := List.mem_map.1 hx
      exact h y hy
    by_cases hall : ∀ x ∈ xs, x.2.points = []
    · refine ⟨[], ?_, Track.merge_nil (hsnd hall)⟩
      rw [measurements, next_none hxs hall]
    · obtain ⟨time, ⟨x, hx, u, hu⟩, hle⟩ := exists_earliest (xs.map Prod.snd) fun h =>
        hall fun x hx => h _ (List.mem_map_of_mem hx)
      obtain ⟨y, hy, rfl⟩ := List.mem_map.1 hx
      have hle : ∀ x ∈ xs, ∀ p ∈ x.2.points.head?, time ≤ p.1 := fun x hx =>
        hle _ (List.mem_map_of_mem hx)
      have hpass : ∀ x ∈ xs.map (passing time), Stands x.1 x.2 := by
        intro x hx
        obtain ⟨z, hz, rfl⟩ := List.mem_map.1 hx
        exact (hxs z hz).passing (hle z hz)
      have hnext := next_some hxs ⟨y, hy, u, hu⟩ hle
      have hsize : size ((xs.map (passing time)).map Prod.fst) < size (xs.map Prod.fst) := by
        rw [List.map_map]
        have hlt := size_after_lt (current_of_stands hxs)
          ⟨y.1, List.mem_map_of_mem hy, u, (hxs y hy).head.trans hu⟩
        rwa [List.map_map] at hlt
      obtain ⟨ms, hms, hmerge⟩ := ih hpass (by omega)
      refine ⟨Track.measurementAt (xs.map Prod.snd) time :: ms, ?_, ?_⟩
      · rw [measurements, hnext]
        simp only [measurements_filter, hms]
      · refine Track.merge_cons ⟨y.2, hx, u, List.mem_of_mem_head? hu⟩
          (hsnd fun x hx => le_of_head_le (hxs x hx).ascending (hle x hx)) ?_
        rw [List.map_map] at hmerge ⊢
        exact hmerge

end SiteHistory
end HeapTelemetry
