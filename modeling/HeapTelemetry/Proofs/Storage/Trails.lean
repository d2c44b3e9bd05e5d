import HeapTelemetry.Proofs.Storage.Grouping
import HeapTelemetry.Proofs.Storage.Merging
import HeapTelemetry.Proofs.Timestamps

/-! Reading whatever series there are. Items come until nothing is left or a call-site
cannot be read. If all of them can, every sample of every series is in a measurement, and in
one only. -/

namespace HeapTelemetry

/-- A call-site that was read: its points in order, each with the index of the measurement
that has it. -/
structure Trail where
  site : SiteHistory
  points : List (Nat × Int64 × Usage)

namespace Trail

def track (c : Trail) : Track := ⟨c.site.stack, c.points.map Prod.snd⟩

/-- The locations of the points with an index. -/
def locationsIn (n : Nat) (trails : List Trail) : List Location :=
  trails.flatMap fun c => (c.points.filter (·.1 = n)).map fun p => ⟨c.site.stack, p.2.2⟩

/-- Read step by step, the call-site gives the points of its trail, and each is at the time
of its measurement. -/
structure Fits (ms : List Measurement) (c : Trail) : Prop where
  reads : SiteHistory.ReadsAs c.site (c.points.map Prod.snd)
  ascending : (c.points.map Prod.fst).Pairwise (· < ·)
  timed : ∀ p ∈ c.points, ∃ m, ms[p.1]? = some m ∧ m.observedAt = Timestamp.ofNanos p.2.1

/-- The measurements have the points of these trails and no others. -/
structure Cover (trails : List Trail) (ms : List Measurement) : Prop where
  fits : ∀ c ∈ trails, c.Fits ms
  locations : ∀ n m, ms[n]? = some m → m.locations = locationsIn n trails
  inhabited : ∀ m ∈ ms, m.locations ≠ []

end Trail

namespace SiteHistory

/-! ## The items of a reading -/

/-- Asked again and again, the histories give these items and then none. -/
inductive Yields : List SiteHistory → List (Except Error Measurement) → Prop
  | ended {sites : List SiteHistory} : next sites = none → Yields sites []
  | item {sites rest : List SiteHistory} {i : Except Error Measurement}
      {items : List (Except Error Measurement)} :
      next sites = some (i, rest) → Yields rest items → Yields sites (i :: items)

variable {sites : List SiteHistory}

theorem Yields.of_filter {items : List (Except Error Measurement)}
    (h : Yields (sites.filter isLive) items) : Yields sites items := by
  cases h with
  | ended hnext => exact .ended (next_filter sites ▸ hnext)
  | item hnext hrest => exact .item (next_filter sites ▸ hnext) hrest

/-- The items come to an end, and only the last of them may be a failure. -/
theorem yields_measurements {fuel : Nat} (hfuel : size sites < fuel) :
    let r := measurements fuel sites
    Yields sites (r.1.map .ok ++ r.2.toList.map .error) ∧ r.1.length ≤ size sites := by
  induction fuel generalizing sites with
  | zero => omega
  | succ fuel ih =>
    intro r
    cases hnext : next sites with
    | none =>
      have hr : r = ([], none) := by simp only [r, measurements, hnext]
      rw [hr]
      exact ⟨.ended hnext, Nat.zero_le _⟩
    | some x =>
      obtain ⟨i, rest⟩ := x
      cases i with
      | error e =>
        have hr : r = ([], some e) := by simp only [r, measurements, hnext]
        have hrest := next_eq_error hnext
        rw [hr]
        exact ⟨.item hnext (.ended (hrest ▸ rfl)), Nat.zero_le _⟩
      | ok m =>
        have hlt := size_next_lt hnext
        have hr : r = (m :: (measurements fuel rest).1, (measurements fuel rest).2) := by
          simp only [r, measurements, hnext]
        obtain ⟨hyields, hlength⟩ := ih (show size rest < fuel by omega)
        rw [hr]
        refine ⟨.item hnext hyields, ?_⟩
        rw [List.length_cons]
        omega

/-! ## Every point has its measurement -/

/-- The point of a history at a time, if that is what is read next. -/
def firstAt (time : Int64) (h : SiteHistory) : List (Int64 × Usage) :=
  (h.head.filter (·.1 = time)).toList

/-- The trail of a history from its trail after a measurement. -/
def before (time : Int64) (h : SiteHistory) (c : Trail) : Trail :=
  ⟨h, (firstAt time h).map (fun p => (0, p)) ++ c.points.map fun p => (p.1 + 1, p.2)⟩

theorem time_of_mem_firstAt {time : Int64} {h : SiteHistory} {p : Int64 × Usage}
    (hp : p ∈ firstAt time h) : p.1 = time := by
  obtain ⟨_, hpt⟩ := Option.filter_eq_some_iff.1 (Option.mem_toList.1 hp)
  exact of_decide_eq_true hpt

theorem reads_before {time : Int64} {h : SiteHistory} {points : List (Int64 × Usage)}
    (hc : h.current = .ok h.head) (hr : ReadsAs (after time h) points) :
    ReadsAs h (firstAt time h ++ points) := by
  rw [after] at hr
  rw [firstAt]
  cases hhead : h.head with
  | none =>
    rw [hhead] at hr
    exact hr
  | some p =>
    rw [hhead] at hc
    rw [hhead, Option.map_some] at hr
    by_cases hp : p.1 = time
    · rw [if_pos (congrArg some hp)] at hr
      rw [Option.filter_some, if_pos (decide_eq_true hp)]
      exact ⟨hc, hr⟩
    · rw [if_neg fun heq => hp (Option.some.inj heq)] at hr
      rw [Option.filter_some, if_neg (by simpa using hp)]
      exact hr

theorem locations_first (time : Int64) (h : SiteHistory) (c : Trail) :
    ((before time h c).points.filter (·.1 = 0)).map (fun p => (⟨h.stack, p.2.2⟩ : Location)) =
      (locationAt? time h).toList := by
  have hlater : (c.points.map fun p => (p.1 + 1, p.2)).filter (·.1 = 0) = [] := by
    rw [List.filter_map, List.map_eq_nil_iff]
    exact List.filter_eq_nil_iff.2 fun p _ => by simp
  have hfirst : ((firstAt time h).map fun p => (0, p)).filter (·.1 = 0) =
      (firstAt time h).map fun p => (0, p) := by
    rw [List.filter_eq_self]
    intro p hp
    obtain ⟨q, _, rfl⟩ := List.mem_map.1 hp
    rfl
  rw [before, List.filter_append, hlater, hfirst, List.append_nil, List.map_map, firstAt,
    locationAt?]
  cases h.head with
  | none => rfl
  | some p => by_cases hp : p.1 = time <;> simp [hp, Option.filter_some]

theorem locations_later (time : Int64) (h : SiteHistory) (c : Trail) (n : Nat) :
    ((before time h c).points.filter (·.1 = n + 1)).map (fun p => (⟨h.stack, p.2.2⟩ : Location)) =
      (c.points.filter (·.1 = n)).map fun p => ⟨h.stack, p.2.2⟩ := by
  have hfirst : ((firstAt time h).map fun p => (0, p)).filter (·.1 = n + 1) = [] := by
    rw [List.filter_map, List.map_eq_nil_iff]
    exact List.filter_eq_nil_iff.2 fun p _ => by simp
  rw [before, List.filter_append, hfirst, List.nil_append, List.filter_map, List.map_map]
  simp only [Function.comp_def, Nat.add_right_cancel_iff]

theorem fits_before {time : Int64} {h : SiteHistory} {c : Trail} {m : Measurement}
    {ms : List Measurement} (hc : h.current = .ok h.head) (hsite : c.site = after time h)
    (hfits : c.Fits ms) (hm : m.observedAt = Timestamp.ofNanos time) :
    (before time h c).Fits (m :: ms) where
  reads := by
    have hpoints : (before time h c).points.map Prod.snd =
        firstAt time h ++ c.points.map Prod.snd := by
      rw [before, List.map_append, List.map_map, List.map_map]
      congr 1
      exact List.map_id _
    rw [hpoints]
    exact reads_before hc (hsite ▸ hfits.reads)
  ascending := by
    rw [before, List.map_append, List.map_map, List.map_map, List.pairwise_append]
    refine ⟨?_, ?_, fun a ha b hb => ?_⟩
    · rw [firstAt]
      cases h.head.filter (·.1 = time) with
      | none => exact List.Pairwise.nil
      | some p => exact List.pairwise_singleton _ _
    · have hascending := hfits.ascending
      rw [List.pairwise_map] at hascending ⊢
      exact hascending.imp Nat.succ_lt_succ
    · obtain ⟨_, _, rfl⟩ := List.mem_map.1 ha
      obtain ⟨_, _, rfl⟩ := List.mem_map.1 hb
      exact Nat.succ_pos _
  timed := by
    intro p hp
    rcases List.mem_append.1 hp with hp | hp
    · obtain ⟨q, hq, rfl⟩ := List.mem_map.1 hp
      exact ⟨m, rfl, by rw [hm, time_of_mem_firstAt hq]⟩
    · obtain ⟨q, hq, rfl⟩ := List.mem_map.1 hp
      exact hfits.timed q hq

/-- The measurement that is read first comes before the trails of what is left. -/
theorem cover_before {time : Int64} {later : List Trail} {ms : List Measurement}
    (hall : ∀ s ∈ sites, s.current = .ok s.head)
    (htime : (sites.filterMap fun s => s.head.map Prod.fst).min? = some time)
    (hlater : later.map Trail.site = sites.map (after time)) (hcover : Trail.Cover later ms) :
    ∃ trails : List Trail, trails.map Trail.site = sites ∧
      Trail.Cover trails (⟨Timestamp.ofNanos time, sites.filterMap (locationAt? time)⟩ :: ms) := by
  obtain ⟨zs, rfl, rfl, hsites⟩ := exists_zip_of_map_eq hlater
  have hfirst : Trail.locationsIn 0 (zs.map fun z => before time z.1 z.2) =
      (zs.map Prod.fst).filterMap (locationAt? time) := by
    rw [Trail.locationsIn, List.flatMap_map, List.filterMap_eq_flatMap_toList, List.flatMap_map]
    exact List.flatMap_congr fun z _ => locations_first time z.1 z.2
  have hrest : ∀ n, Trail.locationsIn (n + 1) (zs.map fun z => before time z.1 z.2) =
      Trail.locationsIn n (zs.map Prod.snd) := by
    intro n
    rw [Trail.locationsIn, Trail.locationsIn, List.flatMap_map, List.flatMap_map]
    refine List.flatMap_congr fun z hz => ?_
    have hstack : z.2.site.stack = z.1.stack := by
      rw [hsites z hz, after]
      split <;> rfl
    rw [hstack]
    exact locations_later time z.1 z.2 n
  refine ⟨zs.map fun z => before time z.1 z.2, ?_, fun c hc => ?_, fun n m hm => ?_, ?_⟩
  · rw [List.map_map]
    rfl
  · obtain ⟨z, hz, rfl⟩ := List.mem_map.1 hc
    exact fits_before (hall z.1 (List.mem_map_of_mem hz)) (hsites z hz)
      (hcover.fits z.2 (List.mem_map_of_mem hz)) rfl
  · cases n with
    | zero =>
      obtain rfl := Option.some.inj hm
      exact hfirst.symm
    | succ n => rw [hrest, hcover.locations n m hm]
  · refine List.forall_mem_cons.2 ⟨?_, hcover.inhabited⟩
    obtain ⟨s, hs, hst⟩ := List.mem_filterMap.1 (List.min?_eq_some_iff.1 htime).1
    obtain ⟨p, hp, hpt⟩ := Option.map_eq_some_iff.1 hst
    have hlocation : locationAt? time s = some ⟨s.stack, p.2⟩ := by
      rw [locationAt?, hp, Option.bind_some, if_pos hpt]
    exact List.ne_nil_of_mem (List.mem_filterMap.2 ⟨s, hs, hlocation⟩)

/-- Induction on the measurements. -/
theorem exists_cover {ms : List Measurement} (h : Yields sites (ms.map .ok)) :
    ∃ trails : List Trail, trails.map Trail.site = sites ∧ Trail.Cover trails ms := by
  induction ms generalizing sites with
  | nil =>
    cases h with
    | ended hnext =>
      have hended := next_eq_none hnext
      refine ⟨sites.map fun s => ⟨s, []⟩, ?_, fun c hc => ?_, fun n m hm => ?_, ?_⟩
      · rw [List.map_map]
        exact List.map_id _
      · obtain ⟨s, hs, rfl⟩ := List.mem_map.1 hc
        exact ⟨hended s hs, List.Pairwise.nil, fun p hp => absurd hp List.not_mem_nil⟩
      · cases hm
      · exact fun m hm => absurd hm List.not_mem_nil
  | cons m ms ih =>
    cases h with
    | item hnext hrest =>
      obtain ⟨hall, time, htime, rfl, rfl⟩ := next_eq_ok hnext
      obtain ⟨later, hsites, hcover⟩ := ih hrest.of_filter
      exact cover_before hall htime hsites hcover

/-! ## The samples of a call-site -/

theorem read_usage (f : Metric → Sample) (k : Metric) :
    k.read (usage (Metric.all.map f)) = SiteSeries.counter (f k).value := by
  cases k <;> rfl

variable {h : SiteHistory} {column : Metric → List Sample}

theorem heads_of_columns (hc : h.columns = Metric.all.map column) :
    h.columns.filterMap List.head? = Metric.all.filterMap fun k => (column k).head? := by
  rw [hc, List.filterMap_map]
  rfl

theorem columns_of_ended (hc : h.columns = Metric.all.map column) (hended : h.current = .ok none)
    (k : Metric) : column k = [] := by
  rw [current, heads_of_columns hc] at hended
  split at hended
  · rename_i hnil
    exact List.head?_eq_none_iff.1 (List.filterMap_eq_nil_iff.1 hnil k (SiteSeries.mem_all k))
  · split at hended
    · cases hended
    · split at hended <;> cases hended

/-- What is read is at the time of all columns and has the counter of each. -/
theorem columns_of_current (hc : h.columns = Metric.all.map column) {p : Int64 × Usage}
    (hp : h.current = .ok (some p)) (k : Metric) : ∃ s, (column k).head? = some s ∧
      s.time = p.1 ∧ SiteSeries.counter s.value = k.read p.2 := by
  rw [current, heads_of_columns hc] at hp
  split at hp
  · cases hp
  rename_i first more hheads
  split at hp
  · cases hp
  rename_i hlength
  split at hp
  · cases hp
  rename_i htimes
  cases hp
  have hall : ∀ k ∈ Metric.all, ((column k).head?).isSome := by
    rw [← List.filterMap_length_eq_length, hheads]
    rw [not_not, hc, List.length_map] at hlength
    exact hlength
  choose f hf using fun k => Option.isSome_iff_exists.1 (hall k (SiteSeries.mem_all k))
  have hlist : first :: more = Metric.all.map f := by
    rw [← hheads, ← List.filterMap_eq_map]
    exact List.filterMap_congr fun k _ => hf k
  refine ⟨f k, hf k, ?_, ?_⟩
  · have hmem : f k ∈ first :: more := hlist ▸ List.mem_map_of_mem (SiteSeries.mem_all k)
    rcases List.mem_cons.1 hmem with heq | hmem
    · rw [heq]
    · simpa using List.find?_eq_none.1 htimes (f k) hmem
  · rw [hlist, read_usage]

/-- Every column has the points of the call-site, each with its own counter. -/
theorem columns_of_reads {points : List (Int64 × Usage)} (hr : ReadsAs h points)
    (hc : h.columns = Metric.all.map column) (k : Metric) :
    (column k).map (fun s => (s.time, SiteSeries.counter s.value)) =
      points.map fun p => (p.1, k.read p.2) := by
  induction points generalizing h column with
  | nil =>
    rw [columns_of_ended hc hr]
    rfl
  | cons p points ih =>
    obtain ⟨s, hs, htime, hvalue⟩ := columns_of_current hc hr.1 k
    have hadvance : h.advance.columns = Metric.all.map fun k => (column k).tail := by
      rw [advance, hc, List.map_map]
      rfl
    obtain ⟨rest, hrest⟩ := List.head?_eq_some_iff.1 hs
    have hmore := ih hr.2 hadvance
    rw [hrest] at hmore ⊢
    rw [List.map_cons, List.map_cons, ← hmore, htime, hvalue]
    rfl

/-! ## Call-sites from any series -/

open SiteGroup

/-- The call-sites have each series as the column of its metric, and for each metric one. -/
structure Grouped (series : List Series) (sites : List SiteHistory) : Prop where
  ascending : sites.Pairwise (·.id < ·.id)
  columns : ∀ h ∈ sites, ∃ column : Metric → List Sample, h.columns = Metric.all.map column ∧
    ∀ k, ∃ x, series.filter (isOf h.id k) = [x] ∧ x.samples = column k
  callStacks : ∀ h ∈ sites,
    (series.find? (hasId h.id)).map (fun x => SiteSeries.callStack x.labels) = some (.ok h.stack)
  covers : ∀ x ∈ series, ∃ h ∈ sites, ∃ k, isOf h.id k x = true

theorem ofGroup_eq_ok (g : SiteGroup) (h : SiteHistory) : ofGroup g = .ok h ↔
    (∀ k, (g.found.get? k).isSome) ∧
      h = ⟨g.id, g.stack, Metric.all.map fun k => (g.found.get? k).getD []⟩ := by
  have hread : (∀ k, (g.found.get? k).isSome) → Metric.all.mapM g.found.get? =
      some (Metric.all.map fun k => (g.found.get? k).getD []) := by
    intro hall
    refine mapM_eq_some fun k _ => ?_
    obtain ⟨column, hk⟩ := Option.isSome_iff_exists.1 (hall k)
    rw [hk]
    rfl
  rw [ofGroup]
  cases hcolumns : Metric.all.mapM g.found.get? with
  | none =>
    refine ⟨nofun, fun ⟨hall, _⟩ => ?_⟩
    rw [hread hall] at hcolumns
    cases hcolumns
  | some columns =>
    have hall : ∀ k, (g.found.get? k).isSome := by
      intro k
      have hmem := List.mem_map_of_mem (f := g.found.get?) (SiteSeries.mem_all k)
      rw [map_eq_of_mapM_eq_some hcolumns] at hmem
      obtain ⟨column, _, hk⟩ := List.mem_map.1 hmem
      rw [← hk]
      rfl
    rw [hread hall] at hcolumns
    obtain rfl := Option.some.inj hcolumns
    exact ⟨fun hok => ⟨hall, (Except.ok.inj hok).symm⟩, fun ⟨_, heq⟩ => heq ▸ rfl⟩

theorem grouped_of_ok {series : List Series} (h : ofSeries series = .ok sites) :
    Grouped series sites := by
  rw [ofSeries] at h
  cases hgroups : series.foldlM SiteGroup.insert [] with
  | error e =>
    rw [hgroups] at h
    cases h
  | ok groups =>
    rw [hgroups] at h
    obtain ⟨hfull, rfl⟩ := (mapM_eq_ok ofGroup_eq_ok).1 h
    have hparts : Partitioned series groups := partitioned_nil.foldlM_insert hgroups
    refine ⟨List.pairwise_map.2 hparts.sorted, fun s hs => ?_, fun s hs => ?_, fun x hx => ?_⟩
    · obtain ⟨g, hg, rfl⟩ := List.mem_map.1 hs
      refine ⟨fun k => (g.found.get? k).getD [], rfl, fun k => ?_⟩
      obtain ⟨column, hk⟩ := Option.isSome_iff_exists.1 (hfull g hg k)
      have hfound := hparts.found g hg k
      rw [hk] at hfound
      obtain ⟨x, hx, hcolumn⟩ := List.map_eq_singleton_iff.1 hfound
      refine ⟨x, hx, ?_⟩
      show x.samples = (g.found.get? k).getD []
      rw [hcolumn, hk]
      rfl
    · obtain ⟨g, hg, rfl⟩ := List.mem_map.1 hs
      exact hparts.callStacks g hg
    · obtain ⟨g, hg, k, hof⟩ := hparts.covers x hx
      exact ⟨_, List.mem_map_of_mem hg, k, hof⟩

/-! ## The whole reading -/

variable {series : List Series} {trails : List Trail} {ms : List Measurement}

theorem samples_of_trail (hg : Grouped series (trails.map Trail.site))
    (hcover : Trail.Cover trails ms) {c : Trail} (hc : c ∈ trails) {k : Metric} {x : Series}
    (hx : x ∈ series) (hof : isOf c.site.id k x = true) :
    x.samples.map (fun s => (s.time, SiteSeries.counter s.value)) =
      c.points.map fun p => (p.2.1, k.read p.2.2) := by
  obtain ⟨column, hcolumns, hone⟩ := hg.columns c.site (List.mem_map_of_mem hc)
  obtain ⟨y, hy, hcolumn⟩ := hone k
  have hxy : x ∈ series.filter (isOf c.site.id k) := List.mem_filter.2 ⟨hx, hof⟩
  rw [hy] at hxy
  obtain rfl := List.mem_singleton.1 hxy
  rw [hcolumn, columns_of_reads (hcover.fits c hc).reads hcolumns k, List.map_map]
  rfl

theorem stands_of_trail (hg : Grouped series (trails.map Trail.site))
    (hcover : Trail.Cover trails ms)
    (hascending : ∀ x ∈ series, x.samples.Pairwise (·.time < ·.time)) {c : Trail}
    (hc : c ∈ trails) : Stands c.site c.track where
  stack := rfl
  reads := (hcover.fits c hc).reads
  ascending := by
    obtain ⟨column, _, hone⟩ := hg.columns c.site (List.mem_map_of_mem hc)
    obtain ⟨x, hx, _⟩ := hone .allocBytes
    obtain ⟨hx, hof⟩ := List.mem_filter.1 (hx ▸ List.mem_cons_self : x ∈ series.filter _)
    have htimes := congrArg (List.map Prod.fst) (samples_of_trail hg hcover hc hx hof)
    rw [List.map_map, List.map_map] at htimes
    have hsamples := List.pairwise_map.2 (hascending x hx)
    rw [Trail.track, List.pairwise_map]
    exact List.pairwise_map.1 (htimes ▸ hsamples)

/-- Whatever series there are: if they can be put together to call-sites, reading these comes
to an end, and a failure can only be the last item. If there is none, the series of a
call-site have the same points, each point is in just one measurement, at its time and with
its counters, and no measurement has anything else. If the times of each series ascend, then
the measurements do, and each has all call-sites that have a sample at its instant. -/
theorem every_sample_read_once (h : ofSeries series = .ok sites) : Grouped series sites ∧
    ∃ (ms : List Measurement) (failure : Option Error),
      Yields sites (ms.map .ok ++ failure.toList.map .error) ∧ ms.length ≤ size sites ∧
      (reading series).toList = ms.map .ok ++ failure.toList.map .error ∧
      (failure = none → ∃ trails : List Trail, trails.map Trail.site = sites ∧
        Trail.Cover trails ms ∧
        (∀ c ∈ trails, ∀ k, ∀ x ∈ series, isOf c.site.id k x = true →
          x.samples.map (fun s => (s.time, SiteSeries.counter s.value)) =
            c.points.map fun p => (p.2.1, k.read p.2.2)) ∧
        ((∀ x ∈ series, x.samples.Pairwise (·.time < ·.time)) →
          ms.Pairwise (fun a b => a.observedAt.Before b.observedAt) ∧
            Track.Merge (trails.map Trail.track) ms)) := by
  have hg := grouped_of_ok h
  obtain ⟨hyields, hlength⟩ := yields_measurements (Nat.lt_succ_self (size sites))
  cases hread : measurements (size sites + 1) sites with
  | mk ms failure =>
    rw [hread] at hyields hlength
    refine ⟨hg, ms, failure, hyields, hlength, ?_, fun hnone => ?_⟩
    · rw [reading, h]
      simp only [hread]
      cases failure with
      | none => exact (List.append_nil _).symm
      | some e => rfl
    · subst hnone
      obtain ⟨trails, rfl, hcover⟩ := exists_cover ((List.append_nil (ms.map _)) ▸ hyields)
      refine ⟨trails, rfl, hcover, fun c hc k x hx => samples_of_trail hg hcover hc hx,
        fun hascending => ?_⟩
      have hstands : ∀ z ∈ trails.map fun c => (c.site, c.track), Stands z.1 z.2 := by
        intro z hz
        obtain ⟨c, hc, rfl⟩ := List.mem_map.1 hz
        exact stands_of_trail hg hcover hascending hc
      have hsites : (trails.map fun c => (c.site, c.track)).map Prod.fst =
          trails.map Trail.site := by
        rw [List.map_map]
        rfl
      obtain ⟨ms', hms', hmerge⟩ := measurements_of_stands hstands (Nat.lt_succ_self _)
      rw [hsites, hread] at hms'
      obtain ⟨rfl, _⟩ := Prod.mk.inj hms'
      rw [List.map_map] at hmerge
      refine ⟨?_, hmerge⟩
      obtain ⟨times, htimes, _, rfl⟩ := hmerge
      exact List.pairwise_map.2 (htimes.imp Timestamp.before_ofNanos_iff.2)

/-- The series of one call-site. -/
def siteSeries (id : String) (times : List Int64) : List Series :=
  Metric.all.map fun k => ⟨Labels.ofList [(SiteSeries.stackIdLabel, id),
    (SiteSeries.stackLabel, SiteSeries.stackText ⟨[]⟩), (SiteSeries.metricLabel, k.name)],
    times.map fun t => ⟨t, Binary64.ofInt 1⟩⟩

/-- One call-site is seen before the other, then both at once. -/
theorem every_sample_read_once_of_two :
    let series := siteSeries "main" [3, 5] ++ siteSeries "grow" [5]
    ∃ sites, ofSeries series = .ok sites ∧ ∃ ms trails, Yields sites (ms.map .ok) ∧
      trails.map Trail.site = sites ∧ Trail.Cover trails ms ∧
      Track.Merge (trails.map Trail.track) ms := by
  intro series
  have hok : (ofSeries series).isOk = true := by decide +kernel
  have hclean : (reading series).toList.all Except.isOk = true := by decide +kernel
  have hascending : ∀ x ∈ series, x.samples.Pairwise (·.time < ·.time) := by decide +kernel
  cases hsites : ofSeries series with
  | error e =>
    rw [hsites] at hok
    cases hok
  | ok sites =>
    obtain ⟨_, ms, failure, hyields, _, hitems, hall⟩ := every_sample_read_once hsites
    cases failure with
    | some e =>
      rw [hitems, List.all_append, Bool.and_eq_true] at hclean
      cases hclean.2
    | none =>
      obtain ⟨trails, htrails, hcover, _, hmerge⟩ := hall rfl
      exact ⟨sites, rfl, ms, trails, (List.append_nil (ms.map _)) ▸ hyields, htrails, hcover,
        (hmerge hascending).2⟩

end SiteHistory
end HeapTelemetry
