import HeapTelemetry.Proofs.Series.Refinement
import HeapTelemetry.Proofs.Storage.Reassembly
import HeapTelemetry.Storage.SessionSeries

/-! Saving measurements to the series database. What is saved of a measurement is
one transaction, made whole or not at all, so the series of a session are the
columns of the measurements that were accepted. -/

namespace HeapTelemetry.SessionSeries
open Step Measurement SiteGroup Database

/-! ## One measurement -/

/-- The samples that a measurement adds. -/
def adds (s : Session) (m : Measurement) : List (Labels × Sample) :=
  m.locations.flatMap fun l => Metric.all.map fun k =>
    (SiteSeries.labels s l.stack k, SiteSeries.sample m.time l.usage k)

/-- The instant and all counters can be stored. -/
structure Storable (m : Measurement) : Prop where
  timed : m.observedAt.nanos? = some m.time
  exact : ∀ l ∈ m.locations, l.usage.Exact

theorem nanos?_eq_some_time {m : Measurement} {t : Int64} (h : m.observedAt.nanos? = some t) :
    m.time = t := by
  rw [time, h]
  rfl

theorem batch_eq_ok_iff (s : Session) (m : Measurement) (b : Batch) :
    batch s m = .ok b ↔ Storable m ∧ b = Batch.ofAdds (adds s m) := by
  have hrows : ∀ rows : List (List (Labels × Binary64)),
      m.locations.mapM (SiteSeries.encode s) = .ok rows ↔ (∀ l ∈ m.locations, l.usage.Exact) ∧
        rows = m.locations.map fun l => Metric.all.map fun k =>
          (SiteSeries.labels s l.stack k, Binary64.ofInt (k.read l.usage).toInt) := fun _ =>
    mapM_eq_ok fun l y => SiteSeries.encode_eq_ok_iff s l y
  have hadds : ((m.locations.map fun l => Metric.all.map fun k =>
      (SiteSeries.labels s l.stack k, Binary64.ofInt (k.read l.usage).toInt)).flatten.foldl
        (fun b e => Batch.add e.1 ⟨m.time, e.2⟩ b) []) = Batch.ofAdds (adds s m) := by
    rw [Batch.ofAdds, adds, List.flatMap_def, List.foldl_flatten, List.foldl_flatten,
      List.foldl_map, List.foldl_map]
    simp only [List.foldl_map]
    rfl
  rw [batch]
  cases hnanos : m.observedAt.nanos? with
  | none =>
    have hunix : ∃ e, m.observedAt.unixNanos = .error e := ⟨_, by rw [Timestamp.unixNanos, hnanos]⟩
    obtain ⟨e, he⟩ := hunix
    have hno : ¬ Storable m := fun h => by
      have htimed := h.timed
      rw [hnanos] at htimed
      cases htimed
    simp [he, bind, Except.bind, hno]
  | some t =>
    have htime := nanos?_eq_some_time hnanos
    have hunix : m.observedAt.unixNanos = .ok t := (Timestamp.unixNanos_eq_ok_iff _ _).2 hnanos
    have hstorable : Storable m ↔ ∀ l ∈ m.locations, l.usage.Exact :=
      ⟨Storable.exact, fun h => ⟨by rw [hnanos, htime], h⟩⟩
    rw [hstorable, hunix]
    simp only [bind, Except.bind]
    cases hmap : m.locations.mapM (SiteSeries.encode s) with
    | error e =>
      have hno : ¬ ∀ l ∈ m.locations, l.usage.Exact := fun h => by
        have hok := (hrows _).2 ⟨h, rfl⟩
        rw [hmap] at hok
        cases hok
      simp [hno]
    | ok rows =>
      obtain ⟨hexact, rfl⟩ := (hrows rows).1 hmap
      subst htime
      constructor
      · intro h
        cases h
        exact ⟨hexact, hadds⟩
      · rintro ⟨_, rfl⟩
        exact congrArg Except.ok hadds

/-- A measurement that can be stored is saved as one transaction. -/
theorem run_save [Compressor] {m : Measurement} (h : Storable m) (s : Session)
    (st : Database × Disk) : run (save s () m) st = run (perform (.commit (adds s m))) st := by
  have hbatch := (batch_eq_ok_iff s m _).2 ⟨h, rfl⟩
  rw [save, run_bind, run_ofExcept, hbatch, run_perform_commit]
  exact run_discard _ _

/-- Any other is refused without a trace. -/
theorem run_save_refused [Compressor] {m : Measurement} (h : ¬ Storable m) (s : Session)
    (st : Database × Disk) : ∃ e, run (save s () m) st = (.error e, st) := by
  rw [save, run_bind, run_ofExcept]
  cases hbatch : batch s m with
  | error e => exact ⟨e, rfl⟩
  | ok b => exact absurd ((batch_eq_ok_iff s m b).1 hbatch).1 h

/-! ## Everything that was accepted -/

/-- The samples that accepted measurements give a label set. -/
def saved (accepted : List (Session × Measurement)) (l : Labels) : List Sample :=
  Ledger.added (accepted.flatMap fun e => adds e.1 e.2) l

/-- The measurements that were accepted of a session. -/
def acceptedOf (s : Session) (accepted : List (Session × Measurement)) : List Measurement :=
  (accepted.filter (·.1 = s)).map Prod.snd

/-- The database holds what was accepted, and nothing else. -/
structure Contains [Compressor] (accepted : List (Session × Measurement)) (bound : Nat)
    (db : Database) (d : Disk) : Prop where
  follows : ∃ ledger, Follows ledger bound db d ∧ ledger.samples = saved accepted
  storable : ∀ e ∈ accepted, Storable e.2

theorem Contains.mono [Compressor] {accepted : List (Session × Measurement)} {bound bound' : Nat}
    {db : Database} {d : Disk} (h : Contains accepted bound db d) (hle : bound ≤ bound') :
    Contains accepted bound' db d := by
  obtain ⟨ledger, hfollows, hsamples⟩ := h.follows
  exact ⟨⟨ledger, hfollows.mono hle, hsamples⟩, h.storable⟩

theorem added_append (xs ys : List (Labels × Sample)) (l : Labels) :
    Ledger.added (xs ++ ys) l = Ledger.added xs l ++ Ledger.added ys l := by
  simp [Ledger.added]

theorem saved_concat (accepted : List (Session × Measurement)) (s : Session) (m : Measurement)
    (l : Labels) : saved (accepted ++ [(s, m)]) l = saved accepted l ++ Ledger.added (adds s m) l := by
  rw [saved, List.flatMap_append, added_append, List.flatMap_singleton]
  rfl

variable {accepted : List (Session × Measurement)} {bound : Nat} {db : Database} {d : Disk}

section
variable [Compressor]

/-- A save adds to what is contained what it accepts. -/
theorem Contains.save (h : Contains accepted bound db d) (s : Session) (m : Measurement) :
    ∃ r db' d', run (save s () m) (db, d) = (r, db', d') ∧ db'.dir = db.dir ∧
      Contains (match r with
        | .ok _ => accepted ++ [(s, m)]
        | .error _ => accepted) bound db' d' := by
  obtain ⟨ledger, hfollows, hsamples⟩ := h.follows
  by_cases hm : Storable m
  · have hstorable : ∀ e ∈ accepted ++ [(s, m)], Storable e.2 := by
      intro e he
      rcases List.mem_append.1 he with he | he
      · exact h.storable e he
      · obtain rfl := List.mem_singleton.1 he
        exact hm
    rw [run_save hm]
    by_cases hadds : adds s m = []
    · refine ⟨.ok (), db, d, ?_, rfl, ⟨ledger, hfollows, ?_⟩, hstorable⟩
      · rw [hadds, run_perform_commit_empty]
      · funext l
        rw [saved_concat, hadds, hsamples]
        exact (List.append_nil _).symm
    by_cases hok : ledger.isOpen = true ∧ ledger.Admits (adds s m) ∧
        Log.Fits (Batch.ofAdds (adds s m))
    · obtain ⟨hopen, hadmits, hfits⟩ := hok
      obtain ⟨db', d', hrun, hdir, hfollows'⟩ := hfollows.commit_made hadds hopen hadmits hfits
      refine ⟨.ok (), db', d', hrun, hdir, ⟨_, hfollows', ?_⟩, hstorable⟩
      funext l
      rw [saved_concat, ← hsamples]
      rfl
    · obtain ⟨e, hrun⟩ := hfollows.commit_refused hadds hok
      exact ⟨.error e, db, d, hrun, rfl, h⟩
  · obtain ⟨e, hrun⟩ := run_save_refused hm s (db, d)
    exact ⟨.error e, db, d, hrun, rfl, h⟩

/-- Finishing a session changes nothing that is contained, whatever the device
answers. -/
theorem Contains.finish (h : Contains accepted bound db d) (hbound : bound < UInt64.size)
    (s : Session) (answers : List Verdict) : ∃ db' d',
      run (finish s ()) (db, d.facing answers) = (.ok (), db', d') ∧ db'.dir = db.dir ∧
        Contains accepted (bound + 1) db' (d'.facing []) := by
  obtain ⟨ledger, hfollows, hsamples⟩ := h.follows
  obtain ⟨r, db', d', hrun, hdir, hfollows'⟩ :=
    hfollows.sealing hbound [SiteSeries.sessionMatcher s] answers
  let sealing := run (sealMatching [SiteSeries.sessionMatcher s]) (db, d.facing answers)
  have hsealing : ((sealing.1.map fun _ => ()), sealing.2.1, sealing.2.2.facing []) = (r, db', d') :=
    hrun
  obtain ⟨_, hrest⟩ := Prod.mk.inj hsealing
  obtain ⟨hdb, hd⟩ := Prod.mk.inj hrest
  refine ⟨sealing.2.1, sealing.2.2, ?_, hdb ▸ hdir, ?_⟩
  · rw [SessionSeries.finish, run_discard, run_attempt]
    rfl
  · rw [hdb, hd]
    refine ⟨⟨_, hfollows', ?_⟩, h.storable⟩
    rw [← hsamples]
    cases r <;> rfl

theorem Contains.close (h : Contains accepted bound db d) : ∃ db',
    run (discard (Step.attempt Database.close)) (db, d) = (.ok (), db', d) ∧ db'.dir = db.dir ∧
      Contains accepted bound db' d := by
  obtain ⟨ledger, hfollows, hsamples⟩ := h.follows
  obtain ⟨db', hrun, hdir, hfollows'⟩ := hfollows.closing
  have hclose : run Database.close (db, d) = (.ok (), db', d) := hrun
  refine ⟨db', ?_, hdir, ⟨_, hfollows', hsamples⟩, h.storable⟩
  rw [run_discard, run_attempt, hclose]
  rfl

theorem Contains.reopen (h : Contains accepted bound db d) (syncWrite : Bool) : ∃ db' d',
    run (Database.openAt db.dir syncWrite) d = (.ok db', d') ∧ db'.dir = db.dir ∧
      Contains accepted bound db' d' := by
  obtain ⟨ledger, hfollows, hsamples⟩ := h.follows
  obtain ⟨db', d', hrun, _, hdir, hfollows'⟩ := hfollows.reopening syncWrite
  exact ⟨db', d', hrun, hdir, ⟨_, hfollows', hsamples⟩, h.storable⟩

theorem contains_openAt {dir : Path} (h : Vacant dir d) (syncWrite : Bool) : ∃ db d',
    run (Database.openAt dir syncWrite) d = (.ok db, d') ∧ db.dir = dir ∧
      Contains [] 0 db d' := by
  obtain ⟨db, d', hrun, hdir, hfollows⟩ := follows_openAt h syncWrite
  exact ⟨db, d', hrun, hdir, ⟨_, hfollows, rfl⟩, fun _ he => absurd he List.not_mem_nil⟩

end

/-! ## Reading a session -/

/-- Of the samples of a location one belongs to a series, if it is of its call stack. -/
theorem added_location (s : Session) (l : Location) (time : Int64) (stack : CallStack)
    (k : Metric) : Ledger.added (Metric.all.map fun k' =>
        (SiteSeries.labels s l.stack k', SiteSeries.sample time l.usage k'))
      (SiteSeries.labels s stack k) =
      if l.stack = stack then [SiteSeries.sample time l.usage k] else [] := by
  rw [Ledger.added, List.filter_map]
  by_cases hl : l.stack = stack
  · subst hl
    have hone : Metric.all.filter ((fun e : Labels × Sample =>
        decide (e.1 = SiteSeries.labels s l.stack k)) ∘ fun k' =>
          (SiteSeries.labels s l.stack k', SiteSeries.sample time l.usage k')) = [k] := by
      have hsame : ∀ k', SiteSeries.labels s l.stack k' = SiteSeries.labels s l.stack k ↔ k' = k :=
        fun k' => ⟨fun h => (SiteSeries.labels_injective h).2.2, fun h => h ▸ rfl⟩
      have hfilter : Metric.all.filter (fun k' =>
          decide (SiteSeries.labels s l.stack k' = SiteSeries.labels s l.stack k)) =
          Metric.all.filter (fun k' => decide (k' = k)) :=
        List.filter_congr fun k' _ => decide_eq_decide.2 (hsame k')
      refine hfilter.trans ?_
      cases k <;> rfl
    rw [hone, if_pos rfl]
    rfl
  · have hnone : Metric.all.filter ((fun e : Labels × Sample =>
        decide (e.1 = SiteSeries.labels s stack k)) ∘ fun k' =>
          (SiteSeries.labels s l.stack k', SiteSeries.sample time l.usage k')) = [] := by
      rw [List.filter_eq_nil_iff]
      intro k' _ heq
      exact hl (SiteSeries.labels_injective (of_decide_eq_true heq)).2.1
    rw [hnone, if_neg hl]
    rfl

theorem added_flatMap {α : Type} (xs : List α) (f : α → List (Labels × Sample)) (l : Labels) :
    Ledger.added (xs.flatMap f) l = xs.flatMap fun x => Ledger.added (f x) l := by
  induction xs with
  | nil => rfl
  | cons x xs ih => rw [List.flatMap_cons, added_append, ih, List.flatMap_cons]

theorem added_adds (s : Session) (m : Measurement) (stack : CallStack) (k : Metric) :
    Ledger.added (adds s m) (SiteSeries.labels s stack k) =
      (m.locations.filter (·.stack = stack)).map fun l => SiteSeries.sample m.time l.usage k := by
  rw [adds, added_flatMap]
  simp only [added_location]
  induction m.locations with
  | nil => rfl
  | cons l ls ih =>
    rw [List.flatMap_cons, ih]
    by_cases hl : l.stack = stack <;> simp [hl]

/-- A measurement adds to the series of its call stacks only. -/
theorem exists_of_added {s : Session} {m : Measurement} {l : Labels}
    (h : Ledger.added (adds s m) l ≠ []) :
    ∃ x ∈ m.locations, ∃ k, l = SiteSeries.labels s x.stack k := by
  rw [Ledger.added, ne_eq, List.map_eq_nil_iff] at h
  obtain ⟨e, he⟩ := List.exists_mem_of_ne_nil _ h
  obtain ⟨he, heq⟩ := List.mem_filter.1 he
  obtain ⟨x, hx, he⟩ := List.mem_flatMap.1 he
  obtain ⟨k, _, rfl⟩ := List.mem_map.1 he
  exact ⟨x, hx, k, (of_decide_eq_true heq).symm⟩

/-- Sessions with different keys share no series. -/
theorem added_adds_other {s t : Session} (h : t.key ≠ s.key) (m : Measurement) (stack : CallStack)
    (k : Metric) : Ledger.added (adds t m) (SiteSeries.labels s stack k) = [] := by
  apply Classical.byContradiction
  intro hne
  obtain ⟨_, _, _, hlabels⟩ := exists_of_added hne
  exact h (SiteSeries.labels_injective hlabels).1.symm

theorem column_cons (m : Measurement) (ms : List Measurement) (stack : CallStack) (k : Metric) :
    column (m :: ms) stack k =
      ((m.locations.filter (·.stack = stack)).map fun l => SiteSeries.sample m.time l.usage k) ++
        column ms stack k := by
  rw [column, track, List.flatMap_cons, List.map_append, List.map_map]
  rfl

/-- A series of a session holds the column of the measurements accepted of it. -/
theorem saved_labels {s : Session} (hkey : ∀ e ∈ accepted, e.1.key = s.key → e.1 = s)
    (stack : CallStack) (k : Metric) : saved accepted (SiteSeries.labels s stack k) =
      column (acceptedOf s accepted) stack k := by
  induction accepted with
  | nil => rfl
  | cons e accepted ih =>
    obtain ⟨t, m⟩ := e
    obtain ⟨hkeye, hkeys⟩ := List.forall_mem_cons.1 hkey
    have hsaved : saved ((t, m) :: accepted) (SiteSeries.labels s stack k) =
        Ledger.added (adds t m) (SiteSeries.labels s stack k) ++
          saved accepted (SiteSeries.labels s stack k) := by
      rw [saved, List.flatMap_cons, added_append]
      rfl
    rw [hsaved, ih hkeys]
    by_cases ht : t = s
    · subst ht
      have hof : acceptedOf t ((t, m) :: accepted) = m :: acceptedOf t accepted := by
        simp [acceptedOf]
      rw [added_adds, hof, column_cons]
    · have hof : acceptedOf s ((t, m) :: accepted) = acceptedOf s accepted := by
        simp [acceptedOf, ht]
      rw [added_adds_other fun h => ht (hkeye h), hof, List.nil_append]

theorem column_ne_nil_iff (ms : List Measurement) (stack : CallStack) (k : Metric) :
    column ms stack k ≠ [] ↔ stack ∈ callStacks ms := by
  rw [column, ne_eq, List.map_eq_nil_iff]
  constructor
  · intro hne
    obtain ⟨p, hp⟩ := List.exists_mem_of_ne_nil _ hne
    obtain ⟨m, hm, hp⟩ := List.mem_flatMap.1 hp
    obtain ⟨l, hl, _⟩ := List.mem_map.1 hp
    obtain ⟨hl, hstack⟩ := List.mem_filter.1 hl
    exact List.mem_flatMap.2 ⟨m, hm, List.mem_map.2 ⟨l, hl, of_decide_eq_true hstack⟩⟩
  · intro hmem
    obtain ⟨m, hm, hstack⟩ := List.mem_flatMap.1 hmem
    obtain ⟨l, hl, rfl⟩ := List.mem_map.1 hstack
    refine List.ne_nil_of_mem (a := (m.time, l.usage)) (List.mem_flatMap.2 ⟨m, hm, ?_⟩)
    exact List.mem_map.2 ⟨l, List.mem_filter.2 ⟨hl, decide_eq_true rfl⟩, rfl⟩

theorem exists_of_saved {l : Labels} (h : saved accepted l ≠ []) : ∃ e ∈ accepted,
    ∃ stack k, l = SiteSeries.labels e.1 stack k := by
  rw [saved, added_flatMap] at h
  obtain ⟨x, hx⟩ := List.exists_mem_of_ne_nil _ h
  obtain ⟨e, he, hx⟩ := List.mem_flatMap.1 hx
  obtain ⟨a, _, k, hlabels⟩ := exists_of_added (List.ne_nil_of_mem hx)
  exact ⟨e, he, a.stack, k, hlabels⟩

/-- The query for a session finds the columns of what was accepted of it. -/
theorem Contains.recorded [Compressor] (h : Contains accepted bound db d) {s : Session}
    (hkey : ∀ e ∈ accepted, e.1.key = s.key → e.1 = s) : ∃ found,
    run (select [SiteSeries.sessionMatcher s]) (db, d) = (.ok found, db, d) ∧
      Recorded s (acceptedOf s accepted) found := by
  obtain ⟨ledger, hfollows, hsamples⟩ := h.follows
  obtain ⟨found, hrun, hfound⟩ := hfollows.select [SiteSeries.sessionMatcher s]
  rw [hsamples] at hfound
  refine ⟨found, hrun, hfound.sorted.distinct, fun x => ?_⟩
  rw [hfound.mem]
  constructor
  · rintro ⟨hne, hx, haccepts⟩
    obtain ⟨e, he, stack, k, hlabels⟩ := exists_of_saved (hx ▸ hne)
    rw [hlabels, SiteSeries.accepts_labels] at haccepts
    obtain rfl := hkey e he haccepts
    have hcolumn : x.samples = column (acceptedOf e.1 accepted) stack k := by
      rw [hx, hlabels, saved_labels hkey]
    refine ⟨stack, (column_ne_nil_iff _ stack k).1 (hcolumn ▸ hne), k, ?_⟩
    cases x
    simp only [seriesOf] at hlabels hcolumn ⊢
    rw [hlabels, hcolumn]
  · rintro ⟨stack, hstack, k, rfl⟩
    refine ⟨(column_ne_nil_iff _ stack k).2 hstack, (saved_labels hkey stack k).symm, ?_⟩
    exact (SiteSeries.accepts_labels s s stack k).2 rfl

theorem Contains.ascending [Compressor] (h : Contains accepted bound db d) {s : Session}
    (hkey : ∀ e ∈ accepted, e.1.key = s.key → e.1 = s) (stack : CallStack) :
    (track (acceptedOf s accepted) stack).points.Pairwise (·.1 < ·.1) := by
  obtain ⟨ledger, hfollows, hsamples⟩ := h.follows
  have hall := hfollows.ascending (SiteSeries.labels s stack .allocBytes)
  rw [hsamples, saved_labels hkey, column, List.pairwise_map] at hall
  exact hall

theorem mem_acceptedOf {s : Session} {m : Measurement} :
    m ∈ acceptedOf s accepted ↔ (s, m) ∈ accepted := by
  simp [acceptedOf]

theorem acceptedOf_concat (accepted : List (Session × Measurement)) (s : Session)
    (m : Measurement) : acceptedOf s (accepted ++ [(s, m)]) = acceptedOf s accepted ++ [m] := by
  simp [acceptedOf]

theorem acceptedOf_concat_other {s t : Session} (h : t ≠ s)
    (accepted : List (Session × Measurement)) (m : Measurement) :
    acceptedOf t (accepted ++ [(s, m)]) = acceptedOf t accepted := by
  simp [acceptedOf, Ne.symm h]

/-- A session whose accepted call stacks have distinct ids reads as the merge of
their tracks, any other not at all. -/
theorem Contains.read [Compressor] (h : Contains accepted bound db d) {s : Session}
    (hkey : ∀ e ∈ accepted, e.1.key = s.key → e.1 = s) :
    let ms := acceptedOf s accepted
    (DistinctIds ms → ∃ (order : List CallStack) (out : List Measurement),
      SessionSeries.read s (db, d) = .items (out.map .ok) none ∧
        order.Pairwise (·.id < ·.id) ∧ (∀ stack, stack ∈ order ↔ stack ∈ callStacks ms) ∧
        Track.Merge (order.map (track ms)) out) ∧
      (¬ DistinctIds ms → ∃ k : Metric,
        SessionSeries.read s (db, d) = .failed (.duplicateSeries k.name)) := by
  obtain ⟨found, hrun, hfound⟩ := h.recorded hkey
  have hread : SessionSeries.read s (db, d) = SiteHistory.reading found := by
    rw [SessionSeries.read, hrun]
  rw [hread]
  refine ⟨fun hids => ?_, reading_failed hfound⟩
  exact reading_recorded hfound hids
    (fun m hm => (h.storable _ (mem_acceptedOf.1 hm)).exact) (h.ascending hkey)

end HeapTelemetry.SessionSeries
