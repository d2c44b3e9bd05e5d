import HeapTelemetry.Proofs.Series.OpenDatabase
import HeapTelemetry.Proofs.Storage.Visitors

/-! Whoever shuts a series storage down closes its database in the end, while others may still
want to save. The database is closed after everybody has left, so no saver that is still open
finds it closed. -/

namespace HeapTelemetry
open Step Database SessionSeries

namespace Errand

/-- Nobody closes the database but who has come to shut the storage down. -/
theorem isOpen_deed {e : Errand Unit} (he : e.isQuit = false) {st : Storage Database}
    (h : IsOpen (st.backend, st.disk)) :
    IsOpen ((run e.deed st).2.backend, (run e.deed st).2.disk) := by
  have hbackend : ∀ {α : Type} {x : Step (Database × Disk) α}, Unclosed IsOpen x →
      Upholds (fun s : Storage Database => IsOpen (s.backend, s.disk)) (fun _ => True)
        (Storage.onBackend x) :=
    fun hx => (hx.mono fun _ _ => trivial).on (fun _ hs => hs) fun _ _ _ ht => ht
  have hdeed : Upholds (fun s : Storage Database => IsOpen (s.backend, s.disk)) (fun _ => True)
      e.deed :=
    e.upholds_deed (fun x => (upholds_true x).on (fun _ _ => trivial) fun _ _ hs _ => hs)
      (fun _ => hbackend (upholds_pure ())) (fun s _ => hbackend (unclosed_finish s))
      (fun _ => hbackend (upholds_pure ())) fun hquit => by rw [he] at hquit; cases hquit
  exact (hdeed st h).1

theorem log_quit (st : Storage Database) :
    (run (quit : Errand Unit).deed st).2.backend.log = none :=
  run_close (st.backend, st.disk)

end Errand

namespace Visited
variable {x : Visited Database Unit}

/-- A closed database was closed after a wait that was over, and who has closed it has waited. -/
structure Guarded (x : Visited Database Unit) : Prop where
  orderly : x.crowd.Orderly
  waited : x.storage.backend.log = none → .stopped ∈ x.crowd.tasks
  closed : ∀ v ∈ x.visitors, v.errand = .closed →
    v.gate = .stopped ∧ x.storage.backend.log = none

/-- Whoever is inside finds the database open, and nobody waiting has been let go. -/
theorem Guarded.inside (h : Guarded x) {v : Visitor Unit} (hv : v ∈ x.visitors)
    (hgate : v.gate = .inside) :
    .stopped ∉ x.crowd.tasks ∧ IsOpen (x.storage.backend, x.storage.disk) := by
  have hstopped : .stopped ∉ x.crowd.tasks := fun hs => by
    have hout := h.orderly.vacated hs _ (List.mem_map_of_mem hv)
    rw [hgate] at hout
    cases hout
  exact ⟨hstopped, Option.isSome_iff_ne_none.2 fun hnone => hstopped (h.waited hnone)⟩

/-- A deed leaves the database open, or it is the closing of one that has waited. -/
theorem Guarded.deed (h : Guarded x) {v : Visitor Unit} (hv : v ∈ x.visitors)
    (hwork : v.isAtWork = true) :
    let log := (Step.run v.errand.deed x.storage).2.backend.log
    (v.gate = .inside ∧ v.errand.isQuit = false ∧ log ≠ none) ∨
      (v.gate = .stopped ∧ log = none) := by
  have hgate := beq_iff_eq.1 hwork
  cases hquit : v.errand.isQuit with
  | false =>
    rw [hquit] at hgate
    have hopen := Errand.isOpen_deed hquit (h.inside hv hgate).2
    exact .inl ⟨hgate, rfl, Option.isSome_iff_ne_none.1 hopen⟩
  | true =>
    rw [hquit] at hgate
    refine .inr ⟨hgate, ?_⟩
    cases herrand : v.errand with
    | quit => exact Errand.log_quit x.storage
    | closed => exact (h.closed v hv herrand).2
    | _ => rw [herrand] at hquit; cases hquit

theorem Guarded.work (h : Guarded x) {place : Nat} {v : Visitor Unit}
    (hv : x.visitors[place]? = some v) (hwork : v.isAtWork = true) :
    let st := (Step.run v.errand.deed x.storage).2
    (st.backend.log = none → .stopped ∈ x.crowd.tasks) ∧
      ∀ u ∈ x.visitors.set place { v with errand := v.errand.after x.storage },
        u.errand = .closed → u.gate = .stopped ∧ st.backend.log = none := by
  have hmem := List.mem_of_getElem? hv
  rcases h.deed hmem hwork with ⟨hinside, hquit, hlog⟩ | ⟨hstopped, hlog⟩
  · refine ⟨fun hnone => absurd hnone hlog, fun u hu herrand => ?_⟩
    rcases List.mem_or_eq_of_mem_set hu with hu | rfl
    · have hwaited := (h.closed u hu herrand).1
      exact absurd (hwaited ▸ List.mem_map_of_mem hu) (h.inside hmem hinside).1
    · have hafter := Errand.isQuit_after v.errand x.storage
      rw [hquit, show v.errand.after x.storage = .closed from herrand] at hafter
      cases hafter
  · refine ⟨fun _ => hstopped ▸ List.mem_map_of_mem hmem, fun u hu herrand => ?_⟩
    rcases List.mem_or_eq_of_mem_set hu with hu | rfl
    · exact ⟨(h.closed u hu herrand).1, hlog⟩
    · exact ⟨hstopped, hlog⟩

/-- A saver that is open finds the database open, and no wait is over. -/
theorem Guarded.saver (h : Guarded x) {v : Visitor Unit} (hv : v ∈ x.visitors) {s : Saver Unit}
    (hs : v.saver? = some s) :
    .stopped ∉ x.crowd.tasks ∧ IsOpen (x.storage.backend, x.storage.disk) := by
  refine h.inside hv ?_
  simp only [Visitor.saver?] at hs
  split at hs
  · rfl
  · cases hs

theorem Guarded.happen (h : Guarded x) (e : Event) : Guarded (x.happen e) := by
  have horderly : (x.happen e).crowd.Orderly := crowd_happen x e ▸ h.orderly.run _
  have hstays : .stopped ∈ x.crowd.tasks → .stopped ∈ (x.happen e).crowd.tasks := fun hs =>
    crowd_happen x e ▸ Lifecycle.Crowd.stopped_run hs _
  -- the database is all that is left to look at: the gate has its account already
  suffices hkept : ((x.happen e).storage.backend.log = none → .stopped ∈ x.crowd.tasks) ∧
      ∀ v ∈ (x.happen e).visitors, v.errand = .closed →
        v.gate = .stopped ∧ (x.happen e).storage.backend.log = none from
    ⟨horderly, fun hnone => hstays (hkept.1 hnone), hkept.2⟩
  cases e with
  | record owner | consult s | quit =>
    refine ⟨h.waited, fun v hv herrand => ?_⟩
    rcases List.mem_append.1 hv with hv | hv
    · exact h.closed v hv herrand
    · rw [List.mem_singleton.1 hv] at herrand
      cases herrand
  | gate place =>
    simp only [Visited.happen]
    split
    · rename_i v hv
      refine ⟨h.waited, fun u hu herrand => ?_⟩
      rcases List.mem_or_eq_of_mem_set hu with hu | rfl
      · exact h.closed u hu herrand
      · obtain ⟨hgate, hlog⟩ := h.closed v (List.mem_of_getElem? hv) herrand
        simp only [hgate]
        exact ⟨rfl, hlog⟩
    · exact ⟨h.waited, h.closed⟩
  | work place =>
    simp only [Visited.happen]
    split
    · rename_i v hv
      split
      · rename_i hwork
        exact h.work hv hwork
      · exact ⟨h.waited, h.closed⟩
    · exact ⟨h.waited, h.closed⟩
  | save place m =>
    simp only [Visited.happen]
    split
    · rename_i s hs
      obtain ⟨v, hv, hs⟩ := Option.bind_eq_some_iff.1 hs
      obtain ⟨hwaiting, hopen⟩ := h.saver (List.mem_of_getElem? hv) hs
      have hlog : (Step.run (Storage.save s m) x.storage).2.backend.log ≠ none :=
        Option.isSome_iff_ne_none.1 (unclosed_save s.session m _ hopen).1
      refine ⟨fun hnone => absurd hnone hlog, fun u hu herrand => ?_⟩
      exact absurd ((h.closed u hu herrand).1 ▸ List.mem_map_of_mem hu) hwaiting
    · exact ⟨h.waited, h.closed⟩

theorem Guarded.run (h : Guarded x) (events : List Event) : Guarded (run events x) := by
  induction events generalizing x with
  | nil => exact h
  | cons e events ih => exact ih (h.happen e)

/-- Nobody has come yet to a storage that was just opened, and its database is open. -/
theorem guarded_openAt {dataDir : Path} {syncWrite : Bool} {registry : Registry}
    {disk disk' : Disk} {st : Storage Database}
    (h : Storage.openAt dataDir syncWrite registry disk = (.ok st, disk')) :
    (opened st : Visited Database Unit).crowd = .initial ∧ Guarded (opened st) := by
  obtain ⟨hlifecycle, hopen⟩ : st.lifecycle = Lifecycle.initial ∧ IsOpen (st.backend, st.disk) := by
    rw [Storage.openAt] at h
    split at h
    · cases h
    · split at h
      · rename_i hopen
        cases h
        exact ⟨rfl, isOpen_openAt hopen⟩
      · cases h
  have hcrowd : (opened st : Visited Database Unit).crowd = .initial := by
    simp only [crowd, shared, opened, hlifecycle]
    rfl
  exact ⟨hcrowd, hcrowd ▸ Lifecycle.Crowd.orderly_initial,
    fun hnone => absurd hnone (Option.isSome_iff_ne_none.1 hopen),
    fun _ hv => absurd hv List.not_mem_nil⟩

/-- However many tasks let themselves in, leave, and shut a lifecycle down, and however their
atomic steps are interleaved: once a shutdown is over nobody is inside and nobody gets in any
more, whoever leaves is counted, and the count is that of those inside when nobody is on the
way in. A shutdown is over as soon as all have left and it gets to run. So no saver that is
open ever finds the database of its storage closed, however it is shut down meanwhile. -/
theorem shutdown_never_overtakes :
    (∀ events, let c := Lifecycle.Crowd.run events .initial
      (.stopped ∈ c.tasks → ∀ later, ∀ t ∈ (Lifecycle.Crowd.run later c).tasks,
        t ≠ .inside ∧ t ≠ .admitted) ∧
      (∀ t ∈ c.tasks, t = .inside ∨ t = .refused → 0 < c.shared.lifecycle.inFlight) ∧
      ((∀ t ∈ c.tasks, t.isEntering = false) →
        c.shared.lifecycle.inFlight = c.tasks.countP (· = .inside)) ∧
      ((∀ t ∈ c.tasks, t.willWake = false) → ∀ place t, c.tasks[place]? = some t →
        t = .stopping ∨ t.hasBegun = true → ∃ n, (Lifecycle.Crowd.run
          (List.replicate n (.step place)) c).tasks[place]? = some .stopped)) ∧
    ∀ dataDir syncWrite registry disk disk' (st : Storage Database),
      Storage.openAt dataDir syncWrite registry disk = (.ok st, disk') →
      ∀ events, let x := run events (opened st)
        x.crowd = Lifecycle.Crowd.run (events.flatMap Event.gates) .initial ∧
        (∀ v ∈ x.visitors, ∀ s ∈ v.saver?, x.storage.backend.log ≠ none ∧
          (∀ m, (Step.run (Storage.save s m) x.storage).1 ≠ .error .databaseClosed) ∧
          (Step.run (sealMatching [SiteSeries.sessionMatcher s.session])
            (x.storage.backend, x.storage.disk)).1 ≠ .error .databaseClosed) ∧
        ∀ v ∈ x.visitors, v.errand = .closed → x.storage.backend.log = none := by
  constructor
  · intro events
    have horderly := Lifecycle.Crowd.orderly_run events
    refine ⟨fun hstopped later t ht => ?_, fun t ht hleaves => ?_, horderly.inFlight_eq,
      fun hnobody place t ht hshutdown => horderly.stops hnobody ht hshutdown⟩
    · have hout := horderly.nobody_admitted hstopped later t ht
      constructor <;> rintro rfl <;> cases hout
    · exact horderly.inFlight_pos ht (by rcases hleaves with rfl | rfl <;> rfl)
  · intro dataDir syncWrite registry disk disk' st hopened events
    obtain ⟨hcrowd, hstart⟩ := guarded_openAt hopened
    have hend := hstart.run events
    refine ⟨hcrowd ▸ crowd_run events _, fun v hv s hs => ?_,
      fun v hv herrand => (hend.closed v hv herrand).2⟩
    obtain ⟨_, hopen⟩ := hend.saver hv hs
    exact ⟨Option.isSome_iff_ne_none.1 hopen,
      fun m hclosed => (unclosed_save s.session m _ hopen).2 _ hclosed rfl,
      fun hclosed => (unclosed_sealMatching _ _ hopen).2 _ hclosed rfl⟩

/-- A user is inside and another on the way in when a shutdown begins to wait, and it wakes up
when both have left. -/
def overlapping : List Lifecycle.Event :=
  [.acquire, .step 0, .step 0, .step 0, .shutDown, .step 1, .acquire, .step 2, .step 1, .step 1,
    .step 0, .step 2, .step 2, .step 2, .step 1, .step 1, .step 1]

/-- A series storage in a vacant directory. -/
def vacant : Storage Database where
  backend := ⟨["data", "tsdb"], Head.empty, [], 0,
    some ⟨["data", "tsdb", "wal.log"], ⟨["data", "tsdb", "wal.log"], 0⟩, true, 0, false⟩⟩
  disk := ⟨[(["data"], .directory), (["data", "tsdb"], .directory),
    (["data", "tsdb", "blocks"], .directory), (["data", "tsdb", "wal.log"], .file 0 [])], 1, []⟩
  registry := Registry.empty
  lifecycle := Lifecycle.initial

/-- A saver is opened, and a shutdown of its storage waits for it. -/
def awaited : List Event :=
  [.record ⟨"cart", "one"⟩, .gate 0, .gate 0, .gate 0, .work 0, .work 0,
    .quit, .gate 1, .gate 1, .gate 1]

def awaitedSaver : Saver Unit := ⟨⟨⟨"cart", "one"⟩, 1⟩, ()⟩

/-- The saver is closed, and the shutdown goes on. -/
def released : List Event :=
  [.work 0, .work 0, .gate 0, .gate 0, .gate 1, .gate 1, .gate 1, .work 1]

theorem shutdown_never_overtakes_overlapping :
    (let c := Lifecycle.Crowd.run overlapping .initial;
      .stopped ∈ c.tasks ∧ ∀ t ∈ (Lifecycle.Crowd.run
        [.acquire, .step 3, .step 3, .step 3] c).tasks, t ≠ .inside ∧ t ≠ .admitted) ∧
    (let c := Lifecycle.Crowd.run (overlapping.take 10) .initial;
      .inside ∈ c.tasks ∧ 0 < c.shared.lifecycle.inFlight) ∧
    (let c := Lifecycle.Crowd.run (overlapping.take 6) .initial;
      (∀ t ∈ c.tasks, t.isEntering = false) ∧
        c.shared.lifecycle.inFlight = c.tasks.countP (· = .inside)) ∧
    (let c := Lifecycle.Crowd.run (overlapping.take 14) .initial;
      (∀ t ∈ c.tasks, t.willWake = false) ∧ c.tasks[1]? = some (.asleep 0) ∧
        ∃ n, (Lifecycle.Crowd.run (List.replicate n (.step 1)) c).tasks[1]? = some .stopped) ∧
    Storage.openAt ["data"] true Registry.empty Disk.empty = (.ok vacant, vacant.disk) ∧
    (let x := run awaited (opened vacant);
      ⟨.inside, .saving awaitedSaver⟩ ∈ x.visitors ∧ x.storage.backend.log ≠ none ∧
        (∀ m, (Step.run (Storage.save awaitedSaver m) x.storage).1 ≠ .error .databaseClosed) ∧
        (Step.run (sealMatching [SiteSeries.sessionMatcher awaitedSaver.session])
          (x.storage.backend, x.storage.disk)).1 ≠ .error .databaseClosed) ∧
    let x := run (awaited ++ released) (opened vacant)
    ⟨.stopped, .closed⟩ ∈ x.visitors ∧ x.storage.backend.log = none := by
  obtain ⟨htasks, hstorages⟩ := shutdown_never_overtakes
  have hopened : Storage.openAt ["data"] true Registry.empty Disk.empty =
      (.ok vacant, vacant.disk) := by with_unfolding_all rfl
  have hstopped : .stopped ∈ (Lifecycle.Crowd.run overlapping .initial).tasks := by decide
  have hinside : .inside ∈ (Lifecycle.Crowd.run (overlapping.take 10) .initial).tasks := by decide
  have hnobody : ∀ t ∈ (Lifecycle.Crowd.run (overlapping.take 6) .initial).tasks,
      t.isEntering = false := by decide
  have hgone : ∀ t ∈ (Lifecycle.Crowd.run (overlapping.take 14) .initial).tasks,
      t.willWake = false := by decide
  have hwaits : (Lifecycle.Crowd.run (overlapping.take 14) .initial).tasks[1]? =
      some (.asleep 0) := by decide
  have hsaver : (run awaited (opened vacant)).visitors[0]? =
      some ⟨.inside, .saving awaitedSaver⟩ := rfl
  have hclosed : (run (awaited ++ released) (opened vacant)).visitors[1]? =
      some ⟨.stopped, .closed⟩ := rfl
  obtain ⟨_, hopen, _⟩ := hstorages _ _ _ _ _ _ hopened awaited
  obtain ⟨_, _, hquit⟩ := hstorages _ _ _ _ _ _ hopened (awaited ++ released)
  exact ⟨⟨hstopped, (htasks _).1 hstopped _⟩, ⟨hinside, (htasks _).2.1 _ hinside (.inl rfl)⟩,
    ⟨hnobody, (htasks _).2.2.1 hnobody⟩,
    ⟨hgone, hwaits, (htasks _).2.2.2 hgone 1 _ hwaits (.inr rfl)⟩, hopened,
    ⟨List.mem_of_getElem? hsaver, hopen _ (List.mem_of_getElem? hsaver) _ rfl⟩,
    List.mem_of_getElem? hclosed, hquit _ (List.mem_of_getElem? hclosed) rfl⟩

end Visited
end HeapTelemetry
