import HeapTelemetry.Proofs.Storage.Admission

/-! Runs of a series storage: sessions come and go, savers offer measurements in
any order, blocks fail to be written, the storage is shut down and opened again.
At every point a session reads as what was accepted of it. -/

namespace HeapTelemetry
open Step Measurement SessionSeries

/-! ## The invariant of a storage -/

namespace Storage

variable [Compressor]

/-- The storage of a data directory contains what was accepted, all of it of
sessions that it issued. -/
structure Serves (dataDir : Path) (accepted : List (Session × Measurement)) (bound : Nat)
    (st : Storage Database) : Prop where
  contains : Contains accepted bound st.backend st.disk
  dir : st.backend.dir = dataDir ++ ["tsdb"]
  numbered : st.registry.Numbered
  issued : ∀ e ∈ accepted, e.1 ∈ st.registry.issued

variable {dataDir : Path} {accepted : List (Session × Measurement)} {bound : Nat}
  {st : Storage Database}

theorem Serves.key (h : Serves dataDir accepted bound st) {s : Session}
    (hs : s ∈ st.registry.issued) : ∀ e ∈ accepted, e.1.key = s.key → e.1 = s :=
  fun e he => h.numbered.eq_of_key (h.issued e he) hs

theorem Serves.granting (h : Serves dataDir accepted bound st) : st.disk.verdicts = [] := by
  obtain ⟨_, hfollows, _⟩ := h.contains.follows
  obtain ⟨_, _, _, hsound, _⟩ := hfollows.sound
  exact hsound.granting

theorem Serves.openSaver (h : Serves dataDir accepted bound st) (owner : Instance) :
    let r := run (Storage.openSaver owner) st
    Serves dataDir accepted bound r.2 ∧ (∀ s ∈ st.registry.issued, s ∈ r.2.registry.issued) ∧
      ∀ v, r.1 = .ok v → v.session ∈ r.2.registry.issued := by
  have hrefused : ∀ e : Error, let r : Except Error (Saver Unit) × Storage Database := (.error e, st)
      Serves dataDir accepted bound r.2 ∧ (∀ s ∈ st.registry.issued, s ∈ r.2.registry.issued) ∧
        ∀ v, r.1 = .ok v → v.session ∈ r.2.registry.issued :=
    fun e => ⟨h, fun s hs => hs, fun v hv => by cases hv⟩
  rw [run_openSaver]
  split
  · exact hrefused _
  split
  · exact hrefused _
  · have hissued := Registry.issued_started st.registry owner
    have hold : ∀ s ∈ st.registry.issued, s ∈ (st.registry.started owner).issued := fun s hs =>
      hissued ▸ List.mem_append_left _ hs
    refine ⟨⟨h.contains, h.dir, h.numbered.started owner, fun e he => hold _ (h.issued e he)⟩,
      hold, fun v hv => ?_⟩
    cases hv
    exact hissued ▸ List.mem_append_right _ List.mem_cons_self

theorem Serves.save (h : Serves dataDir accepted bound st) {v : Saver Unit}
    (hv : v.session ∈ st.registry.issued) (m : Measurement) :
    let r := run (Storage.save v m) st
    r.2.registry = st.registry ∧ Serves dataDir (match r.1 with
      | .ok _ => accepted ++ [(v.session, m)]
      | .error _ => accepted) bound r.2 := by
  obtain ⟨r, db', d', hrun, hdir, hcontains⟩ := h.contains.save v.session m
  rw [run_save, hrun]
  refine ⟨rfl, hcontains, hdir.trans h.dir, h.numbered, fun e he => ?_⟩
  cases r with
  | error _ => exact h.issued e he
  | ok _ =>
    rcases List.mem_append.1 he with he | he
    · exact h.issued e he
    · rw [List.mem_singleton.1 he]
      exact hv

/-- An issued session whose accepted call stacks have distinct ids reads as what was
accepted of it. -/
theorem Serves.read (h : Serves dataDir accepted bound st) {s : Session}
    (hs : s ∈ st.registry.issued) (hids : DistinctIds (acceptedOf s accepted)) : ∃ out,
    SessionSeries.read s (st.backend, st.disk) = .items (out.map .ok) none ∧
      Reassembled (acceptedOf s accepted) out := by
  obtain ⟨order, out, hread, hsorted, hmem, hmerge⟩ := (h.contains.read (h.key hs)).1 hids
  refine ⟨out, hread, ?_⟩
  refine reassembled_of_merge (fun m hm => ?_) ?_ (fun stack hstack => (hmem stack).2 hstack) hmerge
  · exact (h.contains.storable _ (mem_acceptedOf.1 hm)).timed
  · refine hsorted.imp ?_
    rintro a _ hlt rfl
    exact String.lt_irrefl _ hlt

/-- Closing a saver while the device gives these answers. -/
def closeFacing (answers : List Verdict) (v : Saver Unit) (st : Storage Database) :
    Storage Database :=
  let closed := (run (closeSaver v) { st with disk := st.disk.facing answers }).2
  { closed with disk := closed.disk.facing [] }

theorem Serves.closeFacing (h : Serves dataDir accepted bound st) (hbound : bound < UInt64.size)
    (answers : List Verdict) (v : Saver Unit) :
    (st.closeFacing answers v).registry.issued = st.registry.issued ∧
      Serves dataDir accepted (bound + 1) (st.closeFacing answers v) := by
  obtain ⟨db', d', hrun, hdir, hcontains⟩ := h.contains.finish hbound v.session answers
  obtain ⟨hissued, hlast, hversion⟩ := Registry.run_stopSession st.registry v.session
  rw [Storage.closeFacing, run_closeSaver]
  simp only [hrun]
  refine ⟨hissued, hcontains, hdir.trans h.dir, h.numbered.congr hissued hlast hversion, ?_⟩
  intro e he
  rw [hissued]
  exact h.issued e he

theorem Serves.shutDown (h : Serves dataDir accepted bound st) :
    (run Storage.shutDown st).2.registry = st.registry ∧
      Serves dataDir accepted bound (run Storage.shutDown st).2 := by
  rcases run_shutDown st with hst | hst
  · rw [hst]
    exact ⟨rfl, h.contains, h.dir, h.numbered, h.issued⟩
  · obtain ⟨db', hrun, hdir, hcontains⟩ := h.contains.close
    have hclose : run Backend.close (st.backend, st.disk) = (.ok (), db', st.disk) := hrun
    rw [hst, hclose]
    exact ⟨rfl, hcontains, hdir.trans h.dir, h.numbered, h.issued⟩

theorem Serves.reopen (h : Serves dataDir accepted bound st) (syncWrite : Bool) : ∃ st' d',
    openAt dataDir syncWrite st.registry st.disk = (.ok st', d') ∧ st'.registry = st.registry ∧
      st'.lifecycle = Lifecycle.initial ∧ Serves dataDir accepted bound st' := by
  obtain ⟨db', d', hrun, hdir, hcontains⟩ := h.contains.reopen syncWrite
  rw [h.dir] at hrun hdir
  refine ⟨⟨db', d', st.registry, Lifecycle.initial⟩, d', ?_, rfl, rfl, hcontains, hdir, h.numbered,
    h.issued⟩
  rw [openAt_eq dataDir syncWrite h.numbered, hrun]
  rfl

theorem serves_openAt {d : Disk} (h : Database.Vacant (dataDir ++ ["tsdb"]) d) (syncWrite : Bool) :
    ∃ st d', openAt dataDir syncWrite Registry.empty d = (.ok st, d') ∧
      st.registry = Registry.empty ∧ Serves dataDir [] 0 st := by
  obtain ⟨db, d', hrun, hdir, hcontains⟩ := contains_openAt h syncWrite
  refine ⟨⟨db, d', Registry.empty, Lifecycle.initial⟩, d', ?_, rfl, hcontains, hdir,
    Registry.numbered_empty, fun _ he => absurd he List.not_mem_nil⟩
  rw [openAt_eq dataDir syncWrite Registry.numbered_empty, hrun]
  rfl

end Storage

/-! ## Events and runs -/

/-- A storage, the savers that are open, and what it has accepted so far. -/
structure Traffic where
  storage : Storage Database
  savers : List (Saver Unit)
  accepted : List (Session × Measurement)

namespace Traffic

/-- What happens to a storage. Savers are named by their places; the device gives
these answers to a close; who opens the directory again has dropped everything. -/
inductive Event
  | start (owner : Instance)
  | save (place : Nat) (m : Measurement)
  | close (place : Nat) (answers : List Verdict)
  | shutDown
  | reopen (syncWrite : Bool)

/-- How many block numbers an event may use. -/
def Event.seals : Event → Nat
  | .close .. => 1
  | _ => 0

/-- The traffic after an event. A measurement is accepted if its save succeeds. -/
def happen [Compressor] (dataDir : Path) (w : Traffic) : Event → Traffic
  | .start owner =>
    match run (Storage.openSaver owner) w.storage with
    | (.ok saver, st) => { w with storage := st, savers := w.savers ++ [saver] }
    | (.error _, st) => { w with storage := st }
  | .save place m =>
    match w.savers[place]? with
    | none => w
    | some saver =>
      match run (Storage.save saver m) w.storage with
      | (.ok _, st) => { w with storage := st, accepted := w.accepted ++ [(saver.session, m)] }
      | (.error _, st) => { w with storage := st }
  | .close place answers =>
    match w.savers[place]? with
    | none => w
    | some saver =>
      { w with
        storage := w.storage.closeFacing answers saver, savers := w.savers.eraseIdx place }
  | .shutDown => { w with storage := (run Storage.shutDown w.storage).2 }
  | .reopen syncWrite =>
    match Storage.openAt dataDir syncWrite w.storage.registry w.storage.disk with
    | (.ok st, _) => { w with storage := st, savers := [] }
    | (.error _, _) => w

def runAll [Compressor] (dataDir : Path) (w : Traffic) (events : List Event) : Traffic :=
  events.foldl (happen dataDir) w

/-- The storage serves what was accepted, and every saver has an issued session. -/
structure Sound [Compressor] (dataDir : Path) (bound : Nat) (w : Traffic) : Prop where
  serves : w.storage.Serves dataDir w.accepted bound
  savers : ∀ v ∈ w.savers, v.session ∈ w.storage.registry.issued

variable {dataDir : Path} {bound : Nat} {w : Traffic}

/-- Every event keeps the traffic sound. -/
theorem Sound.happen [Compressor] (h : Sound dataDir bound w) {event : Event}
    (hbound : bound + event.seals ≤ UInt64.size) :
    Sound dataDir (bound + event.seals) (w.happen dataDir event) := by
  cases event with
  | start owner =>
    obtain ⟨hserves, hold, hnew⟩ := h.serves.openSaver owner
    rw [Traffic.happen]
    cases hrun : run (Storage.openSaver owner) w.storage with
    | mk r st =>
      rw [hrun] at hserves hold hnew
      cases r with
      | error e => exact ⟨hserves, fun v hv => hold _ (h.savers v hv)⟩
      | ok saver =>
        refine ⟨hserves, fun v hv => ?_⟩
        rcases List.mem_append.1 hv with hv | hv
        · exact hold _ (h.savers v hv)
        · exact List.mem_singleton.1 hv ▸ hnew saver rfl
  | save place m =>
    rw [Traffic.happen]
    cases hsaver : w.savers[place]? with
    | none => exact h
    | some saver =>
      obtain ⟨hregistry, hserves⟩ :=
        h.serves.save (h.savers saver (List.mem_of_getElem? hsaver)) m
      simp only
      cases hrun : run (Storage.save saver m) w.storage with
      | mk r st =>
        rw [hrun] at hserves hregistry
        have hsavers : ∀ v ∈ w.savers, v.session ∈ st.registry.issued := fun v hv =>
          hregistry ▸ h.savers v hv
        cases r with
        | error e => exact ⟨hserves, hsavers⟩
        | ok u => exact ⟨hserves, hsavers⟩
  | close place answers =>
    rw [Traffic.happen]
    cases hsaver : w.savers[place]? with
    | none =>
      exact ⟨{ h.serves with contains := h.serves.contains.mono (Nat.le_succ bound) }, h.savers⟩
    | some saver =>
      obtain ⟨hissued, hserves⟩ := h.serves.closeFacing hbound answers saver
      refine ⟨hserves, fun v hv => ?_⟩
      rw [hissued]
      exact h.savers v (List.mem_of_mem_eraseIdx hv)
  | shutDown =>
    obtain ⟨hregistry, hserves⟩ := h.serves.shutDown
    exact ⟨hserves, fun v hv => hregistry ▸ h.savers v hv⟩
  | reopen syncWrite =>
    obtain ⟨st, d, hrun, _, _, hserves⟩ := h.serves.reopen syncWrite
    rw [Traffic.happen, hrun]
    exact ⟨hserves, fun v hv => absurd hv List.not_mem_nil⟩

/-- So does any number of events, as long as there are block numbers. -/
theorem Sound.runAll [Compressor] (h : Sound dataDir bound w) (events : List Event)
    (hbound : bound + (events.map Event.seals).sum ≤ UInt64.size) :
    Sound dataDir (bound + (events.map Event.seals).sum) (w.runAll dataDir events) := by
  induction events generalizing bound w with
  | nil => exact h
  | cons event events ih =>
    rw [List.map_cons, List.sum_cons, ← Nat.add_assoc] at hbound ⊢
    exact ih (h.happen (Nat.le_trans (Nat.le_add_right _ _) hbound)) hbound

theorem sound_openAt [Compressor] (dataDir : Path) {d : Disk}
    (h : Database.Vacant (dataDir ++ ["tsdb"]) d) (syncWrite : Bool) :
    ∃ st d', Storage.openAt dataDir syncWrite Registry.empty d = (.ok st, d') ∧
      Sound dataDir 0 ⟨st, [], []⟩ := by
  obtain ⟨st, d', hrun, _, hserves⟩ := Storage.serves_openAt h syncWrite
  exact ⟨st, d', hrun, hserves, fun v hv => absurd hv List.not_mem_nil⟩

/-- The measurements that are offered to savers. -/
def offered (events : List Event) : List Measurement :=
  events.filterMap fun
    | .save _ m => some m
    | _ => none

section
variable [Compressor]

theorem offered_of_happen (dataDir : Path) (w : Traffic) (event : Event) :
    ∀ e ∈ (w.happen dataDir event).accepted, e ∈ w.accepted ∨ e.2 ∈ offered [event] := by
  intro e he
  cases event with
  | save place m =>
    rw [happen] at he
    split at he
    · exact Or.inl he
    · split at he
      · rcases List.mem_append.1 he with he | he
        · exact Or.inl he
        · rw [List.mem_singleton.1 he]
          exact Or.inr List.mem_cons_self
      · exact Or.inl he
  | start owner =>
    rw [happen] at he
    split at he <;> exact Or.inl he
  | close place answers =>
    rw [happen] at he
    split at he <;> exact Or.inl he
  | shutDown => exact Or.inl he
  | reopen syncWrite =>
    rw [happen] at he
    split at he <;> exact Or.inl he

/-- Only what was offered is accepted. -/
theorem offered_of_accepted (dataDir : Path) (w : Traffic) (events : List Event) :
    ∀ e ∈ (w.runAll dataDir events).accepted, e ∈ w.accepted ∨ e.2 ∈ offered events := by
  induction events generalizing w with
  | nil => exact fun e he => Or.inl he
  | cons event events ih =>
    have hsplit : offered (event :: events) = offered [event] ++ offered events :=
      List.filterMap_append (l := [event])
    intro e he
    rw [hsplit, List.mem_append, ← or_assoc]
    rcases ih (w.happen dataDir event) e he with he | he
    · exact Or.inl (offered_of_happen dataDir w event e he)
    · exact Or.inr he

theorem distinctIds_accepted {dataDir : Path} {events : List Event}
    (h : DistinctIds (offered events)) (st : Storage Database) (s : Session) :
    DistinctIds (acceptedOf s (runAll dataDir ⟨st, [], []⟩ events).accepted) := by
  have hoffered : ∀ stack ∈ callStacks (acceptedOf s (runAll dataDir ⟨st, [], []⟩ events).accepted),
      stack ∈ callStacks (offered events) := by
    intro stack hstack
    obtain ⟨m, hm, hstack⟩ := List.mem_flatMap.1 hstack
    rcases offered_of_accepted _ _ _ _ (mem_acceptedOf.1 hm) with hm | hm
    · cases hm
    · exact List.mem_flatMap.2 ⟨m, hm, hstack⟩
  exact fun a ha b hb => h a (hoffered a ha) b (hoffered b hb)

/-! ## What is loaded -/

/-- Loading an issued session reads what was accepted of it, unless shutdown has begun. -/
theorem Sound.load (h : Sound dataDir bound w) {s : Session}
    (hs : s ∈ w.storage.registry.issued) (hids : DistinctIds (acceptedOf s w.accepted)) : ∃ out,
    run (Storage.load s) w.storage = (if w.storage.lifecycle.shutDown then .error .shutDown
        else .ok (.items (out.map .ok) none), w.storage) ∧
      Reassembled (acceptedOf s w.accepted) out := by
  obtain ⟨out, hread, hout⟩ := h.serves.read hs hids
  exact ⟨out, by rw [Storage.run_load hs, hread], hout⟩

/-- After every run from a vacant directory, at every point of it, an issued session
loads without an error: at ascending instants exactly the locations that were
accepted for each, whatever else was saved, sealed or opened again meanwhile. -/
theorem load_reassembles_accepted (dataDir : Path) {d : Disk}
    (h : Database.Vacant (dataDir ++ ["tsdb"]) d) (syncWrite : Bool) (events : List Event)
    (hevents : (events.map Event.seals).sum < UInt64.size) : ∃ opened d',
    Storage.openAt dataDir syncWrite Registry.empty d = (.ok opened, d') ∧
      let w := runAll dataDir ⟨opened, [], []⟩ events
      ∀ s ∈ w.storage.registry.issued, DistinctIds (acceptedOf s w.accepted) → ∃ out,
        run (Storage.load s) w.storage = (if w.storage.lifecycle.shutDown then .error .shutDown
          else .ok (.items (out.map .ok) none), w.storage) ∧
          Reassembled (acceptedOf s w.accepted) out := by
  obtain ⟨opened, d', hrun, hsound⟩ := sound_openAt dataDir h syncWrite
  have hend := hsound.runAll events (by omega)
  exact ⟨opened, d', hrun, fun s hs hids => hend.load hs hids⟩

end

/-- The first session of an instance. -/
def firstSession : Session := ⟨⟨"cart", "one"⟩, 1⟩

/-- Two call-sites, the first at a later instant than the second. -/
def laterGrowth : Measurement :=
  ⟨Timestamp.ofNanos 5, [⟨⟨[⟨"grow", "heap.c", 7⟩]⟩, ⟨2, 64, 1, 32⟩⟩]⟩

def earlierStart : Measurement :=
  ⟨Timestamp.ofNanos 3, [⟨⟨[⟨"main", "main.c", 1⟩]⟩, ⟨1, 32, 0, 0⟩⟩]⟩

/-- A call-site is measured at an earlier instant after another at a later one; then a
block cannot be written, and the storage is opened again. -/
def reopenedRun : List Event :=
  [.start ⟨"cart", "one"⟩, .save 0 laterGrowth, .save 0 earlierStart,
    .close 0 [.refuse], .reopen true]

/-- Both measurements are accepted and loaded. -/
theorem load_reassembles_accepted_reopened :
    ((reopenedRun.map Event.seals).sum < UInt64.size ∧ DistinctIds (offered reopenedRun)) ∧
      ∃ opened d', Storage.openAt ["data"] true Registry.empty Disk.empty = (.ok opened, d') ∧
        let w := runAll ["data"] ⟨opened, [], []⟩ reopenedRun
        w.storage.registry.issued = [firstSession] ∧
        w.accepted = [(firstSession, laterGrowth), (firstSession, earlierStart)] ∧
        ∀ s ∈ w.storage.registry.issued, ∃ out,
          run (Storage.load s) w.storage = (if w.storage.lifecycle.shutDown then .error .shutDown
            else .ok (.items (out.map .ok) none), w.storage) ∧
            Reassembled (acceptedOf s w.accepted) out := by
  have hseals : (reopenedRun.map Event.seals).sum < UInt64.size := by decide
  have hids : DistinctIds (offered reopenedRun) := by decide +kernel
  have hwhole : (Storage.openAt (B := Database) ["data"] true Registry.empty Disk.empty).1.toOption.map
      (fun st =>
        let w := runAll ["data"] ⟨st, [], []⟩ reopenedRun
        (w.storage.registry.issued, w.accepted)) =
      some ([firstSession], [(firstSession, laterGrowth), (firstSession, earlierStart)]) := by
    decide +kernel
  obtain ⟨opened, d', hrun, hloads⟩ := load_reassembles_accepted ["data"]
    (Database.vacant_empty ["data", "tsdb"]) true reopenedRun hseals
  rw [hrun] at hwhole
  obtain ⟨hissued, haccepted⟩ := Prod.mk.inj (Option.some.inj hwhole)
  exact ⟨⟨hseals, hids⟩, opened, d', hrun, hissued, haccepted, fun s hs =>
    hloads s hs (distinctIds_accepted hids opened s)⟩

end Traffic
end HeapTelemetry
