import HeapTelemetry.Proofs.Storage.Saves
import HeapTelemetry.Storage

/-! Who gets in to a storage and what that leaves behind, on any backend and on series. A
saver is admitted with a session of its own number, a loader for a session that was
issued, and nobody once shutdown has begun. -/

namespace HeapTelemetry
open Step

/-! ## The registry -/

namespace Registry

/-- The sessions that were ever started. -/
def issued (r : Registry) : List Session := r.entries.map (·.session)

/-- Sessions have numbers of their own, up to the last one given. -/
structure Numbered (r : Registry) : Prop where
  version : r.version = supportedVersion
  distinct : (r.issued.map Session.id).Nodup
  bounded : ∀ s ∈ r.issued, s.id ≤ r.lastId

theorem numbered_empty : Numbered empty := ⟨rfl, List.nodup_nil, fun _ hs => absurd hs List.not_mem_nil⟩

/-- The registry with one session more. -/
def started (r : Registry) (owner : Instance) : Registry :=
  { r with
    lastId := r.lastId + 1
    entries := r.entries ++ [⟨⟨owner, (r.lastId + 1 : Nat)⟩, .ofNanos r.clock, none⟩] }

theorem issued_started (r : Registry) (owner : Instance) :
    (r.started owner).issued = r.issued ++ [⟨owner, (r.lastId + 1 : Nat)⟩] := by
  simp [issued, started]

theorem run_startSession (r : Registry) {owner : Instance} (h : owner.validate = .ok ()) :
    run (startSession owner) r = (.ok ⟨owner, (r.lastId + 1 : Nat)⟩, r.started owner) := by
  rw [startSession, run_bind, run_ofExcept, h]
  rfl

theorem run_startSession_invalid (r : Registry) {owner : Instance} {e : Error}
    (h : owner.validate = .error e) : run (startSession owner) r = (.error e, r) := by
  rw [startSession, run_bind, run_ofExcept, h]

theorem Numbered.started {r : Registry} (h : Numbered r) (owner : Instance) :
    Numbered (r.started owner) where
  version := h.version
  distinct := by
    rw [issued_started, List.map_append, List.map_singleton, nodup_concat_iff h.distinct]
    intro hm
    obtain ⟨s, hs, hid⟩ := List.mem_map.1 hm
    have hle := h.bounded s hs
    simp only [hid] at hle
    omega
  bounded := by
    intro s hs
    rw [issued_started] at hs
    rcases List.mem_append.1 hs with hs | hs
    · have hle := h.bounded s hs
      simp only [Registry.started]
      omega
    · rw [List.mem_singleton.1 hs]
      exact Int.le_refl _

/-- Stopping a session, or failing to, keeps all numbers. -/
theorem run_stopSession (r : Registry) (s : Session) :
    (run (stopSession s) r).2.issued = r.issued ∧ (run (stopSession s) r).2.lastId = r.lastId ∧
      (run (stopSession s) r).2.version = r.version := by
  rw [stopSession, run_bind_ok (run_get r), run_bind, run_ofExcept]
  cases r.lookup s with
  | error e => exact ⟨rfl, rfl, rfl⟩
  | ok e =>
    cases hactive : e.active with
    | false => simp [hactive]
    | true =>
      have hsession : ∀ x : RegistryEntry,
          (if x.session = s then { x with finishedAt := some (.ofNanos r.clock) } else x).session =
            x.session := by
        intro x
        split <;> rfl
      simp [hactive, issued, Function.comp_def, hsession]

theorem Numbered.congr {r r' : Registry} (h : Numbered r) (hissued : r'.issued = r.issued)
    (hlast : r'.lastId = r.lastId) (hversion : r'.version = r.version) : Numbered r' where
  version := hversion.trans h.version
  distinct := hissued ▸ h.distinct
  bounded := by
    intro s hs
    rw [hlast]
    exact h.bounded s (hissued ▸ hs)

/-- Issued sessions are told apart by their keys. -/
theorem Numbered.eq_of_key {r : Registry} (h : Numbered r) {s t : Session} (hs : s ∈ r.issued)
    (ht : t ∈ r.issued) (hkey : s.key = t.key) : s = t :=
  List.inj_on_of_nodup_map h.distinct hs ht (Session.id_eq_of_key_eq hkey)

theorem lookup_issued {r : Registry} {s : Session} (h : s ∈ r.issued) :
    ∃ e, r.lookup s = .ok e := by
  obtain ⟨e, he, rfl⟩ := List.mem_map.1 h
  cases hfind : r.find? e.session with
  | some e' => exact ⟨e', by rw [lookup, hfind]⟩
  | none =>
    rw [find?, List.find?_eq_none] at hfind
    exact absurd (decide_eq_true rfl) (hfind e he)

theorem reopen_numbered {r : Registry} (h : Numbered r) : r.reopen = .ok r := by
  rw [reopen, h.version, if_neg (by decide), ← h.version]

end Registry

/-! ## Admission -/

namespace Lifecycle

@[simp] theorem leave_enter (l : Lifecycle) : l.enter.leave = l := rfl

theorem run_acquire (l : Lifecycle) :
    run acquire l = if l.shutDown then (.error .shutDown, l) else (.ok (), l.enter) := by
  obtain ⟨inFlight, shutDown⟩ := l
  rw [acquire, run_bind_ok (run_modify enter _), run_bind_ok (run_get _)]
  cases shutDown <;> simp [enter, leave, run_bind]

end Lifecycle

/-- Series are found when they are read. -/
theorem SessionSeries.run_locate [Compressor] (s : Session) (x : Database × Disk) :
    (run (Backend.locate s) x).2 = x := rfl

namespace Storage
variable {B W α : Type}

theorem run_onLifecycle (x : Step Lifecycle α) (st : Storage B) :
    run (onLifecycle x) st =
      ((run x st.lifecycle).1, { st with lifecycle := (run x st.lifecycle).2 }) := rfl

theorem run_onRegistry (x : Step Registry α) (st : Storage B) :
    run (onRegistry x) st =
      ((run x st.registry).1, { st with registry := (run x st.registry).2 }) := rfl

/-- The storage with another backend and disk. -/
def holding (st : Storage B) (x : B × Disk) : Storage B := { st with backend := x.1, disk := x.2 }

theorem run_onBackend (x : Step (B × Disk) α) (st : Storage B) :
    run (onBackend x) st = ((run x (st.backend, st.disk)).1,
      st.holding (run x (st.backend, st.disk)).2) := rfl

theorem run_release (st : Storage B) :
    run release st = (.ok (), { st with lifecycle := st.lifecycle.leave }) := rfl

theorem run_releasingOnError_ok {x : Step (Storage B) α} {st t : Storage B} {a : α}
    (h : run x st = (.ok a, t)) : run (releasingOnError x) st = (.ok a, t) := by
  rw [releasingOnError, run_bind, run_attempt, h]
  rfl

theorem run_releasingOnError_error {x : Step (Storage B) α} {st t : Storage B} {e : Error}
    (h : run x st = (.error e, t)) :
    run (releasingOnError x) st = (.error e, { t with lifecycle := t.lifecycle.leave }) := by
  rw [releasingOnError, run_bind, run_attempt, h]
  rfl

/-! ### Any backend -/

section AnyBackend
variable [Backend B W]

/-- A saver gets in with a session of a new number. Nothing but a number is left of one for
which the backend has no room. -/
theorem openSaver_eq (st : Storage B) (owner : Instance) :
    run (openSaver owner) st = if st.lifecycle.shutDown then (.error .shutDown, st)
      else match owner.validate with
        | .error e => (.error e, st)
        | .ok _ =>
          let s : Session := ⟨owner, (st.registry.lastId + 1 : Nat)⟩
          let registry := st.registry.started owner
          match run (Backend.create s) (st.backend, st.disk) with
          | (.ok writer, x) => (.ok ⟨s, writer⟩,
              { st with registry, lifecycle := st.lifecycle.enter }.holding x)
          | (.error _, x) => (.error (.noDataFile s.key),
              { st with registry := (run (Registry.stopSession s) registry).2 }.holding x) := by
  rw [openSaver, run_bind, run_onLifecycle, Lifecycle.run_acquire]
  cases hshut : st.lifecycle.shutDown with
  | true => rfl
  | false =>
    simp only [Bool.false_eq_true, ↓reduceIte]
    cases hvalid : owner.validate with
    | error e =>
      refine run_releasingOnError_error (t := { st with lifecycle := st.lifecycle.enter }) ?_
      rw [run_bind, run_onRegistry, Registry.run_startSession_invalid _ hvalid]
    | ok u =>
      simp only
      cases hcreate : run (Backend.create (⟨owner, (st.registry.lastId + 1 : Nat)⟩ : Session))
          (st.backend, st.disk) with
      | mk r x =>
        cases r with
        | ok writer =>
          refine run_releasingOnError_ok ?_
          rw [run_bind, run_onRegistry, Registry.run_startSession _ hvalid]
          simp only
          rw [prepare, run_bind, run_attempt, run_onBackend]
          simp only [hcreate]
          rfl
        | error e =>
          refine run_releasingOnError_error (t := { st with
            lifecycle := st.lifecycle.enter
            registry := (run (Registry.stopSession ⟨owner, (st.registry.lastId + 1 : Nat)⟩)
              (st.registry.started owner)).2 }.holding x) ?_
          rw [run_bind, run_onRegistry, Registry.run_startSession _ hvalid]
          simp only
          rw [prepare, run_bind, run_attempt, run_onBackend]
          simp only [hcreate]
          rfl

theorem save_eq (st : Storage B) (v : Saver W) (m : Measurement) :
    run (save v m) st = ((run (Backend.save v.session v.writer m) (st.backend, st.disk)).1,
      st.holding (run (Backend.save v.session v.writer m) (st.backend, st.disk)).2) := rfl

/-- Whatever fails on the way, the session is stopped and the saver has left. -/
theorem closeSaver_eq (st : Storage B) (v : Saver W) : (run (closeSaver v) st).2 =
    { st with
      registry := (run (Registry.stopSession v.session) st.registry).2
      lifecycle := st.lifecycle.leave }.holding
        (run (Backend.finish v.session v.writer) (st.backend, st.disk)).2 := by
  rw [closeSaver, run_bind_ok (run_attempt _ _), run_bind_ok (run_attempt _ _),
    run_bind_ok (run_release _), run_bind, run_ofExcept]
  cases (run (onBackend (Backend.finish v.session v.writer)) st).1 with
  | error e => rfl
  | ok u =>
    simp only [run_ofExcept]
    rfl

theorem openLoader_eq (st : Storage B) (s : Session) :
    run (openLoader s) st = if st.lifecycle.shutDown then (.error .shutDown, st)
      else match st.registry.lookup s with
        | .error e => (.error e, st)
        | .ok _ =>
          match run (Backend.locate s) (st.backend, st.disk) with
          | (.ok _, x) => (.ok (), { st with lifecycle := st.lifecycle.enter }.holding x)
          | (.error e, x) => (.error e, st.holding x) := by
  rw [openLoader, run_bind, run_onLifecycle, Lifecycle.run_acquire]
  cases hshut : st.lifecycle.shutDown with
  | true => rfl
  | false =>
    simp only [Bool.false_eq_true, ↓reduceIte]
    cases hlookup : st.registry.lookup s with
    | error e =>
      refine run_releasingOnError_error (t := { st with lifecycle := st.lifecycle.enter }) ?_
      rw [run_bind_ok (run_get _), run_bind, run_discard, run_ofExcept, hlookup]
      rfl
    | ok e =>
      simp only
      cases hlocate : run (Backend.locate s) (st.backend, st.disk) with
      | mk r x =>
        cases r with
        | ok u =>
          refine run_releasingOnError_ok ?_
          rw [run_bind_ok (run_get _), run_bind, run_discard, run_ofExcept, hlookup]
          simp only [Except.map, run_onBackend, hlocate]
        | error e =>
          refine run_releasingOnError_error
            (t := { st with lifecycle := st.lifecycle.enter }.holding x) ?_
          rw [run_bind_ok (run_get _), run_bind, run_discard, run_ofExcept, hlookup]
          simp only [Except.map, run_onBackend, hlocate]

/-- Shutdown lets nobody in any more; it closes the backend, or leaves it as it is. -/
theorem run_shutDown (st : Storage B) :
    (run shutDown st).2 = { st with lifecycle := st.lifecycle.beginShutdown } ∨
      (run shutDown st).2 = { st with lifecycle := st.lifecycle.beginShutdown }.holding
        (run Backend.close (st.backend, st.disk)).2 := by
  rw [shutDown, run_bind_ok (run_onLifecycle _ _), run_bind_ok (run_get _)]
  split
  · exact Or.inr rfl
  · exact Or.inl rfl

theorem shutDown_eq (st : Storage B) : ∃ x, (run shutDown st).2 =
    { st with lifecycle := st.lifecycle.beginShutdown }.holding x := by
  rcases run_shutDown st with hst | hst
  · exact ⟨(st.backend, st.disk), hst⟩
  · exact ⟨_, hst⟩

end AnyBackend

/-! ### Series -/

open SessionSeries

variable [Compressor]

/-- Whoever is refused leaves no trace; whoever is let in gets a session of a new
number. -/
theorem run_openSaver (st : Storage Database) (owner : Instance) :
    run (openSaver owner) st = if st.lifecycle.shutDown then (.error .shutDown, st)
      else match owner.validate with
        | .error e => (.error e, st)
        | .ok _ => (.ok (⟨⟨owner, (st.registry.lastId + 1 : Nat)⟩, ()⟩ : Saver Unit),
          { st with registry := st.registry.started owner, lifecycle := st.lifecycle.enter }) :=
  openSaver_eq st owner

/-- It needs nothing of the device. -/
theorem openSaver_facing {st : Storage Database} (h : st.disk.verdicts = [])
    (answers : List Verdict) (owner : Instance) :
    let r : Except Error (Saver Unit) × Storage Database :=
      run (openSaver owner) { st with disk := st.disk.facing answers }
    (r.1, { r.2 with disk := r.2.disk.facing [] }) = run (openSaver owner) st := by
  have hback : (st.disk.facing answers).facing [] = st.disk := Disk.facing_of_granting h
  simp only [run_openSaver]
  split
  · rw [hback]
  split
  · rw [hback]
  · rw [hback]

theorem run_save (st : Storage Database) (v : Saver Unit) (m : Measurement) :
    run (save v m) st = ((run (SessionSeries.save v.session () m) (st.backend, st.disk)).1,
      { st with
        backend := (run (SessionSeries.save v.session () m) (st.backend, st.disk)).2.1
        disk := (run (SessionSeries.save v.session () m) (st.backend, st.disk)).2.2 }) := rfl

theorem run_closeSaver (st : Storage Database) (v : Saver Unit) :
    (run (closeSaver v) st).2 =
      { backend := (run (finish v.session ()) (st.backend, st.disk)).2.1
        disk := (run (finish v.session ()) (st.backend, st.disk)).2.2
        registry := (run (Registry.stopSession v.session) st.registry).2
        lifecycle := st.lifecycle.leave } := closeSaver_eq st v

/-- A loader is let in for a session that is known. -/
theorem run_openLoader (st : Storage Database) (s : Session) :
    run (openLoader s) st = if st.lifecycle.shutDown then (.error .shutDown, st)
      else match st.registry.lookup s with
        | .ok _ => (.ok (), { st with lifecycle := st.lifecycle.enter })
        | .error e => (.error e, st) := by
  rw [openLoader_eq]
  cases st.registry.lookup s <;> rfl

/-- Reads a session from opening to closing its loader. -/
def load (s : Session) : Step (Storage Database) Reading := do
  openLoader s
  let reading := (← get).read s
  closeLoader
  return reading

theorem run_load {st : Storage Database} {s : Session} (h : s ∈ st.registry.issued) :
    run (load s) st = (if st.lifecycle.shutDown then .error .shutDown
      else .ok (SessionSeries.read s (st.backend, st.disk)), st) := by
  obtain ⟨e, he⟩ := Registry.lookup_issued h
  rw [load, run_bind, run_openLoader, he]
  cases hshut : st.lifecycle.shutDown with
  | true => rfl
  | false => rfl

theorem openAt_eq (dataDir : Path) (syncWrite : Bool) {registry : Registry}
    (h : registry.Numbered) (d : Disk) :
    (openAt dataDir syncWrite registry d : Except Error (Storage Database) × Disk) =
      ((run (Database.openAt (dataDir ++ ["tsdb"]) syncWrite) d).1.map fun db =>
          ⟨db, (run (Database.openAt (dataDir ++ ["tsdb"]) syncWrite) d).2, registry,
            Lifecycle.initial⟩,
        (run (Database.openAt (dataDir ++ ["tsdb"]) syncWrite) d).2) := by
  have hopen : run (Backend.openAt dataDir syncWrite : Step Disk Database) d =
      run (Database.openAt (dataDir ++ ["tsdb"]) syncWrite) d := rfl
  rw [openAt, Registry.reopen_numbered h, hopen]
  cases run (Database.openAt (dataDir ++ ["tsdb"]) syncWrite) d with
  | mk r d' => cases r <;> rfl

end Storage
end HeapTelemetry
