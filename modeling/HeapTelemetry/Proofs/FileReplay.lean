import HeapTelemetry.Proofs.DurableRuns
import HeapTelemetry.Proofs.Storage.SessionFiles

/-! A session in a file is replayed as it was measured: its windows come out as they are in
memory, and what the replay skips is what was refused when it was measured. -/

namespace HeapTelemetry
open Step SessionSeries

/-! ## What is skipped -/

instance (m : Measurement) : Decidable m.Unrepeated :=
  inferInstanceAs (Decidable (m.locations.map fun l => l.stack.id).Nodup)

namespace SessionWindows

theorem register_unrepeated (w : SessionWindows) {m : Measurement} (h : m.Unrepeated) :
    ∃ w', w.register m = .ok w' := by
  rw [register, (repeated?_eq_none_iff _).2 h]
  exact ⟨_, rfl⟩

/-- Windows refuse what names a call stack twice, whatever they hold. -/
theorem register_repeated (w : SessionWindows) {m : Measurement} (h : ¬ m.Unrepeated) :
    ∃ e, w.register m = .error e := by
  rw [register]
  cases hids : repeated? (m.locations.map fun l => l.stack.id) with
  | some id => exact ⟨_, rfl⟩
  | none => exact absurd ((repeated?_eq_none_iff _).1 hids) h

/-- The measurements that are read and refused when items are registered in order. -/
def skipped : List (Except Error Measurement) → SessionWindows → List Measurement
  | [], _ => []
  | .ok m :: rest, w =>
    match w.register m with
    | .ok w => skipped rest w
    | .error _ => m :: skipped rest w
  | .error e :: rest, w => if e.isRecordLevel then skipped rest w else []

theorem skipped_ok (ms : List Measurement) (w : SessionWindows) :
    skipped (ms.map .ok) w = ms.filter fun m => ¬ m.Unrepeated := by
  induction ms generalizing w with
  | nil => rfl
  | cons m ms ih =>
    rw [List.map_cons, skipped]
    by_cases hm : m.Unrepeated
    · obtain ⟨w', hw'⟩ := register_unrepeated w hm
      simp [hw', hm, ih]
    · obtain ⟨e, he⟩ := register_repeated w hm
      simp [he, hm, ih]

end SessionWindows

namespace Deployment
variable {B W : Type} [Backend B W] {d : Deployment B W}

/-- What an event saves although its request is refused. -/
def refusedBy (d : Deployment B W) : Event → List (Session × Measurement)
  | .request place r answers =>
    match d.streams[place]? with
    | none => []
    | some p =>
      match (run (SaveProtocol.handle Collector.ports r) (p, d.collector.expecting answers)).1 with
      | .ok _ => []
      | .error _ => d.saving place r answers
  | _ => []

/-- What a run saves although its requests are refused. -/
def refused (dataDir : Path) (d : Deployment B W) : List Event → List (Session × Measurement)
  | [] => []
  | event :: events => d.refusedBy event ++ refused dataDir (d.happen dataDir event) events

/-- What is saved is refused if it names a call stack twice. -/
theorem refusedBy_request (d : Deployment B W) (place : Nat) (r : Request) (answers : List Verdict) :
    d.refusedBy (.request place r answers) =
      (d.saving place r answers).filter fun e => ¬ e.2.Unrepeated := by
  rw [refusedBy, saving]
  cases d.streams[place]? with
  | none => rfl
  | some p =>
    simp only [Option.bind_some]
    cases hoffer : p.offering? r with
    | none => simp only [List.filter_nil]; split <;> rfl
    | some offer =>
      obtain ⟨v, m⟩ := offer
      obtain ⟨p', hrun, _⟩ := Collector.run_offering hoffer (d.collector.expecting answers)
      simp only [hrun, Collector.offering]
      cases (run (Storage.save v m) (d.collector.expecting answers).storage).1 with
      | error e => rfl
      | ok u =>
        simp only [Except.bind, Engine.put_answer]
        by_cases hm : m.Unrepeated
        · obtain ⟨w, hw⟩ := SessionWindows.register_unrepeated
            ((d.collector.expecting answers).engine.windows v.session) hm
          simp [Except.map, hw, hm]
        · obtain ⟨e, he⟩ := SessionWindows.register_repeated
            ((d.collector.expecting answers).engine.windows v.session) hm
          simp [Except.map, he, hm]

omit [Backend B W] in
theorem saved_onStream (d : Deployment B W) (place : Nat) (answers : List Verdict)
    (x : Step (SaveProtocol (Saver W) × Collector B) Unit) :
    (d.onStream place answers x).saved = d.saved := by
  rw [onStream]
  cases d.streams[place]? <;> rfl

theorem saved_happen (dataDir : Path) (d : Deployment B W) (event : Event) :
    ((d.happen dataDir event).saved.filter fun e => ¬ e.2.Unrepeated) =
      (d.saved.filter fun e => ¬ e.2.Unrepeated) ++ d.refusedBy event := by
  have hnone : ∀ {d' : Deployment B W}, d'.saved = d.saved →
      (d'.saved.filter fun e => ¬ e.2.Unrepeated) =
        (d.saved.filter fun e => ¬ e.2.Unrepeated) ++ [] := fun hsaved => by
    rw [hsaved, List.append_nil]
  cases event with
  | request place r answers =>
    rw [refusedBy_request, ← List.filter_append]
    rfl
  | close place answers => exact hnone (saved_onStream d place answers _)
  | drop place answers => exact hnone (saved_onStream d place answers _)
  | openLoader s =>
    refine hnone ?_
    rw [happen]
    split <;> rfl
  | closeLoader place =>
    refine hnone ?_
    rw [happen]
    split <;> rfl
  | restart settings now =>
    refine hnone ?_
    rw [happen]
    simp only
    split <;> rfl
  | _ => exact hnone rfl

theorem saved_runAll (dataDir : Path) (d : Deployment B W) (events : List Event) :
    ((d.runAll dataDir events).saved.filter fun e => ¬ e.2.Unrepeated) =
      (d.saved.filter fun e => ¬ e.2.Unrepeated) ++ refused dataDir d events := by
  induction events generalizing d with
  | nil => simp [runAll, refused]
  | cons event events ih =>
    have hnext := ih (d.happen dataDir event)
    rw [saved_happen, List.append_assoc] at hnext
    exact hnext

/-- The refused measurements of a session, from those that were saved of it. -/
theorem acceptedOf_refused (dataDir : Path) {c : Collector B} (events : List Event) (s : Session) :
    acceptedOf s (refused dataDir (started c : Deployment B W) events) =
      (acceptedOf s (runAll dataDir (started c : Deployment B W) events).saved).filter
        fun m => ¬ m.Unrepeated := by
  have hsaved := saved_runAll dataDir (started c : Deployment B W) events
  rw [started, List.filter_nil, List.nil_append] at hsaved
  rw [started, ← hsaved, acceptedOf, acceptedOf, List.filter_map, List.filter_filter,
    List.filter_filter]
  congr 1
  refine List.filter_congr fun e _ => ?_
  rw [Bool.and_comm]
  rfl

/-! ## Files -/

/-- After every run of a collector that keeps its sessions in files and is granted what it
saves, the sessions in memory are those of which this process saved something. The file of
a session has the measurements that were saved of it. A replay skips those that were refused
when they came, and its windows, and so its rates, are those that the session has in memory. -/
theorem files_replay_as_measured (dataDir : Path) {disk : Disk}
    (h : Database.Vacant (dataDir ++ ["sessions"]) disk) (syncWrite : Bool) : ∃ st disk',
    Storage.openAt dataDir syncWrite Registry.empty disk = (.ok st, disk') ∧
      ∀ (c : Collector SessionFiles) (window feedDepth : Nat) (cache : Option TimedCache),
        c.storage = st → c.engine = Engine.initial window feedDepth cache →
          ∀ events : List Event, (∀ event ∈ events, event.SavesGranted) →
            let d : Deployment SessionFiles Handle := runAll dataDir (started c) events
            let e := d.collector.engine
            let st := d.collector.storage
            ∀ s, ((∃ w, e.resident.get? s = some w) ↔ s ∉ d.earlier ∧ acceptedOf s d.saved ≠ []) ∧
              (acceptedOf s d.saved ≠ [] →
                st.read s = .items ((acceptedOf s d.saved).map .ok) none ∧
                SessionWindows.skipped (st.read s).toList (SessionWindows.empty e.window) =
                  acceptedOf s (refused dataDir (started c) events) ∧
                ∃ cold, SessionWindows.registerAll (st.read s).toList
                    (SessionWindows.empty e.window) = .ok cold ∧
                  run (Engine.replay e.window none s) st =
                    (if st.lifecycle.shutDown then .error .shutDown else .ok cold.compute, st) ∧
                  ∀ w, e.resident.get? s = some w → w.Mirrors cold ∧ w.metrics.1 = cold.compute) := by
  obtain ⟨st, disk', hopen, hfiles⟩ := Storage.files_openAt h syncWrite
  refine ⟨st, disk', hopen, fun c window feedDepth cache hstorage hengine events hsaves => ?_⟩
  subst hstorage
  have hstarted : (started c : Deployment SessionFiles Handle).Upheld
      (fun _ => Storage.Files dataDir) (0 + events.length) :=
    upheld_started hfiles (accounted_opened Registry.numbered_empty hopen) hengine
  have hend := hstarted.runAll (Storage.durable_files dataDir) hsaves
  have hrefused := acceptedOf_refused dataDir (c := c) (W := Handle) events
  intro d e st s
  refine ⟨⟨fun ⟨w, hw⟩ => hend.recent s (Table.contains_iff.2 ⟨w, hw⟩), fun ⟨hs, hne⟩ =>
    Option.isSome_iff_exists.1 (hend.current.resident s hs hne)⟩, fun hne => ?_⟩
  have hread := hend.storage.read_saved hne
  have hcold : SessionWindows.registerAll (st.read s).toList (SessionWindows.empty e.window) =
      .ok (SessionWindows.replayed e.window (acceptedOf s d.saved)) := by
    rw [hread]
    exact SessionWindows.registerAll_ok _ _
  refine ⟨hread, ?_, _, hcold, ?_, fun w hw => ?_⟩
  · rw [hread]
    exact (SessionWindows.skipped_ok _ _).trans (hrefused s).symm
  · rw [Storage.run_replay (SessionFiles.run_locate s _), hend.storage.answer_saved hne,
      Engine.digest_items]
  · obtain ⟨hs, _⟩ := hend.recent s (Table.contains_iff.2 ⟨w, hw⟩)
    have hmirrors := hend.current.mirrors s hs
    rw [Engine.windows, hw] at hmirrors
    exact ⟨hmirrors, hmirrors.metrics.1⟩

/-- A call-site; nothing at the same instant; a call stack twice, which is refused; and another
call-site at an earlier instant. -/
def filed : List Measurement :=
  [⟨Timestamp.ofNanos 5000000000, [⟨⟨[⟨"grow", "heap.c", 7⟩]⟩, ⟨2, 64, 0, 0⟩⟩]⟩,
    ⟨Timestamp.ofNanos 5000000000, []⟩,
    ⟨Timestamp.ofNanos 6000000000, [⟨⟨[⟨"grow", "heap.c", 7⟩]⟩, ⟨4, 128, 1, 32⟩⟩,
      ⟨⟨[⟨"grow", "heap.c", 7⟩]⟩, ⟨4, 128, 1, 32⟩⟩]⟩,
    ⟨Timestamp.ofNanos 3000000000, [⟨⟨[⟨"main", "main.c", 1⟩]⟩, ⟨1, 32, 0, 0⟩⟩]⟩]

/-- A stream that makes these measurements and is closed while the device refuses. -/
def filedRun : List Event :=
  .connect :: .request 0 (.description ⟨"cart", "one"⟩) [] ::
    (filed.map fun m => .request 0 (.measurement m) []) ++ [.close 0 [.refuse]]

/-- A collector with files and windows of two measurements. -/
def onFilesBriefly : Collector SessionFiles := { onFiles with engine := Engine.initial 2 16 none }

theorem files_replay_as_measured_refusing :
    (∀ event ∈ filedRun, event.SavesGranted) ∧
      let s : Session := ⟨⟨"cart", "one"⟩, 1⟩
      let d : Deployment SessionFiles Handle := runAll ["data"] (started onFilesBriefly) filedRun
      let e := d.collector.engine
      let items := (d.collector.storage.read s).toList
      acceptedOf s d.saved = filed ∧
        SessionWindows.skipped items (SessionWindows.empty e.window) = (filed.drop 2).take 1 ∧
        ∃ w cold, e.resident.get? s = some w ∧
          SessionWindows.registerAll items (SessionWindows.empty e.window) = .ok cold ∧
          w.Mirrors cold := by
  have hsaves : ∀ event ∈ filedRun, event.SavesGranted := by
    simp [filedRun, filed, Event.SavesGranted]
  obtain ⟨st, disk, hopen, hreplays⟩ := files_replay_as_measured ["data"]
    (Database.vacant_empty ["data", "sessions"]) false
  have hmine : Storage.openAt ["data"] false Registry.empty Disk.empty =
      (.ok onFilesBriefly.storage, onFilesBriefly.storage.disk) := rfl
  rw [hmine] at hopen
  cases hopen
  have hend := hreplays onFilesBriefly 2 16 none rfl rfl filedRun hsaves ⟨⟨"cart", "one"⟩, 1⟩
  have hrun : let d : Deployment SessionFiles Handle :=
        runAll ["data"] (started onFilesBriefly) filedRun
      acceptedOf ⟨⟨"cart", "one"⟩, 1⟩ d.saved = filed ∧ d.earlier = [] ∧
        acceptedOf ⟨⟨"cart", "one"⟩, 1⟩ (refused ["data"]
          (started onFilesBriefly : Deployment SessionFiles Handle) filedRun) =
          (filed.drop 2).take 1 := by decide +kernel
  refine ⟨hsaves, ?_⟩
  generalize runAll ["data"] (started onFilesBriefly : Deployment SessionFiles Handle) filedRun = d
    at hend hrun ⊢
  obtain ⟨hsaved, hearlier, hrefused⟩ := hrun
  have hne : acceptedOf ⟨⟨"cart", "one"⟩, 1⟩ d.saved ≠ [] := by
    rw [hsaved]
    decide
  obtain ⟨w, hw⟩ := hend.1.2 ⟨by rw [hearlier]; exact List.not_mem_nil, hne⟩
  obtain ⟨_, hskipped, cold, hcold, _, hwindows⟩ := hend.2 hne
  exact ⟨hsaved, hskipped.trans hrefused, w, cold, hw, hcold, (hwindows w hw).1⟩

end Deployment
end HeapTelemetry
