import HeapTelemetry.Proofs.Replay
import HeapTelemetry.Proofs.Residents
import HeapTelemetry.Proofs.Storage.Traffic
import HeapTelemetry.Proofs.Streams

/-! Runs of a collector: streams come, describe themselves, measure and end; sessions
are queried, listened to and forgotten; time passes, and the collector is shut down and
started again. At every point the storage serves what was accepted, and the windows of
every session that was not forgotten mirror it. -/

namespace HeapTelemetry
open Step Measurement SessionSeries SessionWindows

/-- The collector on a device that gives these answers next. -/
def Collector.facing (answers : List Verdict) (c : Collector Database) : Collector Database :=
  { c with storage := { c.storage with disk := c.storage.disk.facing answers } }

/-- A collector and its streams, what was accepted so far, and the sessions that are not
to be resident. -/
structure Service where
  collector : Collector Database
  streams : List (SaveProtocol (Saver Unit))
  accepted : List (Session × Measurement)
  forgotten : List Session

namespace Service

/-! ## Events and runs -/

/-- What happens to a collector. Streams are named by their places. The device gives its
answers to what closes a saver and grants everything else. Listeners change the feed as
they like; who starts the collector again has dropped everything. -/
inductive Event
  | connect
  | request (place : Nat) (r : Request) (answers : List Verdict)
  | close (place : Nat) (answers : List Verdict)
  | query (cancelAfter : Option Nat) (s : Session)
  | listen (change : Feed Report → Feed Report)
  | forget (s : Session)
  | advance (duration : Nat)
  | shutDown
  | restart (settings : Settings) (now : Nat)

/-- What of an offer is accepted: the measurement, if saving it succeeds. -/
def accepting (c : Collector Database) (v : Saver Unit) (m : Measurement) :
    List (Session × Measurement) :=
  match (run (Storage.save v m) c.storage).1 with
  | .ok _ => [(v.session, m)]
  | .error _ => []

/-- The service after an event. -/
def happen (dataDir : Path) (w : Service) : Event → Service
  | .connect => { w with streams := w.streams ++ [SaveProtocol.initial] }
  | .request place r answers =>
    match w.streams[place]? with
    | none => w
    | some p =>
      match p.offering? r with
      | some (v, m) =>
        let (p, c) := (run (SaveProtocol.handle Collector.ports r) (p, w.collector)).2
        { w with
          collector := c, streams := w.streams.set place p
          accepted := w.accepted ++ accepting w.collector v m }
      | none =>
        let (p, c) := (run (SaveProtocol.handle Collector.ports r) (p, w.collector.facing answers)).2
        { w with collector := c.facing [], streams := w.streams.set place p }
  | .close place answers =>
    match w.streams[place]? with
    | none => w
    | some p =>
      let (p, c) := (run (SaveProtocol.close Collector.ports) (p, w.collector.facing answers)).2
      { w with collector := c.facing [], streams := w.streams.set place p }
  | .query cancelAfter s => { w with collector := (run (Collector.metrics cancelAfter s) w.collector).2 }
  | .listen change =>
    let engine := w.collector.engine
    { w with collector := { w.collector with engine := { engine with feed := change engine.feed } } }
  | .forget s =>
    { w with
      collector := { w.collector with engine := (w.collector.engine.forget s).2 }
      forgotten := s :: w.forgotten }
  | .advance duration =>
    { w with collector := { w.collector with engine := w.collector.engine.advance duration } }
  | .shutDown => { w with collector := (run Collector.shutDown w.collector).2 }
  | .restart settings now =>
    let storage := w.collector.storage
    match Collector.start settings dataDir now storage.registry storage.disk with
    | (.ok c, _) => ⟨c, [], w.accepted, storage.registry.issued⟩
    | (.error _, _) => w

def runAll (dataDir : Path) (w : Service) (events : List Event) : Service :=
  events.foldl (happen dataDir) w

/-! ## The invariant -/

/-- The storage serves what was accepted, every stream saves to an issued session, and
the windows are current. -/
structure Sound (dataDir : Path) (bound : Nat) (w : Service) : Prop where
  serves : w.collector.storage.Serves dataDir w.accepted bound
  streams : ∀ p ∈ w.streams, ∀ v, p.saver? = some v →
    v.session ∈ w.collector.storage.registry.issued
  current : w.collector.engine.Current w.accepted w.forgotten

variable {dataDir : Path} {bound : Nat} {w : Service}

theorem Sound.mono (h : Sound dataDir bound w) {bound' : Nat} (hle : bound ≤ bound') :
    Sound dataDir bound' w :=
  { h with serves := { h.serves with contains := h.serves.contains.mono hle } }

/-! ## Streams -/

theorem facing_nil {c : Collector Database} (h : c.storage.disk.verdicts = []) :
    c.facing [] = c := by
  rw [Collector.facing, Disk.facing_of_granting h]

/-- Ending a stream closes its saver, whatever the device answers. -/
theorem Sound.released (h : Sound dataDir bound w) (hbound : bound < UInt64.size)
    (answers : List Verdict) (saver : Option (Saver Unit)) : ∃ st,
    ((w.collector.facing answers).released saver).facing [] = { w.collector with storage := st } ∧
      st.registry.issued = w.collector.storage.registry.issued ∧
      st.Serves dataDir w.accepted (bound + 1) := by
  cases saver with
  | none =>
    refine ⟨w.collector.storage, facing_nil h.serves.granting, rfl, ?_⟩
    exact (h.mono (Nat.le_succ bound)).serves
  | some v =>
    obtain ⟨hissued, hserves⟩ := h.serves.closeFacing hbound answers v
    exact ⟨w.collector.storage.closeFacing answers v, rfl, hissued, hserves⟩

/-- Opening a saver needs nothing of the device. -/
theorem Sound.opened (h : Sound dataDir bound w) (answers : List Verdict) (owner : Instance) :
    let st := (w.collector.facing answers).storage
    (run (Storage.openSaver owner) st).1 = (run (Storage.openSaver owner) w.collector.storage).1 ∧
      ({ w.collector.facing answers with storage := (run (Storage.openSaver owner) st).2 } :
        Collector Database).facing [] =
        { w.collector with storage := (run (Storage.openSaver owner) w.collector.storage).2 } := by
  obtain ⟨hanswer, hstorage⟩ :=
    Prod.mk.inj (Storage.openSaver_facing h.serves.granting answers owner)
  exact ⟨hanswer, congrArg (fun st => { w.collector with storage := st }) hstorage⟩

variable {p : SaveProtocol (Saver Unit)} {place : Nat}

theorem forall_mem_set {P : SaveProtocol (Saver Unit) → Prop}
    {streams : List (SaveProtocol (Saver Unit))}
    (h : ∀ p ∈ streams, P p) (place : Nat) (hp : P p) : ∀ x ∈ streams.set place p, P x := by
  intro x hx
  rcases List.mem_or_eq_of_mem_set hx with hx | rfl
  · exact h x hx
  · exact hp

/-- A measurement that is offered is kept by the storage and by the windows, or by
neither. -/
theorem Sound.offering (h : Sound dataDir bound w) {v : Saver Unit}
    (hv : v.session ∈ w.collector.storage.registry.issued) (m : Measurement) :
    let c := w.collector.offered v m
    c.storage.registry = w.collector.storage.registry ∧
      c.storage.Serves dataDir (w.accepted ++ accepting w.collector v m) bound ∧
      c.engine.Current (w.accepted ++ accepting w.collector v m) w.forgotten := by
  obtain ⟨hregistry, hserves⟩ := h.serves.save hv m
  rw [Collector.offered, accepting]
  cases hrun : run (Storage.save v m) w.collector.storage with
  | mk r st =>
    rw [hrun] at hregistry hserves
    cases r with
    | error e =>
      simp only [List.append_nil]
      exact ⟨hregistry, hserves, h.current⟩
    | ok u => exact ⟨hregistry, hserves, (h.current.put v.session m).2⟩

theorem Sound.request (h : Sound dataDir bound w) (hbound : bound < UInt64.size) (r : Request)
    (answers : List Verdict) :
    Sound dataDir (bound + 1) (w.happen dataDir (.request place r answers)) := by
  rw [happen]
  cases hp : w.streams[place]? with
  | none => exact h.mono (Nat.le_succ bound)
  | some p =>
    have hmem := List.mem_of_getElem? hp
    simp only
    cases hoffer : p.offering? r with
    | some offer =>
      obtain ⟨v, m⟩ := offer
      have hsaver : p.saver? = some v := by
        rw [SaveProtocol.saver?, (SaveProtocol.offering?_eq_some hoffer).1]
      obtain ⟨p', hrun, hp'⟩ := Collector.run_offering hoffer w.collector
      obtain ⟨hregistry, hserves, hcurrent⟩ := h.offering (h.streams p hmem v hsaver) m
      simp only [hrun]
      refine Sound.mono ?_ (Nat.le_succ bound)
      refine ⟨hserves, ?_, hcurrent⟩
      simp only [hregistry]
      exact forall_mem_set h.streams place (hp' ▸ h.streams p hmem)
    | none =>
      simp only
      rcases Collector.run_other hoffer (w.collector.facing answers) with hrun | ⟨_, owner, p', hrun, hp'⟩
      · obtain ⟨st, hc, hissued, hserves⟩ := h.released hbound answers p.saver?
        simp only [hrun, hc]
        refine ⟨hserves, ?_, h.current⟩
        simp only [hissued]
        exact forall_mem_set h.streams place fun v hv => by cases hv
      · obtain ⟨hresult, hc⟩ := h.opened answers owner
        obtain ⟨hserves, hold, hnew⟩ := h.serves.openSaver owner
        simp only [hrun, hc]
        refine Sound.mono ?_ (Nat.le_succ bound)
        refine ⟨hserves, ?_, h.current⟩
        refine forall_mem_set (fun x hx v hv => hold _ (h.streams x hx v hv)) place fun v hv => ?_
        exact hnew v (toOption_eq_some.1 ((hresult ▸ hp').symm.trans hv))

theorem Sound.close (h : Sound dataDir bound w) (hbound : bound < UInt64.size)
    (answers : List Verdict) :
    Sound dataDir (bound + 1) (w.happen dataDir (.close place answers)) := by
  rw [happen]
  cases hp : w.streams[place]? with
  | none => exact h.mono (Nat.le_succ bound)
  | some p =>
    obtain ⟨st, hc, hissued, hserves⟩ := h.released hbound answers p.saver?
    have hrun := Collector.run_close p (w.collector.facing answers)
    simp only [hrun, hc]
    refine ⟨hserves, ?_, h.current⟩
    simp only [hissued]
    exact forall_mem_set h.streams place fun v hv => by cases hv

/-! ## Queries, shutdown and restart -/

/-- A collector that is started on what another one left serves the same, and nothing
is resident. -/
theorem Sound.restart (h : Sound dataDir bound w) {settings : Settings} (now : Nat)
    (hvalid : settings.validate = .ok ()) : ∃ st d,
    Collector.start settings dataDir now w.collector.storage.registry w.collector.storage.disk =
      (.ok ⟨settings, st, Engine.initial settings.metrics.window
        settings.metrics.subscriptionBuffer (Collector.newCache settings now), false⟩, d) ∧
      st.registry = w.collector.storage.registry ∧ st.lifecycle = Lifecycle.initial ∧
      st.Serves dataDir w.accepted bound := by
  obtain ⟨st, d, hrun, hst⟩ := h.serves.reopen settings.storage.syncWrite
  refine ⟨st, d, ?_, hst⟩
  rw [Collector.start, hvalid]
  simp only [hrun]

/-- Every event keeps the service sound. -/
theorem Sound.happen (h : Sound dataDir bound w) (event : Event) (hbound : bound < UInt64.size) :
    Sound dataDir (bound + 1) (w.happen dataDir event) := by
  cases event with
  | request place r answers => exact h.request hbound r answers
  | close place answers => exact h.close hbound answers
  | connect =>
    refine Sound.mono ?_ (Nat.le_succ bound)
    refine ⟨h.serves, fun p hp => ?_, h.current⟩
    rcases List.mem_append.1 hp with hp | hp
    · exact h.streams p hp
    · intro v hv
      rw [List.mem_singleton.1 hp] at hv
      cases hv
  | query cancelAfter s =>
    obtain ⟨_, hcurrent⟩ := h.current.metrics cancelAfter s w.collector.storage
    obtain ⟨_, hstorage⟩ := Storage.run_metrics SessionSeries.run_locate w.collector.engine
      cancelAfter s w.collector.storage
    refine Sound.mono ?_ (Nat.le_succ bound)
    rw [Service.happen, Collector.run_metrics, hstorage]
    exact ⟨h.serves, h.streams, hcurrent⟩
  | listen change =>
    refine Sound.mono ?_ (Nat.le_succ bound)
    exact ⟨h.serves, h.streams, h.current.congr rfl rfl⟩
  | forget s =>
    refine Sound.mono ?_ (Nat.le_succ bound)
    exact ⟨h.serves, h.streams, h.current.forget s⟩
  | advance duration =>
    refine Sound.mono ?_ (Nat.le_succ bound)
    exact ⟨h.serves, h.streams, h.current.congr rfl rfl⟩
  | shutDown =>
    obtain ⟨hregistry, hserves⟩ := h.serves.shutDown
    refine Sound.mono ?_ (Nat.le_succ bound)
    rw [Service.happen, Collector.run_shutDown]
    refine ⟨hserves, fun p hp v hv => ?_, h.current.congr rfl rfl⟩
    simp only [hregistry]
    exact h.streams p hp v hv
  | restart settings now =>
    refine Sound.mono ?_ (Nat.le_succ bound)
    rw [Service.happen]
    cases hvalid : settings.validate with
    | error e =>
      simp only [Collector.start, hvalid]
      exact h
    | ok u =>
      obtain ⟨st, d, hrun, _, _, hserves⟩ := h.restart now hvalid
      simp only [hrun]
      exact ⟨hserves, fun p hp => absurd hp List.not_mem_nil,
        Engine.current_initial _ _ _ h.serves.issued⟩

/-- So does any number of events, as long as there are block numbers. -/
theorem Sound.runAll (h : Sound dataDir bound w) (events : List Event)
    (hbound : bound + events.length ≤ UInt64.size) :
    Sound dataDir (bound + events.length) (w.runAll dataDir events) := by
  induction events generalizing bound w with
  | nil => exact h
  | cons event events ih =>
    rw [List.length_cons, Nat.add_comm events.length 1, ← Nat.add_assoc] at hbound ⊢
    exact ih (h.happen event (Nat.lt_of_lt_of_le (Nat.lt_succ_self bound)
      (Nat.le_trans (Nat.le_add_right _ _) hbound))) hbound

/-- A collector that is started on a vacant directory serves nothing yet. -/
theorem sound_start (dataDir : Path) {d : Disk} (h : Database.Vacant (dataDir ++ ["tsdb"]) d)
    {settings : Settings} (hvalid : settings.validate = .ok ()) (now : Nat) : ∃ c d',
    Collector.start settings dataDir now Registry.empty d = (.ok c, d') ∧
      Sound dataDir 0 ⟨c, [], [], []⟩ := by
  obtain ⟨st, d', hrun, _, hserves⟩ := Storage.serves_openAt h settings.storage.syncWrite
  refine ⟨⟨settings, st, Engine.initial settings.metrics.window settings.metrics.subscriptionBuffer
    (Collector.newCache settings now), false⟩, d', ?_, hserves,
    fun p hp => absurd hp List.not_mem_nil,
    Engine.current_initial _ _ _ fun _ hx => absurd hx List.not_mem_nil⟩
  rw [Collector.start, hvalid]
  simp only [hrun]

end Service
end HeapTelemetry
