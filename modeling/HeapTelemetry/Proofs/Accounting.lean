import HeapTelemetry.Proofs.Deployment
import HeapTelemetry.Proofs.Queries
import HeapTelemetry.Proofs.Storage.Users
import HeapTelemetry.Storage.SessionFiles

/-! The books of a collector. Whatever streams and readers do and whatever the device
answers, the active sessions are those of the streams that await measurements, and the
users that are counted are these streams and the open loaders. -/

namespace HeapTelemetry
open Step

variable {B W : Type} [Backend B W]

/-! ## Streams -/

namespace Collector

/-- A step of one stream keeps the books, whoever else uses the storage. -/
def Balanced (x : Step (SaveProtocol (Saver W) × Collector B) Unit) : Prop :=
  ∀ p (c : Collector B) earlier rest loaders,
    c.storage.Accounts earlier (p.saver?.toList ++ rest) loaders →
      let y := (run x (p, c)).2
      y.2.storage.Accounts earlier (y.1.saver?.toList ++ rest) loaders ∧
        c.storage.lifecycle.Closes y.2.storage.lifecycle

theorem accounts_released {c : Collector B} {saver : Option (Saver W)} {earlier : List Session}
    {rest : List (Saver W)} {loaders : Nat}
    (h : c.storage.Accounts earlier (saver.toList ++ rest) loaders) :
    (c.released saver).storage.Accounts earlier rest loaders ∧
      c.storage.lifecycle.Closes (c.released saver).storage.lifecycle := by
  cases saver with
  | none => exact ⟨h, Lifecycle.Closes.refl _⟩
  | some v => exact ⟨h.closeSaver, Storage.closes_closeSaver _ v⟩

theorem storage_offered (c : Collector B) (v : Saver W) (m : Measurement) :
    (c.offered v m).storage = (run (Storage.save v m) c.storage).2 := by
  rw [offered]
  cases run (Storage.save v m) c.storage with
  | mk r st => cases r <;> rfl

theorem balanced_handle (r : Request) :
    Balanced (B := B) (SaveProtocol.handle Collector.ports r) := by
  intro p c earlier rest loaders h
  cases hoffer : p.offering? r with
  | some offer =>
    obtain ⟨p', hrun, hp'⟩ := run_offering hoffer c
    simp only [hrun, hp', storage_offered, Storage.save_eq]
    exact ⟨h.congr rfl rfl, Lifecycle.Closes.refl _⟩
  | none =>
    rcases run_other hoffer c with hrun | ⟨hp, owner, p', hrun, hp'⟩
    · simp only [hrun]
      exact accounts_released h
    · rw [hp] at h
      simp only [hrun, hp']
      exact ⟨h.openSaver owner, Storage.closes_openSaver _ owner⟩

theorem balanced_close : Balanced (B := B) (SaveProtocol.close Collector.ports) := by
  intro p c earlier rest loaders h
  rw [run_close]
  exact accounts_released h

theorem balanced_abandon : Balanced (B := B) (SaveProtocol.abandon Collector.ports) := by
  intro p c earlier rest loaders h
  rw [SaveProtocol.run_abandon, released_ports]
  exact accounts_released h

end Collector

/-! ## Deployments -/

namespace Deployment
variable {d : Deployment B W}

/-- The books of a deployment. -/
def Accounted (d : Deployment B W) : Prop :=
  d.collector.storage.Accounts d.earlier d.savers d.loaders.length

/-- Shutdown goes on. -/
def Closes (d d' : Deployment B W) : Prop :=
  d.collector.storage.lifecycle.Closes d'.collector.storage.lifecycle

omit [Backend B W] in
theorem Accounted.onStream (h : d.Accounted) (place : Nat) (answers : List Verdict)
    {x : Step (SaveProtocol (Saver W) × Collector B) Unit} (hx : Collector.Balanced x) :
    (d.onStream place answers x).Accounted ∧ d.Closes (d.onStream place answers x) := by
  rw [Deployment.onStream]
  cases hp : d.streams[place]? with
  | none => exact ⟨h, Lifecycle.Closes.refl _⟩
  | some p =>
    obtain ⟨rest, hbefore, hafter⟩ := exists_perm_filterMap_set SaveProtocol.saver? hp
    have hmine : (d.collector.expecting answers).storage.Accounts d.earlier
        (p.saver?.toList ++ rest) d.loaders.length := (h.perm hbefore).congr rfl rfl
    obtain ⟨hdone, hcloses⟩ := hx p _ _ _ _ hmine
    exact ⟨(hdone.perm (hafter _).symm).congr rfl rfl, hcloses⟩

/-- Who reads a session back leaves as it came. -/
theorem accounts_replay {earlier : List Session} {savers : List (Saver W)} {loaders : Nat}
    {st : Storage B} (h : st.Accounts earlier savers loaders) (window : Nat)
    (cancelAfter : Option Nat) (s : Session) :
    let st' := (run (Engine.replay window cancelAfter s) st).2
    st'.Accounts earlier savers loaders ∧ st.lifecycle.Closes st'.lifecycle := by
  have hopened := h.openLoader s
  have hcloses := Storage.closes_openLoader st s
  rw [Engine.run_replay_eq]
  cases hrun : run (Storage.openLoader s) st with
  | mk r st' =>
    rw [hrun] at hopened hcloses
    cases r with
    | error e => exact ⟨hopened, hcloses⟩
    | ok u => exact ⟨hopened.closeLoader, hcloses.trans (Lifecycle.closes_leave _)⟩

/-- A query lets its own loader go again. -/
theorem Accounted.query (h : d.Accounted) (cancelAfter : Option Nat) (s : Session) :
    let d' : Deployment B W :=
      { d with collector := (run (Collector.metrics cancelAfter s) d.collector).2 }
    d'.Accounted ∧ d.Closes d' := by
  have hsame : d.collector.storage.Accounts d.earlier d.savers d.loaders.length ∧
      d.collector.storage.lifecycle.Closes d.collector.storage.lifecycle :=
    ⟨h, Lifecycle.Closes.refl _⟩
  simp only [Accounted, Closes, savers, Collector.run_metrics, Engine.run_metrics_eq]
  cases d.collector.engine.resident.get? s with
  | some w => exact hsame
  | none =>
    cases d.collector.engine.cached? s.key with
    | some report => exact hsame
    | none =>
      have hreplay := accounts_replay h d.collector.engine.window cancelAfter s
      cases hrun : run (Engine.replay d.collector.engine.window cancelAfter s)
          d.collector.storage with
      | mk r st =>
        rw [hrun] at hreplay
        cases r <;> exact hreplay

theorem Accounted.openLoader (h : d.Accounted) (dataDir : Path) (s : Session) :
    (d.happen dataDir (.openLoader s)).Accounted ∧ d.Closes (d.happen dataDir (.openLoader s)) := by
  have hopened := Storage.Accounts.openLoader h s
  rw [happen_openLoader]
  refine ⟨?_, Storage.closes_openLoader d.collector.storage s⟩
  rw [Accounted, List.length_append, List.length_map]
  exact hopened

theorem Accounted.closeLoader (h : d.Accounted) (dataDir : Path) (place : Nat) :
    (d.happen dataDir (.closeLoader place)).Accounted ∧
      d.Closes (d.happen dataDir (.closeLoader place)) := by
  rw [happen]
  cases hplace : d.loaders[place]? with
  | none => exact ⟨h, Lifecycle.Closes.refl _⟩
  | some s =>
    obtain ⟨hlt, _⟩ := List.getElem?_eq_some_iff.1 hplace
    have hlength : d.loaders.length = (d.loaders.eraseIdx place).length + 1 := by
      rw [List.length_eraseIdx_of_lt hlt]
      omega
    rw [Accounted, hlength] at h
    exact ⟨h.closeLoader, Lifecycle.closes_leave _⟩

/-- A storage that was just opened has nothing in its books. -/
theorem accounted_opened {dataDir : Path} {syncWrite : Bool} {registry : Registry}
    {disk disk' : Disk} {c : Collector B} (h : registry.Numbered)
    (hopen : Storage.openAt dataDir syncWrite registry disk = (.ok c.storage, disk')) :
    (started c : Deployment B W).Accounted := by
  obtain ⟨hregistry, hlifecycle⟩ := Storage.openAt_ok h hopen
  have hbooks := Storage.accounts_opened (W := W) c.storage.backend c.storage.disk h
  have hstarted : (started c : Deployment B W).earlier = registry.issued :=
    congrArg Registry.issued hregistry
  rw [Accounted, hstarted]
  exact hbooks.congr hregistry (congrArg Lifecycle.inFlight hlifecycle)

/-- Who starts a collector again begins new books. -/
theorem accounted_started {dataDir : Path} {settings : Settings} {now : Nat}
    {registry : Registry} {disk disk' : Disk} {c : Collector B} (h : registry.Numbered)
    (hstart : Collector.start settings dataDir now registry disk = (.ok c, disk')) :
    (started c : Deployment B W).Accounted := by
  obtain ⟨_, hopen, _⟩ := start_ok hstart
  exact accounted_opened h hopen

def Event.isRestart : Event → Bool
  | .restart .. => true
  | _ => false

/-- Every event keeps the books, and shutdown goes on as long as the process does. -/
theorem Accounted.happen (h : d.Accounted) (dataDir : Path) (event : Event) :
    (d.happen dataDir event).Accounted ∧
      (event.isRestart = false → d.Closes (d.happen dataDir event)) := by
  have hkept : ∀ {d' : Deployment B W}, d'.Accounted ∧ d.Closes d' →
      d'.Accounted ∧ (event.isRestart = false → d.Closes d') :=
    fun hd => ⟨hd.1, fun _ => hd.2⟩
  cases event with
  | connect =>
    refine ⟨?_, fun _ => Lifecycle.Closes.refl _⟩
    simpa [Accounted, Deployment.happen, savers, filterMap_cons_toList] using h
  | request place r answers => exact hkept (h.onStream place answers (Collector.balanced_handle r))
  | close place answers => exact hkept (h.onStream place answers Collector.balanced_close)
  | drop place answers => exact hkept (h.onStream place answers Collector.balanced_abandon)
  | openLoader s => exact hkept (h.openLoader dataDir s)
  | closeLoader place => exact hkept (h.closeLoader dataDir place)
  | query cancelAfter s => exact hkept (h.query cancelAfter s)
  | listen change => exact ⟨h, fun _ => Lifecycle.Closes.refl _⟩
  | advance duration => exact ⟨h, fun _ => Lifecycle.Closes.refl _⟩
  | setClock time =>
    exact ⟨⟨h.numbered.congr rfl rfl rfl, h.known, h.active, h.inFlight⟩,
      fun _ => Lifecycle.Closes.refl _⟩
  | collect elapsed => exact ⟨h, fun _ => Lifecycle.Closes.refl _⟩
  | shutDown => exact hkept ⟨Storage.Accounts.shutDown h, Storage.closes_shutDown _⟩
  | restart settings now =>
    refine ⟨?_, fun hrestart => by cases hrestart⟩
    rw [Deployment.happen]
    simp only
    cases hstart : (Collector.start settings dataDir now d.collector.storage.registry
        d.collector.storage.disk : Except Error (Collector B) × Disk) with
    | mk r disk =>
      cases r with
      | error e => exact h
      | ok c => exact accounted_started h.numbered hstart

theorem Accounted.runAll (h : d.Accounted) (dataDir : Path) (events : List Event) :
    (d.runAll dataDir events).Accounted ∧
      ((∀ event ∈ events, event.isRestart = false) → d.Closes (d.runAll dataDir events)) := by
  induction events generalizing d with
  | nil => exact ⟨h, fun _ => Lifecycle.Closes.refl _⟩
  | cons event events ih =>
    obtain ⟨hbooks, hcloses⟩ := h.happen dataDir event
    obtain ⟨hbooks', hcloses'⟩ := ih hbooks
    refine ⟨hbooks', fun hevents => ?_⟩
    exact (hcloses (hevents event List.mem_cons_self)).trans
      (hcloses' fun e he => hevents e (List.mem_cons_of_mem _ he))

omit [Backend B W] in
/-- A session of this process is active as long as the stream that saves it awaits
measurements. -/
theorem Accounted.active_iff (h : d.Accounted) (s : Session) :
    s ∈ d.collector.storage.registry.active ∧ s ∉ d.earlier ↔
      ∃ p ∈ d.streams, ∃ v, p.phase = .awaitMeasurement v ∧ v.session = s := by
  have hmem := h.active.mem_iff (a := s)
  rw [Registry.activeSince, List.mem_filter, decide_eq_true_iff] at hmem
  rw [hmem, savers]
  simp only [List.mem_map, List.mem_filterMap, SaveProtocol.saver?_eq_some]
  constructor
  · rintro ⟨v, ⟨p, hp, hv⟩, hs⟩
    exact ⟨p, hp, v, hv, hs⟩
  · rintro ⟨p, hp, v, hv, hs⟩
    exact ⟨v, ⟨p, hp, hv⟩, hs⟩

omit [Backend B W] in
/-- When shutdown is over, nobody is left: no stream awaits measurements, no loader is
open, and no session of this process is active. -/
theorem Accounted.idle (h : d.Accounted) (hidle : d.collector.storage.lifecycle.isIdle = true) :
    d.savers = [] ∧ d.loaders = [] ∧
      ∀ s ∈ d.collector.storage.registry.active, s ∈ d.earlier := by
  have hzero : d.savers.length + d.loaders.length = 0 := by
    rw [← h.inFlight]
    exact beq_iff_eq.1 hidle
  have hsavers : d.savers = [] := List.eq_nil_of_length_eq_zero (by omega)
  refine ⟨hsavers, List.eq_nil_of_length_eq_zero (by omega), fun s hs => ?_⟩
  have hactive := h.active
  rw [hsavers] at hactive
  by_contra hnew
  have hmem : s ∈ d.collector.storage.registry.activeSince d.earlier :=
    List.mem_filter.2 ⟨hs, decide_eq_true hnew⟩
  rw [List.perm_nil.1 hactive] at hmem
  exact List.not_mem_nil hmem

/-- After every run of a collector on any backend, the sessions of its process that are
active are those of the streams that await measurements, each of one stream, and the users
that are counted are these streams and the open loaders. Whoever fails to get in leaves
no active session and is not counted. From the beginning of shutdown nobody gets in and
nothing is registered; once it is over, nobody is left for good. -/
theorem sessions_accounted (dataDir : Path) {syncWrite : Bool} {registry : Registry}
    (h : registry.Numbered) {disk disk' : Disk} {c : Collector B}
    (hopen : Storage.openAt dataDir syncWrite registry disk = (.ok c.storage, disk'))
    (events : List Event) :
    let d := runAll dataDir (started c : Deployment B W) events
    let st := d.collector.storage
    ((∀ s, s ∈ st.registry.active ∧ s ∉ d.earlier ↔
        ∃ p ∈ d.streams, ∃ v, p.phase = .awaitMeasurement v ∧ v.session = s) ∧
      (d.savers.map Saver.session).Nodup ∧
      st.lifecycle.inFlight = d.savers.length + d.loaders.length) ∧
    (∀ answers owner e,
      let st := (d.collector.expecting answers).storage
      (run (Storage.openSaver owner) st).1 = .error e →
        let st' := (run (Storage.openSaver owner) st).2
        st'.registry.active = st.registry.active ∧ st'.lifecycle = st.lifecycle) ∧
    (∀ s e, (run (Storage.openLoader s) st).1 = .error e →
      let st' := (run (Storage.openLoader s) st).2
      st'.registry = st.registry ∧ st'.lifecycle = st.lifecycle) ∧
    (st.lifecycle.shutDown = true → ∀ later, (∀ event ∈ later, event.isRestart = false) →
      let d' := d.runAll dataDir later
      let st' := d'.collector.storage
      ((∀ owner, run (Storage.openSaver owner) st' = (.error .shutDown, st')) ∧
        ∀ s, run (Storage.openLoader s) st' = (.error .shutDown, st')) ∧
      (st.lifecycle.isIdle = true → d'.savers = [] ∧ d'.loaders = [] ∧
        ∀ s ∈ st'.registry.active, s ∈ d'.earlier)) := by
  intro d st
  have hbooks : d.Accounted := ((accounted_opened h hopen).runAll dataDir events).1
  refine ⟨⟨hbooks.active_iff, ?_, hbooks.inFlight⟩, fun answers owner e he => ?_,
    fun s e he => Storage.openLoader_failed he, fun hshut later hlater => ?_⟩
  · exact hbooks.active.nodup_iff.1 (hbooks.numbered.nodup_active.filter _)
  · have hnumbered : (d.collector.expecting answers).storage.registry.Numbered := hbooks.numbered
    exact Storage.openSaver_failed hnumbered he
  · obtain ⟨hbooks', hcloses⟩ := hbooks.runAll dataDir later
    obtain ⟨hshut', hless⟩ := hcloses hlater hshut
    refine ⟨Storage.refused_of_shutDown hshut', fun hidle => hbooks'.idle ?_⟩
    have hzero : st.lifecycle.inFlight = 0 := beq_iff_eq.1 hidle
    exact beq_iff_eq.2 (Nat.le_zero.1 (hzero ▸ hless))

/-- Two streams describe themselves and the file of the second cannot be made; then shutdown
begins, and the first stream is misused. -/
def stoppedRun : List Event :=
  [.connect, .connect, .request 0 (.description ⟨"cart", "one"⟩) [],
    .request 1 (.description ⟨"cart", "two"⟩) [.grant, .refuse], .openLoader ⟨⟨"cart", "one"⟩, 1⟩,
    .shutDown, .closeLoader 0, .request 0 (.description ⟨"cart", "one"⟩) []]

/-- A collector that keeps its sessions in files, on an empty disk. -/
def onFiles : Collector SessionFiles where
  settings := Settings.default
  storage := ⟨⟨["data", "sessions"], false⟩, (run (Disk.makeDirs ["data", "sessions"]) Disk.empty).2,
    Registry.empty, Lifecycle.initial⟩
  engine := Engine.initial 300 16 none
  shuttingDown := false

theorem sessions_accounted_stopped :
    Registry.empty.Numbered ∧
      Storage.openAt ["data"] false Registry.empty Disk.empty =
        (.ok onFiles.storage, onFiles.storage.disk) ∧
      let d : Deployment SessionFiles Handle := runAll ["data"] (started onFiles) stoppedRun
      d.collector.storage.registry.issued = [⟨⟨"cart", "one"⟩, 1⟩, ⟨⟨"cart", "two"⟩, 2⟩] ∧
        d.savers = [] ∧ ∀ s ∈ d.collector.storage.registry.active, s ∈ d.earlier := by
  have hopen : Storage.openAt ["data"] false Registry.empty Disk.empty =
      (.ok onFiles.storage, onFiles.storage.disk) := rfl
  have hbooks := sessions_accounted ["data"] Registry.numbered_empty hopen stoppedRun
  refine ⟨Registry.numbered_empty, hopen, ?_⟩
  have hend : let st := (runAll ["data"] (started onFiles : Deployment SessionFiles Handle)
      stoppedRun).collector.storage
      st.lifecycle.shutDown = true ∧ st.lifecycle.isIdle = true ∧
        st.registry.issued = [⟨⟨"cart", "one"⟩, 1⟩, ⟨⟨"cart", "two"⟩, 2⟩] := by decide +kernel
  generalize runAll ["data"] (started onFiles : Deployment SessionFiles Handle) stoppedRun = d
    at hbooks hend ⊢
  obtain ⟨hshut, hidle, hissued⟩ := hend
  obtain ⟨hsavers, _, hactive⟩ :=
    (hbooks.2.2.2 hshut [] fun _ he => absurd he List.not_mem_nil).2 hidle
  exact ⟨hissued, hsavers, hactive⟩

end Deployment
end HeapTelemetry
