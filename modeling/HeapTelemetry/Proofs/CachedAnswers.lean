import HeapTelemetry.Proofs.Caches
import HeapTelemetry.Proofs.SeriesAnswers
import HeapTelemetry.Proofs.DurableRuns
import HeapTelemetry.Proofs.Storage.SessionFiles

/-! A collector with a cache beside the same collector without one. Both go through the same
states but for the cache, and what is cached is what would be read back. -/

namespace HeapTelemetry
open Step
variable {B W : Type} [Backend B W]

/-! ## Without a cache -/

def Engine.uncached (e : Engine) : Engine := { e with cache := none }

def Collector.uncached (c : Collector B) : Collector B :=
  { c with settings := c.settings.withColdPathCache false, engine := c.engine.uncached }

theorem Engine.along_put (s : Session) (m : Measurement) :
    Along Engine.uncached (Engine.put s m) (Engine.put s m) := by
  intro e
  have hwindows : e.uncached.windows s = e.windows s := rfl
  simp only [Engine.put, run_bind_ok (run_get _), run_bind_ok (run_setWindows _ _ _), hwindows,
    run_bind, run_ofExcept]
  cases (e.windows s).register m with
  | error refusal => rfl
  | ok w =>
    have hfeed : e.uncached.feed = e.feed := rfl
    simp only [hfeed]
    split <;> rfl

theorem Collector.along_ports : SaveProtocol.PortsAlong Collector.uncached
    (Collector.ports : Ports (Collector B) (Saver W)) Collector.ports where
  openSaver _ _ := rfl
  session _ := rfl
  save _ _ _ := rfl
  closeSaver _ _ := rfl
  put s m c := by
    have hput := Engine.along_put s m c.engine
    have hrun : ∀ c : Collector B, run ((ports : Ports (Collector B) (Saver W)).put s m) c =
        ((run (Engine.put s m) c.engine).1, { c with engine := (run (Engine.put s m) c.engine).2 }) :=
      fun _ => rfl
    have hengine : c.uncached.engine = c.engine.uncached := rfl
    rw [hrun, hrun, hengine, hput]
    rfl

/-- A query changes nothing but the cache, or nothing that depends on it. -/
theorem Collector.run_metrics_uncached
    (hlocate : ∀ (s : Session) (x : B × Disk), (run (Backend.locate s) x).2 = x)
    (cancelAfter : Option Nat) (s : Session) (c : Collector B) :
    (run (Collector.metrics cancelAfter s) c).2.uncached =
      (run (Collector.metrics cancelAfter s) c.uncached).2 := by
  rw [run_metrics, run_metrics, Engine.run_metrics_eq, Engine.run_metrics_eq]
  have hresident : c.uncached.engine.resident = c.engine.resident := rfl
  rw [hresident]
  cases c.engine.resident.get? s with
  | some w => rfl
  | none =>
    have hcached : c.uncached.engine.cached? s.key = none := rfl
    have hstorage : c.uncached.storage = c.storage := rfl
    have hwindow : c.uncached.engine.window = c.engine.window := rfl
    obtain ⟨r, hr⟩ : ∃ r, (if c.storage.lifecycle.shutDown then .error .shutDown
      else c.storage.answer c.engine.window cancelAfter s) = r := ⟨_, rfl⟩
    simp only [hcached, hstorage, hwindow, Storage.run_replay (hlocate s _), hr]
    cases c.engine.cached? s.key with
    | some report => cases r <;> rfl
    | none => cases r <;> rfl

namespace Deployment

def uncached (d : Deployment B W) : Deployment B W := { d with collector := d.collector.uncached }

/-- The same event for a collector that is to have no cache. -/
def Event.uncached : Event → Event
  | .restart settings now => .restart (settings.withColdPathCache false) now
  | event => event

omit [Backend B W] in
theorem onStream_uncached (d : Deployment B W) (place : Nat) (answers : List Verdict)
    {x : Step (SaveProtocol (Saver W) × Collector B) Unit}
    (hx : Along (Prod.map id Collector.uncached) x x) :
    (d.onStream place answers x).uncached = d.uncached.onStream place answers x := by
  have hstreams : d.uncached.streams = d.streams := rfl
  rw [onStream, onStream, hstreams]
  cases d.streams[place]? with
  | none => rfl
  | some p =>
    have hrun := hx (p, d.collector.expecting answers)
    have hexpecting : d.uncached.collector.expecting answers =
        (d.collector.expecting answers).uncached := rfl
    simp only [hexpecting]
    rw [Prod.map_apply, id] at hrun
    rw [hrun]
    rfl

/-- Settings differ only in what a collector keeps of what it reads back. -/
theorem start_uncached (settings : Settings) (dataDir : Path) (now : Nat) (registry : Registry)
    (disk : Disk) :
    let started : Except Error (Collector B) × Disk :=
      Collector.start settings dataDir now registry disk
    Collector.start (settings.withColdPathCache false) dataDir now registry disk =
      (started.1.map Collector.uncached, started.2) := by
  intro started
  have hvalid : (settings.withColdPathCache false).validate = settings.validate := rfl
  simp only [started]
  rw [Collector.start, Collector.start, hvalid]
  cases settings.validate with
  | error e => rfl
  | ok u =>
    simp only
    have hsync : (settings.withColdPathCache false).storage.syncWrite = settings.storage.syncWrite :=
      rfl
    rw [hsync]
    cases (Storage.openAt dataDir settings.storage.syncWrite registry disk :
        Except Error (Storage B) × Disk) with
    | mk r d => cases r <;> rfl

variable {dataDir : Path}

theorem happen_uncached (hlocate : ∀ (s : Session) (x : B × Disk), (run (Backend.locate s) x).2 = x)
    (d : Deployment B W) (event : Event) :
    (d.happen dataDir event).uncached = d.uncached.happen dataDir event.uncached := by
  cases event with
  | request place r answers =>
    have hhandle := d.onStream_uncached place answers (SaveProtocol.along_handle Collector.along_ports r)
    have hsaving : d.uncached.saving place r answers = d.saving place r answers := rfl
    show _ = d.uncached.happen dataDir (.request place r answers)
    rw [happen, happen, hsaving, ← hhandle]
    rfl
  | close place answers =>
    exact d.onStream_uncached place answers (SaveProtocol.along_close Collector.along_ports)
  | drop place answers =>
    exact d.onStream_uncached place answers (SaveProtocol.along_abandon Collector.along_ports)
  | openLoader s =>
    show _ = d.uncached.happen dataDir (.openLoader s)
    rw [happen_openLoader, happen_openLoader]
    rfl
  | closeLoader place =>
    have hloaders : d.uncached.loaders = d.loaders := rfl
    show _ = d.uncached.happen dataDir (.closeLoader place)
    rw [happen, happen, hloaders]
    cases d.loaders[place]? <;> rfl
  | query cancelAfter s =>
    have hquery := Collector.run_metrics_uncached hlocate cancelAfter s d.collector
    have hcollector : d.uncached.collector = d.collector.uncached := rfl
    show _ = d.uncached.happen dataDir (.query cancelAfter s)
    rw [happen, happen, hcollector, ← hquery]
    rfl
  | restart settings now =>
    have hregistry : d.uncached.collector.storage = d.collector.storage := rfl
    rw [Event.uncached, happen, happen, hregistry]
    simp only [start_uncached]
    cases (Collector.start settings dataDir now d.collector.storage.registry
        d.collector.storage.disk : Except Error (Collector B) × Disk) with
    | mk r disk => cases r <;> rfl
  | _ => rfl

/-- A run without a cache is the run with one, but for the cache. -/
theorem runAll_uncached (hlocate : ∀ (s : Session) (x : B × Disk), (run (Backend.locate s) x).2 = x)
    (d : Deployment B W) (events : List Event) :
    (d.runAll dataDir events).uncached = d.uncached.runAll dataDir (events.map Event.uncached) := by
  induction events generalizing d with
  | nil => rfl
  | cons event events ih =>
    rw [List.map_cons, runAll, runAll, List.foldl_cons, List.foldl_cons, ← happen_uncached hlocate]
    exact ih _

end Deployment

/-! ## With a cache -/

/-- What an engine keeps of what was read back. -/
def Engine.entries (e : Engine) : List CacheEntry :=
  match e.cache with
  | none => []
  | some t => t.cache.entries

theorem Engine.exists_of_cached? {e : Engine} {key : String} {r : Report}
    (h : e.cached? key = some r) : ∃ entry ∈ e.entries, entry.key = key ∧ entry.report = r := by
  rw [cached?] at h
  rw [entries]
  cases hcache : e.cache with
  | none =>
    rw [hcache] at h
    cases h
  | some t =>
    rw [hcache] at h
    exact ResultCache.exists_of_get h

/-- Changes of the cache that only drop entries. -/
theorem Engine.mem_of_cache {e e' : Engine} {f : TimedCache → TimedCache}
    (hcache : e'.cache = e.cache.map f)
    (hf : ∀ t, ∀ entry ∈ (f t).cache.entries, entry ∈ t.cache.entries) :
    ∀ entry ∈ e'.entries, entry ∈ e.entries := by
  intro entry hentry
  rw [entries, hcache] at hentry
  rw [entries]
  cases hc : e.cache with
  | none =>
    rw [hc] at hentry
    exact hentry
  | some t =>
    rw [hc] at hentry
    exact hf t entry hentry

theorem Engine.mem_of_keeping {e : Engine} {key : String} {r : Report} {entry : CacheEntry}
    (h : entry ∈ (e.keeping key r).entries) :
    entry ∈ e.entries ∨ entry.key = key ∧ entry.report = r := by
  have hcache : (e.keeping key r).cache = e.cache.map fun c => (c.insert key r).2 := rfl
  rw [entries, hcache] at h
  rw [entries]
  cases hc : e.cache with
  | none =>
    rw [hc] at h
    cases h
  | some t =>
    rw [hc] at h
    exact ResultCache.mem_of_insert h

/-- What is read back although the reading could have been cancelled, or refused. -/
theorem Storage.answer_of_read {st : Storage B} {window : Nat} {cancelAfter : Option Nat}
    {s : Session} {r : Report} (h : (if st.lifecycle.shutDown then .error .shutDown
      else st.answer window cancelAfter s : Except Error Report) = .ok r) :
    st.answer window none s = .ok r := by
  split at h
  · cases h
  · rcases st.answer_until window cancelAfter s with hcancelled | hsame
    · rw [hcancelled] at h
      cases h
    · exact hsame ▸ h

/-- A query keeps what it read back, and nothing else. -/
theorem Engine.mem_of_metrics
    (hlocate : ∀ (s : Session) (x : B × Disk), (run (Backend.locate s) x).2 = x) {e : Engine}
    {cancelAfter : Option Nat} {s : Session} {st : Storage B} {entry : CacheEntry}
    (h : entry ∈ (run (Engine.metrics cancelAfter s) (e, st)).2.1.entries) :
    entry ∈ e.entries ∨ entry.key = s.key ∧ st.answer e.window none s = .ok entry.report := by
  rw [run_metrics_eq] at h
  cases hresident : e.resident.get? s with
  | some w =>
    rw [hresident] at h
    exact Or.inl h
  | none =>
    have hasked : ∀ entry ∈ (e.asked s.key).entries, entry ∈ e.entries :=
      mem_of_cache rfl fun _ _ => ResultCache.mem_of_get
    rw [hresident] at h
    simp only [Storage.run_replay (hlocate s _)] at h
    cases hcached : e.cached? s.key with
    | some report =>
      rw [hcached] at h
      exact Or.inl (hasked entry h)
    | none =>
      rw [hcached] at h
      cases hread : (if st.lifecycle.shutDown then .error .shutDown
          else st.answer e.window cancelAfter s : Except Error Report) with
      | error refusal =>
        rw [hread] at h
        exact Or.inl (hasked entry h)
      | ok report =>
        rw [hread] at h
        rcases mem_of_keeping h with hold | ⟨hkey, rfl⟩
        · exact Or.inl (hasked entry hold)
        · exact Or.inr ⟨hkey, Storage.answer_of_read hread⟩

/-- Only of sessions that are known a report is read back. -/
theorem Storage.issued_of_answer {st : Storage B} {window : Nat} {cancelAfter : Option Nat}
    {s : Session} {r : Report} (h : st.answer window cancelAfter s = .ok r) :
    s ∈ st.registry.issued := by
  rw [answer, Registry.lookup] at h
  cases hfind : st.registry.find? s with
  | none =>
    rw [hfind] at h
    cases h
  | some e =>
    have hsession := List.find?_some hfind
    exact List.mem_map.2 ⟨e, List.mem_of_find?_eq_some hfind, of_decide_eq_true hsession⟩

namespace Deployment
variable {d d' : Deployment B W} {dataDir : Path}
  {Inv : Nat → List (Session × Measurement) → List (Saver W) → Storage B → Prop} {n : Nat}

/-- A cached report is of an issued session with its key, and it is what is read back of that
session as long as this is not resident. -/
def Backed (d : Deployment B W) : Prop :=
  ∀ entry ∈ d.collector.engine.entries, ∃ t ∈ d.collector.storage.registry.issued,
    t.key = entry.key ∧ (d.collector.engine.resident.contains t = true ∨
      d.collector.storage.answer d.collector.engine.window none t = .ok entry.report)

theorem Backed.advance (h : d.Backed) (hadvances : d.Advances d')
    (hentries : ∀ entry ∈ d'.collector.engine.entries, entry ∈ d.collector.engine.entries) :
    d'.Backed := by
  intro entry hentry
  obtain ⟨t, ht, hkey, hresident | hanswer⟩ := h entry (hentries entry hentry)
  · exact ⟨t, hadvances.issued t ht, hkey, Or.inl (hadvances.resident t hresident)⟩
  · refine ⟨t, hadvances.issued t ht, hkey, ?_⟩
    rcases hadvances.persists t ht with hresident | hpersists
    · exact Or.inl hresident
    · rw [hadvances.window]
      exact Or.inr (hpersists _ _ hanswer)

/-- Calls on streams leave the cache alone. -/
theorem Turn.cache {answers : List Verdict} (h : Turn answers d d') :
    d'.collector.engine.cache = d.collector.engine.cache := by
  cases h with
  | nothing same => rw [same]
  | released saver rest before after collector saved =>
    rw [collector]
    cases saver <;> rfl
  | opened owner collector savers saved => rw [collector]
  | offered v m held collector savers saved =>
    rw [collector, Collector.offered]
    cases run (Storage.save v m) d.collector.storage with
    | mk r st =>
      cases r with
      | error e => rfl
      | ok u =>
        obtain ⟨r, w, feed, hrun, _⟩ := Engine.run_put d.collector.engine v.session m
        simp only [hrun]
        rfl

/-- A collector that was just started has cached nothing. -/
theorem backed_started {settings : Settings} {now : Nat} {registry : Registry} {disk disk' : Disk}
    {c : Collector B} (saved : List (Session × Measurement))
    (h : Collector.start settings dataDir now registry disk = (.ok c, disk')) :
    ({ started c with saved } : Deployment B W).Backed := by
  obtain ⟨_, _, hengine⟩ := start_ok h
  have hnothing : c.engine.entries = [] := by
    rw [hengine, Engine.initial, Engine.entries, Collector.newCache]
    by_cases hcache : settings.metrics.coldPathCache = true
    · rw [if_pos hcache]
      rfl
    · rw [if_neg hcache]
  intro entry hentry
  have hentry : entry ∈ c.engine.entries := hentry
  rw [hnothing] at hentry
  cases hentry

section Steps
variable (hdur : Storage.Durable dataDir Inv)
include hdur

theorem Backed.query (h : d.Backed) (hupheld : d.Upheld Inv (n + 1)) (cancelAfter : Option Nat)
    (s : Session) : (d.happen dataDir (.query cancelAfter s)).Backed := by
  obtain ⟨_, hadvances⟩ := hupheld.query hdur cancelAfter s
  have hst := (Storage.run_metrics hdur.locate d.collector.engine cancelAfter s
    d.collector.storage).2
  have hstorage : (d.happen dataDir (.query cancelAfter s)).collector.storage =
      d.collector.storage := hst
  intro entry hentry
  rcases Engine.mem_of_metrics hdur.locate hentry with hold | ⟨hkey, hanswer⟩
  · obtain ⟨t, ht, hkey, hresident | hanswer⟩ := h entry hold
    · exact ⟨t, hadvances.issued t ht, hkey, Or.inl (hadvances.resident t hresident)⟩
    · rw [hadvances.window, hstorage]
      exact ⟨t, ht, hkey, Or.inr hanswer⟩
  · rw [hadvances.window, hstorage]
    exact ⟨s, Storage.issued_of_answer hanswer, hkey.symm, Or.inr hanswer⟩

theorem Backed.happen (h : d.Backed) (hupheld : d.Upheld Inv (n + 1)) {event : Event}
    (hsaves : event.SavesGranted) : (d.happen dataDir event).Backed := by
  obtain ⟨_, hadvances⟩ := hupheld.happen hdur hsaves
  have hsame : ∀ {e : Engine}, e.cache = d.collector.engine.cache →
      ∀ entry ∈ e.entries, entry ∈ d.collector.engine.entries := by
    intro e he entry hentry
    rw [Engine.entries, he] at hentry
    exact hentry
  cases event with
  | request place r answers =>
    have hturn := turn_request dataDir (hdur.granting hupheld.storage) hsaves
    exact h.advance (hadvances rfl) (hsame hturn.cache)
  | close place answers =>
    exact h.advance (hadvances rfl) (hsame (turn_close dataDir d place answers).cache)
  | drop place answers =>
    exact h.advance (hadvances rfl) (hsame (turn_drop dataDir d place answers).cache)
  | openLoader s =>
    refine h.advance (hadvances rfl) (hsame ?_)
    rw [happen_openLoader]
  | closeLoader place =>
    refine h.advance (hadvances rfl) (hsame ?_)
    rw [Deployment.happen]
    cases d.loaders[place]? <;> rfl
  | query cancelAfter s => exact h.query hdur hupheld cancelAfter s
  | advance duration =>
    exact h.advance (hadvances rfl) (Engine.mem_of_cache rfl fun _ _ => TimedCache.mem_of_advance)
  | collect elapsed =>
    exact h.advance (hadvances rfl)
      (Engine.mem_of_cache rfl fun _ _ => ResultCache.mem_of_collectGarbage)
  | shutDown => exact h.advance (hadvances rfl) (Engine.mem_of_cache rfl fun _ _ => id)
  | connect => exact h.advance (hadvances rfl) (hsame rfl)
  | setClock time => exact h.advance (hadvances rfl) (hsame rfl)
  | listen change => exact h.advance (hadvances rfl) (hsame rfl)
  | restart settings now =>
    rw [Deployment.happen]
    simp only
    cases hstart : (Collector.start settings dataDir now d.collector.storage.registry
        d.collector.storage.disk : Except Error (Collector B) × Disk) with
    | mk r disk =>
      cases r with
      | error e => exact h
      | ok c => exact backed_started _ hstart

theorem Backed.runAll (h : d.Backed) {events : List Event}
    (hupheld : d.Upheld Inv (n + events.length)) (hsaves : ∀ event ∈ events, event.SavesGranted) :
    (d.runAll dataDir events).Backed := by
  induction events generalizing d with
  | nil => exact h
  | cons event events ih =>
    have hgranted := hsaves event List.mem_cons_self
    exact ih (h.happen hdur hupheld hgranted) (hupheld.happen hdur hgranted).1
      fun e he => hsaves e (List.mem_cons_of_mem _ he)

end Steps

/-! ## Both answers -/

/-- What a query is answered. -/
def answer (cancelAfter : Option Nat) (s : Session) (d : Deployment B W) : Except Error Report :=
  (run (Collector.metrics cancelAfter s) d.collector).1

/-- Both answer queries alike, but for sessions that were never issued and have the key of one
that was: these the first may answer where the second refuses. A cancelled query is answered
alike, or as if it were not cancelled. -/
def AnswersAs (d d' : Deployment B W) : Prop :=
  ∀ s, (d.answer none s = d'.answer none s ∨
      s ∉ d.collector.storage.registry.issued ∧ d'.answer none s = .error (.unknownSession s.key) ∧
        ∃ t ∈ d.collector.storage.registry.issued, t.key = s.key ∧
          ∃ report, d.answer none s = .ok report) ∧
    ∀ n, d.answer (some n) s = d'.answer (some n) s ∨ d.answer (some n) s = d.answer none s

/-- Windows answer first, then the cache, then the storage. -/
theorem answer_eq (hlocate : ∀ (s : Session) (x : B × Disk), (run (Backend.locate s) x).2 = x)
    (hopen : d.collector.storage.lifecycle.shutDown = false) (cancelAfter : Option Nat) (s : Session) :
    d.answer cancelAfter s = match d.collector.engine.resident.get? s with
      | some w => .ok w.metrics.1
      | none =>
        match d.collector.engine.cached? s.key with
        | some report => .ok report
        | none => d.collector.storage.answer d.collector.engine.window cancelAfter s := by
  have hrun := (Storage.run_metrics hlocate d.collector.engine cancelAfter s d.collector.storage).1
  rw [hopen] at hrun
  exact hrun

theorem Backed.answersAs (h : d.Backed) (hupheld : d.Upheld Inv n)
    (hlocate : ∀ (s : Session) (x : B × Disk), (run (Backend.locate s) x).2 = x)
    (hopen : d.collector.storage.lifecycle.shutDown = false) : d.AnswersAs d.uncached := by
  intro s
  have hoff := answer_eq (d := d.uncached) hlocate hopen
  have hsame : d.uncached.collector.engine.resident.get? s = d.collector.engine.resident.get? s := rfl
  have hempty : d.uncached.collector.engine.cached? s.key = none := rfl
  simp only [answer_eq hlocate hopen, hoff, hsame, hempty]
  cases hresident : d.collector.engine.resident.get? s with
  | some w => exact ⟨Or.inl rfl, fun n => Or.inl rfl⟩
  | none =>
    cases hcached : d.collector.engine.cached? s.key with
    | none => exact ⟨Or.inl rfl, fun n => Or.inl rfl⟩
    | some report =>
      refine ⟨?_, fun n => Or.inr rfl⟩
      obtain ⟨entry, hentry, hkey, rfl⟩ := Engine.exists_of_cached? hcached
      obtain ⟨t, ht, htkey, hanswer⟩ := h entry hentry
      by_cases hs : s ∈ d.collector.storage.registry.issued
      · -- Only this session has its key, and it is read back still.
        have hst : t = s := hupheld.accounted.numbered.eq_of_key ht hs (htkey.trans hkey)
        subst hst
        rcases hanswer with hthere | hanswer
        · rw [Table.contains, hresident] at hthere
          cases hthere
        · exact Or.inl hanswer.symm
      · refine Or.inr ⟨hs, ?_, t, ht, htkey.trans hkey, _, rfl⟩
        have hunknown : d.uncached.collector.storage.registry.find? s = none := by
          rw [Registry.find?, List.find?_eq_none]
          intro e he hsession
          exact hs (List.mem_map.2 ⟨e, he, of_decide_eq_true hsession⟩)
        rw [Storage.answer, Registry.lookup, hunknown]
        rfl

/-- On a storage that is durable from its opening, runs with a cache and without one answer
alike as long as the invariant allows for their events. -/
theorem answersAs_of_openAt (hdur : Storage.Durable dataDir Inv) {settings : Settings}
    (hvalid : settings.validate = .ok ()) (now : Nat) {disk disk' : Disk} {st : Storage B}
    (hopen : Storage.openAt dataDir settings.storage.syncWrite Registry.empty disk = (.ok st, disk')) :
    ∃ c, Collector.start settings dataDir now Registry.empty disk = (.ok c, disk') ∧
      Collector.start (settings.withColdPathCache false) dataDir now Registry.empty disk =
        (.ok c.uncached, disk') ∧
      ∀ events : List Event, (∀ event ∈ events, event.SavesGranted) → Inv events.length [] [] st →
        let on : Deployment B W := runAll dataDir (started c) events
        on.collector.storage.lifecycle.shutDown = false →
          on.AnswersAs (runAll dataDir (started c.uncached) (events.map Event.uncached)) := by
  obtain ⟨c, hstart⟩ : ∃ c : Collector B,
      Collector.start settings dataDir now Registry.empty disk = (.ok c, disk') := by
    rw [Collector.start, hvalid]
    simp only [hopen]
    exact ⟨_, rfl⟩
  have hoff := start_uncached (B := B) settings dataDir now Registry.empty disk
  simp only [hstart] at hoff
  refine ⟨c, hstart, hoff, ?_⟩
  intro events hsaves hinv on hshut
  obtain ⟨_, hopen', hengine⟩ := start_ok hstart
  rw [hopen] at hopen'
  cases hopen'
  have hupheld : (started c : Deployment B W).Upheld Inv (0 + events.length) :=
    upheld_started (by rw [Nat.zero_add]; exact hinv) (accounted_opened Registry.numbered_empty hopen)
      hengine
  have hbacked : on.Backed :=
    Backed.runAll hdur (backed_started [] hstart) hupheld hsaves
  have hsame : on.uncached = runAll dataDir (started c.uncached) (events.map Event.uncached) :=
    runAll_uncached hdur.locate _ events
  rw [← hsame]
  exact hbacked.answersAs (hupheld.runAll hdur hsaves) hdur.locate hshut

/-- On either backend, a collector with a cache and the same collector without one start on a
vacant directory, and after every run in which the device grants what is saved and that is
not shut down, they answer queries alike, but for sessions that were never issued and have
the key of one that was. Runs with failed saves are left out: `stale_after_failed_save`. -/
theorem cached_answers (dataDir : Path) {settings : Settings} (hvalid : settings.validate = .ok ())
    (now : Nat) :
    (∀ disk, Database.Vacant (dataDir ++ ["sessions"]) disk → ∃ c disk',
      Collector.start settings dataDir now Registry.empty disk = (.ok c, disk') ∧
        Collector.start (settings.withColdPathCache false) dataDir now Registry.empty disk =
          (.ok c.uncached, disk') ∧
        ∀ events : List Event, (∀ event ∈ events, event.SavesGranted) →
          let on : Deployment SessionFiles Handle := runAll dataDir (started c) events
          on.collector.storage.lifecycle.shutDown = false →
            on.AnswersAs (runAll dataDir (started c.uncached) (events.map Event.uncached))) ∧
    (∀ disk, Database.Vacant (dataDir ++ ["tsdb"]) disk → ∃ c disk',
      Collector.start settings dataDir now Registry.empty disk = (.ok c, disk') ∧
        Collector.start (settings.withColdPathCache false) dataDir now Registry.empty disk =
          (.ok c.uncached, disk') ∧
        ∀ events : List Event, (∀ event ∈ events, event.SavesGranted) →
          events.length < UInt64.size →
          let on : Deployment Database Unit := runAll dataDir (started c) events
          on.collector.storage.lifecycle.shutDown = false →
            on.AnswersAs (runAll dataDir (started c.uncached) (events.map Event.uncached))) := by
  constructor
  · intro disk hdisk
    obtain ⟨st, disk', hopen, hfiles⟩ := Storage.files_openAt hdisk settings.storage.syncWrite
    obtain ⟨c, hstart, hoff, hanswers⟩ :=
      answersAs_of_openAt (Storage.durable_files dataDir) hvalid now hopen
    exact ⟨c, disk', hstart, hoff, fun events hsaves => hanswers events hsaves hfiles⟩
  · intro disk hdisk
    obtain ⟨st, disk', hopen, _, hserves⟩ := Storage.serves_openAt hdisk settings.storage.syncWrite
    obtain ⟨c, hstart, hoff, hanswers⟩ :=
      answersAs_of_openAt (Storage.durable_series dataDir) hvalid now hopen
    refine ⟨c, disk', hstart, hoff, fun events hsaves hlength => hanswers events hsaves ?_⟩
    exact ⟨⟨0, by omega, hserves⟩, fun _ hv => absurd hv List.not_mem_nil⟩

/-- A session whose stream has ended, and a description that was never issued but has its key. -/
def describedSession : Session := ⟨⟨"a", "b::c"⟩, 1⟩

def unknownSession : Session := ⟨⟨"a::b", "c"⟩, 1⟩

/-- A stream describes itself and ends, and its session is asked for. -/
def askedRun : List Event :=
  [.connect, .request 0 (.description describedSession.owner) [], .close 0 [],
    .query none describedSession, .advance 1000000000]

theorem cache_answers_for_another_session :
    unknownSession.owner.validate = .ok () ∧ ∃ c disk,
      Collector.start (Settings.default.withColdPathCache true) ["data"] 0 Registry.empty Disk.empty =
        (.ok c, disk) ∧
      let on : Deployment SessionFiles Handle := runAll ["data"] (started c) askedRun
      let off := runAll ["data"] (started c.uncached) (askedRun.map Event.uncached)
      on.answer none unknownSession = .ok [] ∧
        off.answer none unknownSession = .error (.unknownSession unknownSession.key) := by
  refine ⟨rfl, _, _, rfl, ?_⟩
  decide +kernel

theorem cached_answers_asked_again :
    (Settings.default.withColdPathCache true).validate = .ok () ∧
      (∀ event ∈ askedRun, event.SavesGranted) ∧ ∃ c disk,
      Collector.start (Settings.default.withColdPathCache true) ["data"] 0 Registry.empty Disk.empty =
        (.ok c, disk) ∧
      let on : Deployment SessionFiles Handle := runAll ["data"] (started c) askedRun
      let off := runAll ["data"] (started c.uncached) (askedRun.map Event.uncached)
      on.collector.engine.cached? describedSession.key = some [] ∧
        on.answer none describedSession = off.answer none describedSession := by
  have hvalid : (Settings.default.withColdPathCache true).validate = .ok () := rfl
  have hsaves : ∀ event ∈ askedRun, event.SavesGranted := by
    simp [askedRun, Event.SavesGranted]
  obtain ⟨c, disk, hstart, _, hanswers⟩ := (cached_answers ["data"] hvalid 0).1 Disk.empty
    (Database.vacant_empty ["data", "sessions"])
  obtain ⟨c', disk', hstart', hshut, hissued, hcached⟩ : ∃ c disk,
      Collector.start (Settings.default.withColdPathCache true) ["data"] 0 Registry.empty Disk.empty =
        (.ok c, disk) ∧
      let on : Deployment SessionFiles Handle := runAll ["data"] (started c) askedRun
      on.collector.storage.lifecycle.shutDown = false ∧
        on.collector.storage.registry.issued = [describedSession] ∧
        on.collector.engine.cached? describedSession.key = some [] :=
    ⟨_, _, rfl, by decide +kernel⟩
  rw [hstart] at hstart'
  cases hstart'
  refine ⟨hvalid, hsaves, c, disk, hstart, hcached, ?_⟩
  refine (hanswers askedRun hsaves hshut describedSession).1.resolve_right fun hunknown => ?_
  rw [hissued] at hunknown
  exact hunknown.1 List.mem_cons_self

/-- A measurement of one call-site. -/
def unsettled : Measurement :=
  ⟨⟨1700000000, 0, by decide, by decide⟩, [⟨⟨[⟨"f", "m.go", 1⟩]⟩, ⟨1, 8, 0, 0⟩⟩]⟩

/-- A session is asked for before its only save, which writes all of the record but the end
of its line. -/
def failedRun : List Event :=
  [.connect, .request 0 (.description describedSession.owner) [], .query none describedSession,
    .request 0 (.measurement unsettled) [.room ((Record.encode unsettled).length - 1)]]

/-- A failed save may leave a record that can be read, of a session without windows. A report
that was cached earlier does not have it. -/
theorem stale_after_failed_save :
    ∃ c disk,
      Collector.start (Settings.default.withColdPathCache true) ["data"] 0 Registry.empty Disk.empty =
        (.ok c, disk) ∧
      let on : Deployment SessionFiles Handle := runAll ["data"] (started c) failedRun
      let off := runAll ["data"] (started c.uncached) (failedRun.map Event.uncached)
      (on.answer none describedSession).toOption.map List.length = some 0 ∧
        (off.answer none describedSession).toOption.map List.length = some 1 := by
  refine ⟨_, _, rfl, ?_⟩
  decide +kernel

end Deployment
end HeapTelemetry
