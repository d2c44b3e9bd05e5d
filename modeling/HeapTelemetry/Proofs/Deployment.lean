import HeapTelemetry.Proofs.DiskLaws
import HeapTelemetry.Proofs.Streams

/-! A collector in use, on any backend. Streams come, are called in any order and end or
are dropped; readers come and go; sessions are queried and listened to; time passes and
garbage is collected; the collector is shut down and started again. The device gives any
answers to what a stream does. -/

namespace HeapTelemetry
open Step

/-- The collector on a device that gives these answers next. -/
def Collector.expecting {B : Type} (answers : List Verdict) (c : Collector B) : Collector B :=
  { c with storage := { c.storage with disk := c.storage.disk.facing answers } }

/-- A collector with its streams and its readers. What was `saved` is the measurements that
the storage took, in order, and `earlier` are the sessions that were issued before the
collector was started. -/
structure Deployment (B W : Type) where
  collector : Collector B
  streams : List (SaveProtocol (Saver W))
  loaders : List Session
  saved : List (Session × Measurement)
  earlier : List Session

namespace Deployment
variable {B W : Type}

/-- What happens to a deployment. Streams and loaders are named by their places. Listeners
change the feed as they like; a collection of garbage takes the time that it takes. Time passes
for the cache, and the clock that sessions are stamped by is set to any time. -/
inductive Event
  | connect
  | request (place : Nat) (r : Request) (answers : List Verdict)
  | close (place : Nat) (answers : List Verdict)
  | drop (place : Nat) (answers : List Verdict)
  | openLoader (s : Session)
  | closeLoader (place : Nat)
  | query (cancelAfter : Option Nat) (s : Session)
  | listen (change : Feed Report → Feed Report)
  | advance (duration : Nat)
  | setClock (time : Int64)
  | collect (elapsed : Nat → Nat)
  | shutDown
  | restart (settings : Settings) (now : Nat)

/-- A collector that was just started, on a registry that was there before. -/
def started (c : Collector B) : Deployment B W :=
  ⟨c, [], [], [], c.storage.registry.entries.map (·.session)⟩

/-- The savers that streams hold. -/
def savers (d : Deployment B W) : List (Saver W) := d.streams.filterMap SaveProtocol.saver?

def onEngine (f : Engine → Engine) (d : Deployment B W) : Deployment B W :=
  { d with collector := { d.collector with engine := f d.collector.engine } }

variable [Backend B W]

/-- What a request makes the storage take. -/
def saving (d : Deployment B W) (place : Nat) (r : Request) (answers : List Verdict) :
    List (Session × Measurement) :=
  match (d.streams[place]?).bind (·.offering? r) with
  | none => []
  | some (v, m) =>
    match (run (Storage.save v m) (d.collector.expecting answers).storage).1 with
    | .ok _ => [(v.session, m)]
    | .error _ => []

/-- Runs a step of a stream while the device gives these answers. -/
def onStream (d : Deployment B W) (place : Nat) (answers : List Verdict)
    (x : Step (SaveProtocol (Saver W) × Collector B) Unit) : Deployment B W :=
  match d.streams[place]? with
  | none => d
  | some p =>
    let (p, c) := (run x (p, d.collector.expecting answers)).2
    { d with collector := c.expecting [], streams := d.streams.set place p }

/-- The deployment after an event. -/
def happen (dataDir : Path) (d : Deployment B W) : Event → Deployment B W
  | .connect => { d with streams := d.streams ++ [SaveProtocol.initial] }
  | .request place r answers =>
    { d.onStream place answers (SaveProtocol.handle Collector.ports r) with
      saved := d.saved ++ d.saving place r answers }
  | .close place answers => d.onStream place answers (SaveProtocol.close Collector.ports)
  | .drop place answers => d.onStream place answers (SaveProtocol.abandon Collector.ports)
  | .openLoader s =>
    match run (Collector.onStorage (Storage.openLoader s)) d.collector with
    | (.ok _, c) => { d with collector := c, loaders := d.loaders ++ [s] }
    | (.error _, c) => { d with collector := c }
  | .closeLoader place =>
    match d.loaders[place]? with
    | none => d
    | some _ =>
      { d with
        collector := (run (Collector.onStorage Storage.closeLoader) d.collector).2
        loaders := d.loaders.eraseIdx place }
  | .query cancelAfter s => { d with collector := (run (Collector.metrics cancelAfter s) d.collector).2 }
  | .listen change => d.onEngine fun e => { e with feed := change e.feed }
  | .advance duration => d.onEngine (·.advance duration)
  | .setClock time =>
    { d with collector.storage.registry := d.collector.storage.registry.setClock time }
  | .collect elapsed => d.onEngine fun e => { e with
      cache := e.cache.map fun t => { t with cache := (t.cache.collectGarbage t.now elapsed).2 } }
  | .shutDown => { d with collector := (run Collector.shutDown d.collector).2 }
  | .restart settings now =>
    let storage := d.collector.storage
    match Collector.start settings dataDir now storage.registry storage.disk with
    | (.ok c, _) => { started c with saved := d.saved }
    | (.error _, _) => d

def runAll (dataDir : Path) (d : Deployment B W) (events : List Event) : Deployment B W :=
  events.foldl (happen dataDir) d

theorem happen_openLoader (dataDir : Path) (d : Deployment B W) (s : Session) :
    d.happen dataDir (.openLoader s) = { d with
      collector := { d.collector with
        storage := (run (Storage.openLoader s) d.collector.storage).2 }
      loaders := d.loaders ++
        (run (Storage.openLoader s) d.collector.storage).1.toOption.toList.map fun _ => s } := by
  rw [happen, Collector.run_onStorage]
  cases run (Storage.openLoader s) d.collector.storage with
  | mk r st => cases r <;> simp [Except.toOption]

/-- A collector that starts has opened its storage and has no session in memory. -/
theorem start_ok {settings : Settings} {dataDir : Path} {now : Nat} {registry : Registry}
    {disk disk' : Disk} {c : Collector B}
    (h : Collector.start settings dataDir now registry disk = (.ok c, disk')) :
    c.settings = settings ∧
      Storage.openAt dataDir settings.storage.syncWrite registry disk = (.ok c.storage, disk') ∧
      c.engine = Engine.initial settings.metrics.window settings.metrics.subscriptionBuffer
        (Collector.newCache settings now) := by
  rw [Collector.start] at h
  cases hvalid : settings.validate with
  | error e =>
    rw [hvalid] at h
    cases h
  | ok u =>
    rw [hvalid] at h
    simp only at h
    cases hopen : (Storage.openAt dataDir settings.storage.syncWrite registry disk :
        Except Error (Storage B) × Disk) with
    | mk r d =>
      rw [hopen] at h
      cases r with
      | error e => cases h
      | ok st =>
        cases h
        exact ⟨rfl, rfl, rfl⟩

end Deployment
end HeapTelemetry
