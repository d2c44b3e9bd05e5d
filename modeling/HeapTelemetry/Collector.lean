import HeapTelemetry.Engine
import HeapTelemetry.SaveProtocol
import HeapTelemetry.Settings

/-! A running collector: its storage and its rates, from start to shutdown. -/

namespace HeapTelemetry

structure Collector (B : Type) where
  settings : Settings
  storage : Storage B
  engine : Engine
  shuttingDown : Bool

namespace Collector
variable {B W α : Type}

def version : String := "0.1.0"

def onStorage (x : Step (Storage B) α) : Step (Collector B) α :=
  Step.on Collector.storage (fun s c => { c with storage := s }) x

def onEngine (x : Step Engine α) : Step (Collector B) α :=
  Step.on Collector.engine (fun e c => { c with engine := e }) x

def onBoth (x : Step (Engine × Storage B) α) : Step (Collector B) α :=
  Step.on (fun c => (c.engine, c.storage)) (fun p c => { c with engine := p.1, storage := p.2 }) x

def onRegistry (x : Step Registry α) : Step (Collector B) α := onStorage (Storage.onRegistry x)

/-- The cache of a collector, collecting garbage from the start. -/
def newCache (s : Settings) (now : Nat) : Option TimedCache :=
  if s.metrics.coldPathCache then some (TimedCache.empty s.cacheLimits now).startCollecting else none

/-- Starts a collector on what it finds in its data directory. -/
def start [Backend B W] (s : Settings) (dataDir : Path) (now : Nat) (registry : Registry) (disk : Disk) :
    Except Error (Collector B) × Disk :=
  match s.validate with
  | .error e => (.error e, disk)
  | .ok () =>
    match Storage.openAt dataDir s.storage.syncWrite registry disk with
    | (.error e, disk) => (.error e, disk)
    | (.ok storage, disk) =>
      (.ok ⟨s, storage, Engine.initial s.metrics.window s.metrics.subscriptionBuffer (newCache s now), false⟩,
        disk)

/-- Where the streams of a collector save to. -/
def ports [Backend B W] : Ports (Collector B) (Saver W) where
  openSaver owner := onStorage (Storage.openSaver owner)
  session := Saver.session
  save saver m := onStorage (Storage.save saver m)
  closeSaver saver := onStorage (Storage.closeSaver saver)
  put s m := onEngine (Engine.put s m)

def metrics [Backend B W] (cancelAfter : Option Nat) (s : Session) : Step (Collector B) Report :=
  onBoth (Engine.metrics cancelAfter s)

/-- A subscription of a collector that is shutting down has ended already. -/
def subscribe (s : Session) : Step (Collector B) Subscription := do
  let c ← get
  let (sub, feed) := c.engine.feed.subscribe s.key
  let feed := if c.shuttingDown then feed.cancel sub else feed
  set { c with engine.feed := feed }
  return sub

def receive (s : Subscription) : Step (Collector B) (Received Report) := do
  let c ← get
  let (got, feed) := c.engine.feed.receive s
  set { c with engine.feed := feed }
  return got

def unsubscribe (s : Subscription) : Step (Collector B) Unit :=
  modify fun c => { c with engine.feed := c.engine.feed.remove s }

/-- Ends subscriptions, requests and the collection of garbage. Streams may go
on. -/
def beginShutdown : Step (Collector B) Unit :=
  modify fun c =>
    { c with
      shuttingDown := true, engine.feed := c.engine.feed.cancelAll
      engine.cache := c.engine.cache.map TimedCache.stopCollecting }

/-- Begins shutdown and closes storage to new streams and readers. -/
def shutDown [Backend B W] : Step (Collector B) Unit := do
  beginShutdown
  onStorage Storage.shutDown

end Collector
end HeapTelemetry
