import HeapTelemetry.Lifecycle
import HeapTelemetry.Registry
import HeapTelemetry.Storage.Backend

/-! Storage of sessions over any backend. Savers and loaders are admitted and
counted by the lifecycle, sessions are registered, and whoever fails to get in
leaves nothing behind. -/

namespace HeapTelemetry

structure Storage (B : Type) where
  backend : B
  disk : Disk
  registry : Registry
  lifecycle : Lifecycle

/-- The right to save measurements of one session. -/
structure Saver (W : Type) where
  session : Session
  writer : W

namespace Storage
variable {B W α : Type}

def onLifecycle (x : Step Lifecycle α) : Step (Storage B) α :=
  Step.on Storage.lifecycle (fun l s => { s with lifecycle := l }) x

def onRegistry (x : Step Registry α) : Step (Storage B) α :=
  Step.on Storage.registry (fun r s => { s with registry := r }) x

def onBackend (x : Step (B × Disk) α) : Step (Storage B) α :=
  Step.on (fun s => (s.backend, s.disk)) (fun p s => { s with backend := p.1, disk := p.2 }) x

def release : Step (Storage B) Unit := onLifecycle (modify Lifecycle.leave)

/-- Runs a step of a user that has been let in, and lets it out if it fails. -/
def releasingOnError (x : Step (Storage B) α) : Step (Storage B) α := do
  match ← Step.attempt x with
  | .ok a => return a
  | .error e =>
    release
    throw e

variable [Backend B W]

/-- Opens the storage of a data directory, with the registry kept there. -/
def openAt (dataDir : Path) (syncWrite : Bool) (registry : Registry) (disk : Disk) :
    Except Error (Storage B) × Disk :=
  match registry.reopen with
  | .error e => (.error e, disk)
  | .ok registry =>
    match Step.run (Backend.openAt dataDir syncWrite) disk with
    | (.ok backend, disk) => (.ok ⟨backend, disk, registry, Lifecycle.initial⟩, disk)
    | (.error e, disk) => (.error e, disk)

/-- Prepares a session that was just registered; if that fails it is stopped. -/
def prepare (session : Session) : Step (Storage B) (Saver W) := do
  match ← Step.attempt (onBackend (Backend.create session)) with
  | .ok writer => return ⟨session, writer⟩
  | .error _ =>
    discard (Step.attempt (onRegistry (Registry.stopSession session)))
    throw (.noDataFile session.key)

/-- Registers a new session of an instance and opens it for saving. -/
def openSaver (owner : Instance) : Step (Storage B) (Saver W) := do
  onLifecycle Lifecycle.acquire
  releasingOnError do prepare (← onRegistry (Registry.startSession owner))

def save (s : Saver W) (m : Measurement) : Step (Storage B) Unit :=
  onBackend (Backend.save s.session s.writer m)

/-- Finishes the session and leaves, whatever fails on the way. -/
def closeSaver (s : Saver W) : Step (Storage B) Unit := do
  let finished ← Step.attempt (onBackend (Backend.finish s.session s.writer))
  let stopped ← Step.attempt (onRegistry (Registry.stopSession s.session))
  release
  Step.ofExcept finished
  Step.ofExcept stopped

/-- Admits a reader of a session that is registered and has data. -/
def openLoader (session : Session) : Step (Storage B) Unit := do
  onLifecycle Lifecycle.acquire
  releasingOnError do
    discard (Step.ofExcept ((← get).registry.lookup session))
    onBackend (Backend.locate session)

def read (s : Storage B) (session : Session) : Reading := Backend.read session (s.backend, s.disk)

def closeLoader : Step (Storage B) Unit := release

/-- Lets nobody in any more. The backend closes once nobody is left. -/
def shutDown : Step (Storage B) Unit := do
  onLifecycle (modify Lifecycle.beginShutdown)
  if (← get).lifecycle.isIdle then onBackend Backend.close

end Storage
end HeapTelemetry
