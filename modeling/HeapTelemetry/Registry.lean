import HeapTelemetry.Instance
import HeapTelemetry.Timestamp

/-! The registry of services, their instances and their sessions. Session
numbers are global and never given twice. When a session was started and when it
was finished is told by the clock of the system. -/

namespace HeapTelemetry

structure RegistryEntry where
  session : Session
  startedAt : Timestamp
  finishedAt : Option Timestamp
  deriving DecidableEq, Repr

def RegistryEntry.active (e : RegistryEntry) : Bool := e.finishedAt.isNone

/-- `version` is that of the stored schema; entries are in order of their
sessions' numbers. `clock` is what the clock says at the moment, in nanoseconds
since 1970; it may be set to any time that has 64 bits. -/
structure Registry where
  version : Int
  lastId : Nat
  entries : List RegistryEntry
  clock : Int64
  deriving DecidableEq, Repr

namespace Registry

def supportedVersion : Int := 1

def empty : Registry := ⟨supportedVersion, 0, [], 0⟩

def setClock (time : Int64) (r : Registry) : Registry := { r with clock := time }

/-- Opens a stored registry; one of a newer schema is refused. -/
def reopen (r : Registry) : Except Error Registry :=
  if r.version > supportedVersion then .error (.newerSchema r.version supportedVersion)
  else .ok { r with version := supportedVersion }

/-- Opens a new session of an instance. -/
def startSession (owner : Instance) : Step Registry Session := do
  Step.ofExcept owner.validate
  let r ← get
  let session : Session := ⟨owner, (r.lastId + 1 : Nat)⟩
  let entry : RegistryEntry := ⟨session, .ofNanos r.clock, none⟩
  set ({ r with lastId := r.lastId + 1, entries := r.entries ++ [entry] } : Registry)
  return session

def find? (r : Registry) (s : Session) : Option RegistryEntry := r.entries.find? (·.session = s)

/-- What is known of a session. -/
def lookup (r : Registry) (s : Session) : Except Error RegistryEntry :=
  match r.find? s with
  | some e => .ok e
  | none => .error (.unknownSession s.key)

/-- Marks a session as finished, once. -/
def stopSession (s : Session) : Step Registry Unit := do
  let r ← get
  let e ← Step.ofExcept (r.lookup s)
  if !e.active then throw (.alreadyStopped s.key)
  modify fun r => { r with entries := r.entries.map fun e =>
    if e.session = s then { e with finishedAt := some (.ofNanos r.clock) } else e }

/-- Names in ascending order, each once. -/
def sortedNames (names : List String) : List String := names.eraseDups.mergeSort fun a b => a ≤ b

def services (r : Registry) : List String := sortedNames (r.entries.map (·.session.owner.service))

def instances (r : Registry) (service : String) : List Instance :=
  (sortedNames ((r.entries.filter (·.session.owner.service = service)).map (·.session.owner.name))).map
    (Instance.mk service)

def sessions (r : Registry) (owner : Instance) : List RegistryEntry :=
  r.entries.filter (·.session.owner = owner)

end Registry
end HeapTelemetry
