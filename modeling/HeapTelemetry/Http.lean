import HeapTelemetry.Collector
import HeapTelemetry.Http.Route
import HeapTelemetry.Ingest

/-! The HTTP interface of a collector: ingestion, queries and live updates. -/

namespace HeapTelemetry.Http

structure Request where
  method : String
  target : String
  body : List Ingest.Chunk

/-- What a response carries. Reports that go out over HTTP hold finite rates
only. -/
inductive Body
  | empty
  | failure (e : Error)
  | health (stopping : Bool) (residentSessions : Nat)
  | saved (session : Option Session) (measurements : Nat)
  | services (names : List String)
  | instances (owners : List Instance)
  | sessions (entries : List RegistryEntry)
  | report (r : Report)
  | events (s : Subscription)

/-- The media type of a body, if there is one: JSON but for live updates. -/
def Body.contentType : Body → Option String
  | .empty => none
  | .events _ => some "text/event-stream"
  | _ => some "application/json"

/-- `anyOrigin` tells browsers that every site may read the response. -/
structure Response where
  status : Nat
  anyOrigin : Bool
  body : Body

/-- The status that tells of an error. -/
def statusOf (e : Error) : Nat :=
  match e.kind with
  | .protocol | .serialization | .codec | .invalidDescription => 400
  | .notFound => 404
  | .cancelled => 503
  | _ => 500

variable {B W : Type} [Backend B W]

/-- Work on a request is cancelled from the start while shutting down. -/
def cancelAfter (c : Collector B) : Option Nat := if c.shuttingDown then some 0 else none

/-- One ingestion stream. The first failure is reported, and the session is
closed in any case. -/
def save (body : List Ingest.Chunk) : Step (Collector B) Body := do
  let c ← get
  let (outcome, stream) ← Step.beside (SaveProtocol.initial : SaveProtocol (Saver W)) do
    let ingested ← Step.attempt (Ingest.run c.settings.server.maxLineBytes
      (SaveProtocol.handle Collector.ports) (·.1.measurements) (cancelAfter c) body)
    let closed ← Step.attempt (SaveProtocol.close Collector.ports)
    let measurements ← Step.ofExcept ingested
    Step.ofExcept closed
    return measurements
  return .saved stream.session (← Step.ofExcept outcome)

def sessions (owner : Instance) : Step (Collector B) Body := do
  Step.ofExcept owner.validate
  return .sessions ((← get).storage.registry.sessions owner)

def metrics (s : Session) : Step (Collector B) Body := do
  Step.ofExcept s.owner.validate
  return .report (← Collector.metrics (cancelAfter (← get)) s).sanitized

/-- Only sessions that are registered can be listened to. -/
def subscribe (s : Session) : Step (Collector B) Body := do
  Step.ofExcept s.owner.validate
  discard (Step.ofExcept ((← get).storage.registry.lookup s))
  return .events (← Collector.subscribe s)

/-- The handler of a route, unless a parameter in it makes no sense. -/
def handler? (body : List Ingest.Chunk) : Route → Option (Step (Collector B) Body)
  | .health => some do
    let c ← get
    return .health c.shuttingDown c.engine.resident.length
  | .save => some (save body)
  | .services => some do return .services (← get).storage.registry.services
  | .instances service => do
    let service ← text? service
    some do return .instances ((← get).storage.registry.instances service)
  | .sessions service name => do
    let owner ← instance? service name
    some (sessions owner)
  | .metrics service name id => do
    let s ← session? service name id
    some (metrics s)
  | .subscribe service name id => do
    let s ← session? service name id
    some (subscribe s)

/-- Every route but `save` is for reading. -/
def allows (method : String) : Route → Bool
  | .save => method = "POST"
  | _ => method = "GET" || method = "HEAD"

def dispatch (r : Request) : Step (Collector B) (Nat × Body) := do
  match Route.ofTarget? r.target with
  | none => return (404, .empty)
  | some route =>
    if !allows r.method route then return (405, .empty)
    match handler? r.body route with
    | none => return (400, .empty)
    | some handler =>
      match ← Step.attempt handler with
      | .ok body => return (200, body)
      | .error e => return (statusOf e, .failure e)

/-- A `HEAD` request is answered without the body, which is dropped. -/
def withoutBody (body : Body) : Step (Collector B) Body := do
  match body with
  | .events s => Collector.unsubscribe s
  | _ => pure ()
  return .empty

/-- Answers a request. Where every origin is welcome, an `OPTIONS` request asks
for just that. -/
def serve (r : Request) : Step (Collector B) Response := do
  let anyOrigin := (← get).settings.server.enableCors
  if anyOrigin && r.method = "OPTIONS" then return ⟨200, true, .empty⟩
  let (status, body) ← dispatch r
  if r.method = "HEAD" then return ⟨status, anyOrigin, ← withoutBody body⟩
  return ⟨status, anyOrigin, body⟩

/-- Nanoseconds without an event after which a listener gets a heartbeat. -/
def heartbeatPeriod : Nat := 15000000000

/-- A client that listens to a session, and when its next heartbeat is due. -/
structure Listener where
  subscription : Subscription
  due : Nat

def Listener.start (s : Subscription) (now : Nat) : Listener := ⟨s, now + heartbeatPeriod⟩

/-- What a listener finds. -/
inductive Event
  | report (r : Report)
  | heartbeat
  | pending
  | ended

/-- Takes what comes next for a listener. Any event puts the next heartbeat off.
At the end the subscription goes. -/
def nextEvent (now : Nat) (l : Listener) : Step (Collector B) (Event × Listener) := do
  match ← Collector.receive l.subscription with
  | .update r => return (.report r.sanitized, .start l.subscription now)
  | .pending =>
    if l.due ≤ now then return (.heartbeat, .start l.subscription now) else return (.pending, l)
  | .ended =>
    Collector.unsubscribe l.subscription
    return (.ended, l)

end HeapTelemetry.Http
