import HeapTelemetry.Measurement

/-! The protocol of one ingestion stream: a description first, then any number
of measurements, then the end. A call out of order is refused and ends the
stream; what the stream holds is released exactly once. -/

namespace HeapTelemetry

/-- What a stream needs of its surroundings. `σ` is their state and `V` the
right to save to one session. Every step may fail. -/
structure Ports (σ V : Type) where
  openSaver : Instance → Step σ V
  session : V → Session
  save : V → Measurement → Step σ Unit
  closeSaver : V → Step σ Unit
  /-- Feeds a saved measurement to the rates. -/
  put : Session → Measurement → Step σ Unit

inductive Phase (V : Type)
  | awaitDescription
  | awaitMeasurement (saver : V)
  | finished

def Phase.name {V : Type} : Phase V → String
  | awaitDescription => "await_description"
  | awaitMeasurement _ => "await_measurement"
  | finished => "finished"

/-- `session` stays known after the end. -/
structure SaveProtocol (V : Type) where
  phase : Phase V
  session : Option Session
  measurements : Nat

namespace SaveProtocol
variable {σ V α : Type}

def initial : SaveProtocol V := ⟨.awaitDescription, none, 0⟩

def outside (x : Step σ α) : Step (SaveProtocol V × σ) α :=
  Step.on Prod.snd (fun s p => (p.1, s)) x

def phase? : Step (SaveProtocol V × σ) (Phase V) := do return (← get).1.phase

def setPhase (phase : Phase V) : Step (SaveProtocol V × σ) Unit :=
  modify fun (p, s) => ({ p with phase }, s)

/-- Ends the stream without a word on whether its saver could be closed. -/
def abandon (ports : Ports σ V) : Step (SaveProtocol V × σ) Unit := do
  let phase ← phase?
  setPhase .finished
  match phase with
  | .awaitMeasurement saver => discard (Step.attempt (outside (ports.closeSaver saver)))
  | _ => pure ()

/-- Refuses a call and ends the stream. -/
def refuse (ports : Ports σ V) (method : String) : Step (SaveProtocol V × σ) α := do
  let phase ← phase?
  abandon ports
  throw (.unexpectedCall method phase.name)

/-- Opens a session for an instance. If that fails, the stream has ended. -/
def addDescription (ports : Ports σ V) (owner : Instance) : Step (SaveProtocol V × σ) Session := do
  match ← phase? with
  | .awaitDescription =>
    setPhase .finished
    Step.ofExcept owner.validate
    let saver ← outside (ports.openSaver owner)
    let session := ports.session saver
    modify fun (p, s) => ({ p with session := some session, phase := .awaitMeasurement saver }, s)
    return session
  | _ => refuse ports "add_description"

/-- Saves a measurement, then feeds it to the rates. After a failure the stream
goes on, but the measurement is not counted. -/
def addMeasurement (ports : Ports σ V) (m : Measurement) : Step (SaveProtocol V × σ) Unit := do
  match ← phase? with
  | .awaitMeasurement saver =>
    outside (ports.save saver m)
    outside (ports.put (ports.session saver) m)
    modify fun (p, s) => ({ p with measurements := p.measurements + 1 }, s)
  | _ => refuse ports "add_measurement"

def handle (ports : Ports σ V) : Request → Step (SaveProtocol V × σ) Unit
  | .description owner => discard (addDescription ports owner)
  | .measurement m => addMeasurement ports m

/-- Ends the stream; a second time does nothing. -/
def close (ports : Ports σ V) : Step (SaveProtocol V × σ) Unit := do
  let phase ← phase?
  setPhase .finished
  match phase with
  | .awaitMeasurement saver => outside (ports.closeSaver saver)
  | _ => pure ()

end SaveProtocol
end HeapTelemetry
