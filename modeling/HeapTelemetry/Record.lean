import HeapTelemetry.Json.Fields
import HeapTelemetry.Measurement
import HeapTelemetry.Timestamp.Text

/-! Records as JSON: call stacks, measurements one to a line, and the requests
of an ingestion stream. -/

namespace HeapTelemetry.Record
open Json

def ofFrame (f : Frame) : Json :=
  record [("name", ofString f.name), ("file", ofString f.file), ("line", ofInt f.line.toInt)]

def ofCallStack (s : CallStack) : Json := record [("frames", array (s.frames.map ofFrame))]

def ofUsage (u : Usage) : Json :=
  record [("alloc_objects", ofInt u.allocObjects.toInt), ("alloc_bytes", ofInt u.allocBytes.toInt),
    ("free_objects", ofInt u.freeObjects.toInt), ("free_bytes", ofInt u.freeBytes.toInt)]

def ofLocation (l : Location) : Json :=
  record [("call_stack", ofCallStack l.stack), ("memory_usage", ofUsage l.usage)]

def ofMeasurement (m : Measurement) : Json :=
  record [("observed_at", ofString m.observedAt.text), ("locations", array (m.locations.map ofLocation))]

def ofInstance (i : Instance) : Json :=
  record [("service_name", ofString i.service), ("instance_name", ofString i.name)]

def ofSession (s : Session) : Json :=
  record [("instance", ofInstance s.owner), ("session_id", ofInt s.id)]

def ofRequest : Request → Json
  | .description i => record [("description", ofInstance i)]
  | .measurement m => record [("measurement", ofMeasurement m)]

def frame? (v : Json) : Option Frame := do
  let [some name, some file, some line] ← fields? ["name", "file", "line"] v | none
  return ⟨← asText? name, ← asText? file, ← asInt32? line⟩

def callStack? (v : Json) : Option CallStack := do
  let [some frames] ← fields? ["frames"] v | none
  return ⟨← asList? frame? frames⟩

def usage? (v : Json) : Option Usage := do
  let [some ao, some ab, some fo, some fb] ←
    fields? ["alloc_objects", "alloc_bytes", "free_objects", "free_bytes"] v | none
  return ⟨← asInt64? ao, ← asInt64? ab, ← asInt64? fo, ← asInt64? fb⟩

def location? (v : Json) : Option Location := do
  let [some stack, some usage] ← fields? ["call_stack", "memory_usage"] v | none
  return ⟨← callStack? stack, ← usage? usage⟩

def timestamp? (v : Json) : Option Timestamp := (asText? v).bind Timestamp.parse?

/-- Locations may be left out. -/
def measurement? (v : Json) : Option Measurement := do
  let [some observedAt, locations] ← fields? ["observed_at", "locations"] v | none
  let locations ← match locations with
    | some vs => asList? location? vs
    | none => some []
  return ⟨← timestamp? observedAt, locations⟩

def instance? (v : Json) : Option Instance := do
  let [some service, some name] ← fields? ["service_name", "instance_name"] v | none
  return ⟨← asText? service, ← asText? name⟩

/-- An object with one member, named for the kind of request. -/
def request? : Json → Option Request
  | object [(raw, v)] => do
    match ← Json.text? raw with
    | "description" => return .description (← instance? v)
    | "measurement" => return .measurement (← measurement? v)
    | _ => none
  | _ => none

/-- The line of a measurement, newline included. -/
def encode (m : Measurement) : Bytes := (ofMeasurement m).render ++ [Bytes.newline]

/-- Reads the line of a measurement, with or without its newline. -/
def decode (line : Bytes) : Except Error Measurement :=
  match Bytes.text? line with
  | none => .error .recordNotText
  | some _ =>
    match (Json.parse? line).bind measurement? with
    | some m => .ok m
    | none => .error .malformedRecord

def decodeRequest (line : Bytes) : Except Error Request :=
  match (Json.parse? line).bind request? with
  | some r => .ok r
  | none => .error .malformedRequest

/-- A call stack as compact text. -/
def callStackText (s : CallStack) : Bytes := (ofCallStack s).render

end HeapTelemetry.Record
