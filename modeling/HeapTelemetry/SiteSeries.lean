import HeapTelemetry.Record
import HeapTelemetry.Series.Sample

/-! Locations as labelled values: one series for each stored counter of a
call-site, and how to read the site and its counters back. -/

namespace HeapTelemetry

/-- The counters that are stored. -/
inductive Metric
  | allocBytes | allocObjects | freeBytes | freeObjects
  deriving DecidableEq, Repr

namespace Metric

def all : List Metric := [allocBytes, allocObjects, freeBytes, freeObjects]

def name : Metric → String
  | allocBytes => "alloc_bytes"
  | allocObjects => "alloc_objects"
  | freeBytes => "free_bytes"
  | freeObjects => "free_objects"

def ofName? (name : String) : Option Metric := all.find? (·.name = name)

def read (u : Usage) : Metric → Int64
  | allocBytes => u.allocBytes
  | allocObjects => u.allocObjects
  | freeBytes => u.freeBytes
  | freeObjects => u.freeObjects

def write (u : Usage) (value : Int64) : Metric → Usage
  | allocBytes => { u with allocBytes := value }
  | allocObjects => { u with allocObjects := value }
  | freeBytes => { u with freeBytes := value }
  | freeObjects => { u with freeObjects := value }

end Metric

namespace SiteSeries

def sessionLabel : String := "session"
def stackIdLabel : String := "callstack_id"
def stackLabel : String := "meta"
def metricLabel : String := "metric_type"

/-- Accepts every series of a session. -/
def sessionMatcher (s : Session) : Matcher := ⟨sessionLabel, s.key⟩

/-- Doubles hold every integer of this magnitude exactly. -/
def maxExact : Int := 9007199254740992

def checkExact (u : Usage) (m : Metric) : Except Error Unit :=
  let v := (m.read u).toInt
  if v.natAbs > maxExact then .error (.inexactCounter m.name v) else .ok ()

def stackText (s : CallStack) : String := (Bytes.text? (Record.callStackText s)).getD ""

def labels (s : Session) (stack : CallStack) (m : Metric) : Labels :=
  Labels.ofList [(sessionLabel, s.key), (stackIdLabel, stack.id), (stackLabel, stackText stack),
    (metricLabel, m.name)]

/-- The four labelled values of a location, or the first counter that would not
read back unchanged. -/
def encode (s : Session) (l : Location) : Except Error (List (Labels × Binary64)) := do
  Metric.all.forM (checkExact l.usage)
  return Metric.all.map fun m =>
    (labels s l.stack m, Binary64.ofInt (m.read l.usage).toInt)

def callStack (l : Labels) : Except Error CallStack :=
  match l.get? stackLabel with
  | none => .error (.missingLabel stackLabel)
  | some text =>
    match (Json.parse? (Bytes.ofText text)).bind Record.callStack? with
    | some stack => .ok stack
    | none => .error .corruptCallStack

def metric (l : Labels) : Except Error Metric :=
  match (l.get? metricLabel).bind Metric.ofName? with
  | some m => .ok m
  | none => .error .unknownMetric

/-- Stored values are whole counters. -/
def counter (v : Binary64) : Int64 := v.toInt64

end SiteSeries
end HeapTelemetry
