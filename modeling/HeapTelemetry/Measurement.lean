import HeapTelemetry.CallStack
import HeapTelemetry.Instance
import HeapTelemetry.Timestamp

/-! Heap samples: the cumulative counters of call-sites at one instant. -/

namespace HeapTelemetry

/-- Cumulative allocation counters since the process started. -/
structure Usage where
  allocObjects : Int64
  allocBytes : Int64
  freeObjects : Int64
  freeBytes : Int64
  deriving DecidableEq, Repr

namespace Usage

def zero : Usage := ⟨0, 0, 0, 0⟩

/-- Differences beyond 64 bits wrap around. -/
def inUseObjects (u : Usage) : Int64 := u.allocObjects - u.freeObjects
def inUseBytes (u : Usage) : Int64 := u.allocBytes - u.freeBytes

end Usage

/-- One call-site and its counters. -/
structure Location where
  stack : CallStack
  usage : Usage
  deriving DecidableEq, Repr

structure Measurement where
  observedAt : Timestamp
  locations : List Location
  deriving DecidableEq, Repr

/-- One message of an ingestion stream. -/
inductive Request
  | description (owner : Instance)
  | measurement (m : Measurement)
  deriving DecidableEq, Repr

end HeapTelemetry
