import HeapTelemetry.Rates.Slope
import HeapTelemetry.Window

/-! The six heap counters of a call-site and their rates per second. -/

namespace HeapTelemetry

inductive Counter
  | allocObjects | allocBytes | freeObjects | freeBytes | inUseObjects | inUseBytes
  deriving DecidableEq, Repr

namespace Counter

def all : List Counter :=
  [allocObjects, allocBytes, freeObjects, freeBytes, inUseObjects, inUseBytes]

def name : Counter → String
  | allocObjects => "alloc_objects"
  | allocBytes => "alloc_bytes"
  | freeObjects => "free_objects"
  | freeBytes => "free_bytes"
  | inUseObjects => "in_use_objects"
  | inUseBytes => "in_use_bytes"

def value (u : Usage) : Counter → Int64
  | allocObjects => u.allocObjects
  | allocBytes => u.allocBytes
  | freeObjects => u.freeObjects
  | freeBytes => u.freeBytes
  | inUseObjects => u.inUseObjects
  | inUseBytes => u.inUseBytes

end Counter

/-- A rate for every counter. -/
structure Rates (α : Type) where
  allocObjects : α
  allocBytes : α
  freeObjects : α
  freeBytes : α
  inUseObjects : α
  inUseBytes : α
  deriving DecidableEq, Repr

namespace Rates
variable {α β : Type}

def ofCounters (f : Counter → α) : Rates α :=
  ⟨f .allocObjects, f .allocBytes, f .freeObjects, f .freeBytes, f .inUseObjects, f .inUseBytes⟩

def map (f : α → β) (r : Rates α) : Rates β :=
  ⟨f r.allocObjects, f r.allocBytes, f r.freeObjects, f r.freeBytes, f r.inUseObjects, f r.inUseBytes⟩

def get (r : Rates α) : Counter → α
  | .allocObjects => r.allocObjects
  | .allocBytes => r.allocBytes
  | .freeObjects => r.freeObjects
  | .freeBytes => r.freeBytes
  | .inUseObjects => r.inUseObjects
  | .inUseBytes => r.inUseBytes

variable [Arithmetic α]
open Arithmetic

/-- Seconds between two instants. A distance beyond 64-bit nanoseconds is taken
in whole milliseconds. -/
def seconds (first t : Timestamp) : α :=
  let nanos := t.since first
  if Timestamp.fitsInt64 nanos then ofInt nanos / ofInt 1000000000
  else ofInt (nanos.tdiv 1000000) / ofInt 1000

/-- The slope of each counter over the seconds since the first point. -/
def ofPoints (points : List Point) : Rates α :=
  match points with
  | [] => ofCounters fun _ => ofInt 0
  | first :: _ =>
    let xs := points.map fun p => seconds first.time p.time
    ofCounters fun c => slope xs (points.map fun p => ofInt (c.value p.usage).toInt)

end Rates
end HeapTelemetry
