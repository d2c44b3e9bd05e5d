import HeapTelemetry.Binary64
import HeapTelemetry.Series.Labels

/-! Series of timed samples, and batches of them as they are committed. -/

namespace HeapTelemetry

/-- A value at a time in nanoseconds since 1970. -/
structure Sample where
  time : Int64
  value : Binary64
  deriving DecidableEq, Repr

structure Series where
  labels : Labels
  samples : List Sample
  deriving DecidableEq

/-- The samples that one commit adds to each of some series. -/
abbrev Batch := List Series

namespace Batch

/-- Adds a sample to its series, series in label order. -/
def add (labels : Labels) (s : Sample) : Batch → Batch
  | [] => [⟨labels, [s]⟩]
  | x :: rest =>
    match labels.compare x.labels with
    | .lt => ⟨labels, [s]⟩ :: x :: rest
    | .eq => ⟨x.labels, x.samples ++ [s]⟩ :: rest
    | .gt => x :: add labels s rest

def size (b : Batch) : Nat := b.foldr (fun s n => s.samples.length + n) 0

end Batch
end HeapTelemetry
