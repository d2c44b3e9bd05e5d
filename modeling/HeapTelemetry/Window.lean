import HeapTelemetry.Measurement

/-! The rolling window of one call-site: its latest points, oldest first. -/

namespace HeapTelemetry

structure Point where
  time : Timestamp
  usage : Usage
  deriving DecidableEq, Repr

structure Window where
  stack : CallStack
  capacity : Nat
  points : List Point
  deriving Repr

namespace Window

/-- An empty window for at least one point. -/
def empty (stack : CallStack) (capacity : Nat) : Window := ⟨stack, max capacity 1, []⟩

/-- Appends a point; a full window loses its oldest one. -/
def push (w : Window) (p : Point) : Window :=
  { w with points := (if w.points.length = w.capacity then w.points.drop 1 else w.points) ++ [p] }

end Window
end HeapTelemetry
