import HeapTelemetry.Report
import HeapTelemetry.Table
import HeapTelemetry.Timestamp.Text

/-! The windows of every call-site of a session. All windows advance together:
a site that a measurement leaves out gets a point without usage. -/

namespace HeapTelemetry

/-- `report` is kept from its computation until the next measurement. -/
structure SessionWindows where
  capacity : Nat
  sites : Table String Window
  measurements : Nat
  lastObservedAt : Option Timestamp
  report : Option Report

namespace SessionWindows

def empty (capacity : Nat) : SessionWindows := ⟨capacity, [], 0, none, none⟩

/-- The first id that stands twice in a list. -/
def repeated? : List String → Option String
  | ids => go [] ids
where
  go (seen : List String) : List String → Option String
    | [] => none
    | id :: rest => if id ∈ seen then some id else go (id :: seen) rest

def addPoint (w : SessionWindows) (time : Timestamp) (l : Location) (id : String) :
    Table String Window :=
  let window := (w.sites.get? id).getD (Window.empty l.stack w.capacity)
  w.sites.set id (window.push ⟨time, l.usage⟩)

/-- Folds a measurement into the windows, or refuses one that names a call
stack twice. -/
def register (w : SessionWindows) (m : Measurement) : Except Error SessionWindows :=
  let ids := m.locations.map fun l => l.stack.id
  match repeated? ids with
  | some id => .error (.repeatedCallStack m.observedAt.display id)
  | none =>
    let reported := (ids.zip m.locations).foldl
      (fun sites (id, l) => addPoint { w with sites } m.observedAt l id) w.sites
    let sites := reported.map fun (id, window) =>
      if id ∈ ids then (id, window) else (id, window.push ⟨m.observedAt, Usage.zero⟩)
    .ok { w with
      sites, measurements := w.measurements + 1, lastObservedAt := some m.observedAt, report := none }

/-- The report on the windows as they are. Nothing fixes the order of sites of
equal growth: it depends on the order in which the pool takes and finishes the
windows. Here they stand in the order of their digests, and for every other
order `Pool.ranked_computed` says what stays the same. -/
def compute (w : SessionWindows) : Report :=
  Report.ranked ((w.sites.mergeSort fun a b => a.1 ≤ b.1).map fun (_, window) => window.rates)

/-- The report, computed at most once between two measurements. -/
def metrics (w : SessionWindows) : Report × SessionWindows :=
  match w.report with
  | some r => (r, w)
  | none => let r := w.compute; (r, { w with report := some r })

def points? (w : SessionWindows) (stack : CallStack) : Option (List Point) :=
  (w.sites.get? stack.id).map Window.points

end SessionWindows
end HeapTelemetry
