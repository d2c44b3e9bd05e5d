import HeapTelemetry.SiteSeries
import HeapTelemetry.Storage.Reading
import HeapTelemetry.Table

/-! From series back to measurements. The four counter series of a call-site are
read side by side, and the call-sites are merged by ascending time. -/

namespace HeapTelemetry

/-- The series found so far with one call stack id. -/
structure SiteGroup where
  id : String
  stack : CallStack
  found : Table Metric (List Sample)

namespace SiteGroup

/-- Adds a series to the group of its call stack id. Groups stand in the order
of their ids; the first series of a group gives its call stack. -/
def place (id : String) (m : Metric) (s : Series) : List SiteGroup → Except Error (List SiteGroup)
  | [] => do return [⟨id, ← SiteSeries.callStack s.labels, [(m, s.samples)]⟩]
  | g :: rest =>
    if id < g.id then do return ⟨id, ← SiteSeries.callStack s.labels, [(m, s.samples)]⟩ :: g :: rest
    else if id = g.id then
      if g.found.contains m then .error (.duplicateSeries m.name)
      else .ok ({ g with found := g.found.set m s.samples } :: rest)
    else do return g :: (← place id m s rest)

def insert (groups : List SiteGroup) (s : Series) : Except Error (List SiteGroup) :=
  match s.labels.get? SiteSeries.stackIdLabel with
  | none => .error .missingCallStackId
  | some id => do place id (← SiteSeries.metric s.labels) s groups

end SiteGroup

/-- The samples of a call-site that are still to be read, a column for each
metric. -/
structure SiteHistory where
  id : String
  stack : CallStack
  columns : List (List Sample)

namespace SiteHistory

def ofGroup (g : SiteGroup) : Except Error SiteHistory :=
  match Metric.all.mapM g.found.get? with
  | some columns => .ok ⟨g.id, g.stack, columns⟩
  | none => .error (.missingSeries g.id)

/-- The call-sites of a session from all its series. -/
def ofSeries (series : List Series) : Except Error (List SiteHistory) := do
  (← series.foldlM SiteGroup.insert []).mapM ofGroup

def usage (heads : List Sample) : Usage :=
  (Metric.all.zip heads).foldl (fun u (m, s) => m.write u (SiteSeries.counter s.value)) Usage.zero

/-- The time and counters at the place of reading, if anything is left. The
columns must go on together and agree on the time. -/
def current (h : SiteHistory) : Except Error (Option (Int64 × Usage)) :=
  match h.columns.filterMap List.head? with
  | [] => .ok none
  | first :: more =>
    if more.length + 1 ≠ h.columns.length then .error (.unevenSeries h.id)
    else match more.find? (·.time ≠ first.time) with
      | some s => .error (.mismatchedTimes h.id s.time.toInt first.time.toInt)
      | none => .ok (some (first.time, usage (first :: more)))

def advance (h : SiteHistory) : SiteHistory := { h with columns := h.columns.map List.tail }

/-- There is something left, if only a failure. -/
def isLive (h : SiteHistory) : Bool :=
  match h.current with
  | .ok none => false
  | _ => true

/-- The next item: the earliest measurement, or what is wrong with a history. After it come
the histories that have more, and after a failure none. -/
def next (sites : List SiteHistory) : Option (Except Error Measurement × List SiteHistory) :=
  match sites.mapM fun s => do return (s, ← s.current) with
  | .error e => some (.error e, [])
  | .ok heads => do
    let time ← (heads.filterMap fun (_, head) => head.map Prod.fst).min?
    let locations := heads.filterMap fun (s, head) => do
      let (t, u) ← head
      if t = time then some (⟨s.stack, u⟩ : Location) else none
    let rest := heads.map fun (s, head) => if head.map Prod.fst = some time then s.advance else s
    return (.ok ⟨Timestamp.ofNanos time, locations⟩, rest.filter isLive)

/-- Reads up to a number of measurements, and the failure that ended it. -/
def measurements : Nat → List SiteHistory → List Measurement × Option Error
  | 0, _ => ([], none)
  | fuel + 1, sites =>
    match next sites with
    | none => ([], none)
    | some (.error e, _) => ([], some e)
    | some (.ok m, rest) =>
      let (ms, failure) := measurements fuel rest
      (m :: ms, failure)

/-- Samples that are left; every measurement takes one or more. -/
def size (sites : List SiteHistory) : Nat :=
  sites.foldr (fun s n => s.columns.flatten.length + n) 0

/-- Reads a session from all its series. -/
def reading (series : List Series) : Reading :=
  match ofSeries series with
  | .error e => .failed e
  | .ok sites =>
    let (ms, failure) := measurements (size sites + 1) sites
    .items (ms.map .ok) failure

end SiteHistory
end HeapTelemetry
