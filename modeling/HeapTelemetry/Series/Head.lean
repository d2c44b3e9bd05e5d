import HeapTelemetry.Series.Sample
import HeapTelemetry.Table

/-! The series held in memory, with an index by label set and posting lists by
single label. Both index by position in the list of series. -/

namespace HeapTelemetry

structure Head where
  series : List Series
  byLabels : Table Labels Nat
  postings : Table Label (List Nat)

namespace Head

def empty : Head := ⟨[], [], []⟩

/-- Adds a position to the posting list of a label. -/
def post (position : Nat) (postings : Table Label (List Nat)) (label : Label) :
    Table Label (List Nat) :=
  postings.set label ((postings.get? label).getD [] ++ [position])

/-- Adds a series whose label set is new. -/
def insertSeries (h : Head) (s : Series) : Head where
  series := h.series ++ [s]
  byLabels := h.byLabels.set s.labels h.series.length
  postings := s.labels.entries.foldl (post h.series.length) h.postings

/-- Appends samples to the series of their label set. -/
def append (h : Head) (s : Series) : Head :=
  match h.byLabels.get? s.labels with
  | none => h.insertSeries s
  | some i =>
    { h with series := h.series.modify i fun x => { x with samples := x.samples ++ s.samples } }

def apply (h : Head) (b : Batch) : Head := b.foldl append h

def lastTime (h : Head) (labels : Labels) : Option Int64 := do
  let s ← h.series[← h.byLabels.get? labels]?
  return (← s.samples.getLast?).time

/-- The series that all matchers accept, found by the posting list of the first
matcher. -/
def select (h : Head) (ms : List Matcher) : List Series :=
  let candidates := match ms with
    | [] => List.range h.series.length
    | m :: _ => (h.postings.get? (m.name, m.value)).getD []
  (candidates.filterMap fun i => h.series[i]?).filter fun s => Matcher.allAccept ms s.labels

/-- Splits off the series that all matchers accept; the others are indexed anew
at their new positions. -/
def take (h : Head) (ms : List Matcher) : List Series × Head :=
  let (taken, kept) := h.series.partition fun s => Matcher.allAccept ms s.labels
  (taken, kept.foldl insertSeries empty)

end Head
end HeapTelemetry
