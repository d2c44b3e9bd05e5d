import HeapTelemetry.Rates.Series
import HeapTelemetry.Record

/-! The report on a session: the rates of its call-sites, fastest growing
first. -/

namespace HeapTelemetry

structure SiteRates where
  stack : CallStack
  rates : Rates Binary64
  deriving DecidableEq, Repr

abbrev Report := List SiteRates

/-- The rates of one window in double precision. -/
def Window.rates (w : Window) : SiteRates :=
  ⟨w.stack, (Rates.ofPoints w.points : Rates Float).map Binary64.ofFloat⟩

namespace Report

/-- Descending by the growth of in-use bytes; sites of equal growth keep their
order. -/
def ranked (r : Report) : Report :=
  r.mergeSort fun a b => b.rates.inUseBytes.rank ≤ a.rates.inUseBytes.rank

/-- Every rate that is not finite becomes zero. -/
def sanitized (r : Report) : Report :=
  r.map fun s => { s with rates := s.rates.map Binary64.sanitized }

/-- Approximate heap bytes: the list, a record per site, and the frames. -/
def approxSize (r : Report) : Nat :=
  24 + 72 * r.length + r.foldr (fun s n => s.stack.approxSize + n) 0

/-- The report as an array; how a rate is written is left to the caller. -/
def toJson (rate : Binary64 → Json) (r : Report) : Json :=
  .array (r.map fun s => Json.record
    [("call_stack", Record.ofCallStack s.stack),
      ("rates", Json.record (Counter.all.map fun c => (c.name ++ "_rate", rate (s.rates.get c))))])

end Report
end HeapTelemetry
