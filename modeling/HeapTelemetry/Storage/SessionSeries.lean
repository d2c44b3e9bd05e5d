import HeapTelemetry.Series.Database
import HeapTelemetry.Storage.Backend
import HeapTelemetry.Storage.SiteHistory

/-! The series backend: every location is stored as four samples in the series
database. Closing a session seals its series. -/

namespace HeapTelemetry.SessionSeries

/-- The samples of a measurement, or the first counter that cannot be stored. -/
def batch (s : Session) (m : Measurement) : Except Error Batch := do
  let time ← m.observedAt.unixNanos
  let rows ← m.locations.mapM (SiteSeries.encode s)
  return rows.flatten.foldl (fun b (labels, value) => b.add labels ⟨time, value⟩) []

def save [Compressor] (s : Session) (_ : Unit) (m : Measurement) :
    Step (Database × Disk) Unit := do
  discard (Database.commit (← Step.ofExcept (batch s m)))

/-- Series that cannot be sealed stay in memory and in the log. -/
def finish [Compressor] (s : Session) (_ : Unit) : Step (Database × Disk) Unit :=
  discard (Step.attempt (Database.sealMatching [SiteSeries.sessionMatcher s]))

def read (s : Session) (db : Database × Disk) : Reading :=
  match (Step.run (Database.select [SiteSeries.sessionMatcher s]) db).1 with
  | .ok series => SiteHistory.reading series
  | .error e => .failed e

instance [Compressor] : Backend Database Unit where
  openAt dataDir syncWrite := Database.openAt (dataDir ++ ["tsdb"]) syncWrite
  create _ := pure ()
  save := save
  finish := finish
  locate _ := pure ()
  read := read
  close := discard (Step.attempt Database.close)

end HeapTelemetry.SessionSeries
