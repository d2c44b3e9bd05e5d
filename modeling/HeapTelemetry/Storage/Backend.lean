import HeapTelemetry.Disk
import HeapTelemetry.Storage.Reading

/-! What a storage backend provides. A backend keeps the measurements of
sessions on a disk; which sessions there are is the business of the registry. -/

namespace HeapTelemetry

/-- `B` is the state of an open backend, `Writer` what it holds for a session
that is being saved. -/
class Backend (B : Type) (Writer : outParam Type) where
  /-- Opens the backend in the data directory. -/
  openAt : (dataDir : Path) → (syncWrite : Bool) → Step Disk B
  /-- Prepares a new session for saving. -/
  create : Session → Step (B × Disk) Writer
  save : Session → Writer → Measurement → Step (B × Disk) Unit
  /-- Ends the saving of a session. -/
  finish : Session → Writer → Step (B × Disk) Unit
  /-- Checks that a known session can be read. -/
  locate : Session → Step (B × Disk) Unit
  read : Session → B × Disk → Reading
  close : Step (B × Disk) Unit

end HeapTelemetry
