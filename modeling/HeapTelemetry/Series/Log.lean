import HeapTelemetry.Disk
import HeapTelemetry.Series.FileFrame
import HeapTelemetry.Series.Packed

/-! The write-ahead log: one frame for every committed batch, replayed front to
back when it is opened. The first frame that is cut short or does not decode
ends the log, and everything from there on is cut away. -/

namespace HeapTelemetry

/-- `length` counts the bytes of the intact frames; a torn log may hold a part
of a frame behind them. -/
structure Log where
  path : Path
  handle : Handle
  syncWrite : Bool
  length : Nat
  torn : Bool
  deriving Repr

namespace Log

def frame [Compressor] (b : Batch) : Except Error Bytes :=
  FileFrame.encode "WAL batch" (Packed.ofList Packed.ofSeries b)

def batch? (payload : Bytes) : Option Batch := do
  Packed.read? (Packed.list? Packed.series?) (← Compressed.decompress? payload)

/-- The batches of the intact frames and the bytes these take, with a bound on
the number of frames. -/
def scan : Nat → Bytes → List Batch × Nat
  | 0, _ => ([], 0)
  | fuel + 1, b =>
    match FileFrame.next b with
    | .frame payload rest =>
      match batch? payload with
      | some x => let (xs, n) := scan fuel rest; (x :: xs, b.length - rest.length + n)
      | none => ([], 0)
    | _ => ([], 0)

/-- Every frame takes a byte, so the length bounds their number. -/
def replay (b : Bytes) : List Batch × Nat := scan b.length b

/-- Opens or makes the log; gives its batches in commit order. -/
def openAt (path : Path) (syncWrite : Bool) : Step Disk (Log × List Batch) := do
  let d ← get
  if d.isDirectory path then throw .io
  let content := (d.content? path).getD []
  let (batches, length) := replay content
  let handle ← Disk.openFile path
  if length < content.length then
    Disk.truncate handle length
    Disk.sync
  return (⟨path, handle, syncWrite, length, false⟩, batches)

def onDisk (x : Step Disk α) : Step (Log × Disk) α :=
  Step.on Prod.snd (fun d s => (s.1, d)) x

/-- Drops what a failed append left behind the intact frames. -/
def repair : Step (Log × Disk) Unit := do
  let (log, _) ← get
  if log.torn then
    onDisk (Disk.truncate log.handle log.length)
    modify fun (log, d) => ({ log with torn := false }, d)

def write (frame : Bytes) : Step (Log × Disk) Unit := do
  let (log, _) ← get
  onDisk do
    Disk.append log.handle frame
    if log.syncWrite then Disk.sync

/-- Appends a batch as one frame. After a failure the frame is no part of the
log, though pieces of it may stay until the next repair. -/
def append [Compressor] (b : Batch) : Step (Log × Disk) Unit := do
  let bytes ← Step.ofExcept (frame b)
  repair
  match ← Step.attempt (write bytes) with
  | .ok () => modify fun (log, d) => ({ log with length := log.length + bytes.length }, d)
  | .error e =>
    modify fun (log, d) => ({ log with torn := true }, d)
    discard (Step.attempt repair)
    throw e

def temporary (path : Path) : Path := path.dropLast ++ [(path.getLast?.getD "") ++ ".tmp"]

/-- Writes a file anew. It is complete before it takes the old one's name. -/
def renew (path : Path) (bytes : Bytes) : Step Disk Handle := do
  Disk.writeFile (temporary path) bytes
  let opened ← Disk.openFile (temporary path)
  Disk.sync
  Disk.rename (temporary path) path
  return { opened with path }

/-- Replaces the log by one frame, or by nothing for an empty batch. -/
def replace [Compressor] (b : Batch) : Step (Log × Disk) Unit := do
  let bytes ← if b.isEmpty then pure [] else Step.ofExcept (frame b)
  let (log, _) ← get
  let handle ← onDisk (renew log.path bytes)
  modify fun (log, d) => ({ log with handle, length := bytes.length, torn := false }, d)

end Log
end HeapTelemetry
