import HeapTelemetry.Series.Block
import HeapTelemetry.Series.Head
import HeapTelemetry.Series.Log

/-! The series database: new samples are held in memory and in the log; sealing
moves series into blocks, after which they take no more samples. A query sees
both. -/

namespace HeapTelemetry

/-- `sealedIn` gives the block of every sealed series; a closed database has no
log. -/
structure Database where
  dir : Path
  head : Head
  sealedIn : Table Labels Nat
  nextBlock : Nat
  log : Option Log

namespace Database

def logPath (dir : Path) : Path := dir ++ ["wal.log"]
def blocksDir (dir : Path) : Path := dir ++ ["blocks"]

/-- Reads which series the blocks hold; of two blocks the later one counts. -/
def index (dir : Path) (ids : List Nat) : Step Disk (Table Labels Nat) :=
  ids.foldlM (fun table id => do
    let labels ← Step.ofExcept (Block.labels (← Disk.read (Block.path dir id)))
    return labels.foldl (fun t l => t.set l id) table) []

/-- Replays the log's batches, less the series that are sealed already. -/
def replay (sealedIn : Table Labels Nat) (batches : List Batch) : Head :=
  batches.foldl (fun h b => h.apply (b.filter fun s => !sealedIn.contains s.labels)) Head.empty

def openAt (dir : Path) (syncWrite : Bool) : Step Disk Database := do
  Disk.makeDirs dir
  Disk.makeDirs (blocksDir dir)
  let ids ← Block.scan (blocksDir dir)
  let sealedIn ← index (blocksDir dir) ids
  let (log, batches) ← Log.openAt (logPath dir) syncWrite
  let nextBlock := match ids.getLast? with
    | some id => id + 1
    | none => 0
  return ⟨dir, replay sealedIn batches, sealedIn, nextBlock, some log⟩

/-- Samples must come after the last one of their series, and each after the
one before it. -/
def checkTimes (labels : Labels) : Option Int64 → List Sample → Except Error Unit
  | _, [] => .ok ()
  | none, s :: rest => checkTimes labels (some s.time) rest
  | some last, s :: rest =>
    if s.time ≤ last then .error (.outOfOrder s.time.toInt last.toInt labels.display)
    else checkTimes labels (some s.time) rest

def checkSeries (db : Database) (s : Series) : Except Error Unit :=
  if db.sealedIn.contains s.labels then .error (.sealedSeries s.labels.display)
  else checkTimes s.labels (db.head.lastTime s.labels) s.samples

def check (db : Database) (b : Batch) : Except Error Unit := b.forM db.checkSeries

def onDisk (x : Step Disk α) : Step (Database × Disk) α :=
  Step.on Prod.snd (fun d s => (s.1, d)) x

/-- Runs a step on the log of an open database. -/
def onLog (x : Step (Log × Disk) α) : Step (Database × Disk) α := do
  match (← get).1.log with
  | none => throw .databaseClosed
  | some log =>
    Step.on (fun s => (log, s.2)) (fun s t => ({ t.1 with log := some s.1 }, s.2)) x

def requireOpen : Step (Database × Disk) Unit := onLog (pure ())

/-- Makes a batch durable and visible, all of it or nothing. A batch without
samples changes nothing and needs no open database. -/
def commit [Compressor] (b : Batch) : Step (Database × Disk) Nat := do
  if b.size = 0 then return 0
  requireOpen
  Step.ofExcept ((← get).1.check b)
  onLog (Log.append b)
  modify fun (db, d) => ({ db with head := db.head.apply b }, d)
  return b.size

/-- Moves the series that all matchers accept into a new block, then cuts the
log down to what is left in memory. A log that cannot be cut down keeps sealed
samples, which replay leaves out. -/
def sealMatching [Compressor] (ms : List Matcher) : Step (Database × Disk) Nat := do
  requireOpen
  let (db, _) ← get
  let (taken, kept) := db.head.take ms
  if taken.isEmpty then return 0
  let id := db.nextBlock
  match ← Step.attempt (onDisk (Block.write (blocksDir db.dir) id taken)) with
  | .error e =>
    modify fun (db, d) => ({ db with head := kept.apply taken }, d)
    throw e
  | .ok () =>
    modify fun (db, d) =>
      ({ db with
          head := kept, nextBlock := id + 1
          sealedIn := taken.foldl (fun t s => t.set s.labels id) db.sealedIn }, d)
    discard (Step.attempt (onLog (Log.replace kept.series)))
    return taken.length

/-- The sealed series that all matchers accept, block by block. -/
def selectSealed (ms : List Matcher) : Step (Database × Disk) (List Series) := do
  let (db, _) ← get
  let ids := (db.sealedIn.filter fun e => Matcher.allAccept ms e.1).map Prod.snd
  let found ← ids.mergeSort.eraseDups.mapM fun id => do
    let bytes ← onDisk (Disk.read (Block.path (blocksDir db.dir) id))
    let series ← Step.ofExcept (Block.series bytes)
    return series.filter fun s => Matcher.allAccept ms s.labels
  return found.flatten

/-- Every series that all matchers accept, in label order. -/
def select (ms : List Matcher) : Step (Database × Disk) (List Series) := do
  let inMemory := (← get).1.head.select ms
  let inBlocks ← selectSealed ms
  return (inMemory ++ inBlocks).mergeSort fun a b => a.labels.le b.labels

/-- Closes the log; later commits fail. -/
def close : Step (Database × Disk) Unit := do
  let (db, _) ← get
  if db.log.isSome then
    modify fun (db, d) => ({ db with log := none }, d)
    onDisk Disk.sync

def headCount (db : Database) : Nat := db.head.series.length

def totalCount (db : Database) : Nat := db.head.series.length + db.sealedIn.length

end Database
end HeapTelemetry
