import HeapTelemetry.Record
import HeapTelemetry.Storage.Backend

/-! The file backend: every session has a file of its own, a measurement to a
line. Lines that do not decode are reported one by one and skipped. -/

namespace HeapTelemetry

structure SessionFiles where
  root : Path
  syncWrite : Bool
  deriving Repr

namespace SessionFiles

/-- A name as one level of directories. Different names may give the same
component; sessions differ by their numbers. -/
def component (name : String) : String :=
  let cleaned := name.map fun c => if c.isAlphanum || c = '-' || c = '_' || c = '.' then c else '_'
  if cleaned = "." || cleaned = ".." then cleaned.map fun _ => '_' else cleaned

def directory (f : SessionFiles) (s : Session) : Path :=
  f.root ++ [component s.owner.service, component s.owner.name]

def path (f : SessionFiles) (s : Session) : Path := f.directory s ++ [toString s.id ++ ".ndjson"]

/-- The items of a file, one for every line that is not blank. -/
def records (content : Bytes) : List (Except Error Measurement) :=
  ((Bytes.lines content).filter (!Bytes.isBlank ·)).map Record.decode

/-- What comes of lines that are read one after the other, on a device with these answers to
each of the reads and to the one that finds the end. A read that is refused ends the items. -/
def readLines : List Bytes → List Verdict → List (Except Error Measurement) × Option Error
  | [], answers => ([], if answers.head? = some .refuse then some .io else none)
  | line :: rest, answers =>
    if answers.head? = some .refuse then ([], some .io)
    else
      let (items, failure) := readLines rest answers.tail
      (if Bytes.isBlank line then items else Record.decode line :: items, failure)

def onDisk (x : Step Disk α) : Step (SessionFiles × Disk) α :=
  Step.on Prod.snd (fun d s => (s.1, d)) x

def create (s : Session) : Step (SessionFiles × Disk) Handle := do
  let (f, _) ← get
  onDisk do
    Disk.makeDirs (f.directory s)
    Disk.openFile (f.path s)

/-- A failed save may leave a part of its line behind. -/
def save (_ : Session) (h : Handle) (m : Measurement) : Step (SessionFiles × Disk) Unit := do
  let (f, _) ← get
  onDisk do
    Disk.append h (Record.encode m)
    if f.syncWrite then Disk.sync

def locate (s : Session) : Step (SessionFiles × Disk) Unit := do
  let (f, d) ← get
  if (d.find? (f.path s)).isNone then
    throw (if d.blocked (f.directory s) then .io else .noData s.key)

/-- The device answers to opening the file and to every read what it would answer next. -/
def read (s : Session) : SessionFiles × Disk → Reading
  | (f, d) =>
    match d.find? (f.path s) with
    | none => .failed .io
    | some node =>
      if d.verdicts.head? = some .refuse then .failed .io
      else match node with
        | .directory => .items [] (some .io)
        | .file _ content =>
          let (items, failure) := readLines (Bytes.lines content) d.verdicts.tail
          .items items failure

instance : Backend SessionFiles Handle where
  openAt dataDir syncWrite := do
    let root := dataDir ++ ["sessions"]
    Disk.makeDirs root
    return ⟨root, syncWrite⟩
  create := create
  save := save
  finish _ _ := pure ()
  locate := locate
  read := read
  close := pure ()

end SessionFiles
end HeapTelemetry
