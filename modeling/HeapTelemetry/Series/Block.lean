import HeapTelemetry.Disk
import HeapTelemetry.Series.FileFrame
import HeapTelemetry.Series.Packed
import HeapTelemetry.Text.Numeral

/-! Blocks of sealed series. A block file has a frame with the label sets and a
frame with the samples, in the same order, so that the labels can be read
alone. -/

namespace HeapTelemetry.Block

def encode [Compressor] (series : List Series) : Except Error Bytes := do
  let labels ← FileFrame.encode "block frame" (Packed.ofList Packed.ofLabels (series.map Series.labels))
  let samples ← FileFrame.encode "block frame" (Packed.ofList Packed.ofSamples (series.map Series.samples))
  return labels ++ samples

/-- Reads the next frame of a block and the value in it. -/
def frame (reader : Packed.Reader α) (b : Bytes) : Except Error (α × Bytes) :=
  match FileFrame.next b with
  | .noHeader => .error .blockWithoutHeader
  | .short => .error .shortBlock
  | .frame payload rest =>
    match (Compressed.decompress? payload).bind (Packed.read? reader) with
    | some x => .ok (x, rest)
    | none => .error .corruptBlock

def labels (b : Bytes) : Except Error (List Labels) := do
  return (← frame (Packed.list? Packed.labels?) b).1

def series (b : Bytes) : Except Error (List Series) := do
  let (ls, b) ← frame (Packed.list? Packed.labels?) b
  let (ss, _) ← frame (Packed.list? Packed.samples?) b
  if ls.length = ss.length then return ls.zipWith Series.mk ss
  else throw (.unpairedBlock ls.length ss.length)

/-- Eight digits or more, by number. -/
def fileName (id : Nat) (extension : String) : String :=
  let digits := toString id
  "".pushn '0' (8 - digits.length) ++ digits ++ "." ++ extension

def path (dir : Path) (id : Nat) : Path := dir ++ [fileName id "blk"]

/-- The part of a name before its last point and the part after it. A name
without a point, or with its only one in front, has no extension. -/
def splitName (name : String) : String × Option String :=
  let cs := name.toList
  match cs.reverse.span (· ≠ '.') with
  | (_, []) => (name, none)
  | (extension, _ :: stem) =>
    if stem.isEmpty then (name, none)
    else (String.ofList stem.reverse, some (String.ofList extension.reverse))

/-- The number of the block that a file name stands for. -/
def id? (name : String) : Option Nat :=
  match splitName name with
  | (stem, some "blk") => Text.unsigned64? stem
  | _ => none

def isTemporary (name : String) : Bool := (splitName name).2 == some "tmp"

/-- Writes a block. It has its name only once it is complete. -/
def write [Compressor] (dir : Path) (id : Nat) (series : List Series) : Step Disk Unit := do
  let bytes ← Step.ofExcept (encode series)
  let temporary := dir ++ [fileName id "tmp"]
  Disk.writeFile temporary bytes
  Disk.sync
  Disk.rename temporary (path dir id)

/-- The numbers of the blocks in a directory, ascending. Leftovers of writes
that did not finish are removed. -/
def scan (dir : Path) : Step Disk (List Nat) := do
  let names := (← get).list dir
  (names.filter isTemporary).forM fun name => Disk.remove (dir ++ [name])
  return (names.filterMap id?).mergeSort

end HeapTelemetry.Block
