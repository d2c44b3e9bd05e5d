import HeapTelemetry.Series.Sample
import HeapTelemetry.Bytes

/-! The packed form of label sets and samples: counts and numbers in eight
bytes, texts behind their length. -/

namespace HeapTelemetry.Packed

/-- Reads a value and gives the bytes after it. -/
abbrev Reader (α : Type) := Bytes → Option (α × Bytes)

def ofNat (n : Nat) : Bytes := Bytes.word 8 n

def nat? : Reader Nat := Bytes.readWord 8

def ofText (s : String) : Bytes := ofNat (Bytes.ofText s).length ++ Bytes.ofText s

def text? : Reader String := fun b => do
  let (n, b) ← nat? b
  let (raw, b) ← Bytes.take? n b
  return (← Bytes.text? raw, b)

def ofList (item : α → Bytes) (xs : List α) : Bytes := ofNat xs.length ++ xs.flatMap item

def items? (item : Reader α) : Nat → Reader (List α)
  | 0, b => some ([], b)
  | n + 1, b => do
    let (x, b) ← item b
    let (xs, b) ← items? item n b
    return (x :: xs, b)

def list? (item : Reader α) : Reader (List α) := fun b => do
  let (n, b) ← nat? b
  items? item n b

def ofLabel (l : Label) : Bytes := ofText l.1 ++ ofText l.2

def label? : Reader Label := fun b => do
  let (name, b) ← text? b
  let (value, b) ← text? b
  return ((name, value), b)

def ofLabels (l : Labels) : Bytes := ofList ofLabel l.entries

/-- The pairs may come in any order; of two with one name the later counts. -/
def labels? : Reader Labels := fun b => (list? label? b).map fun (pairs, r) => (Labels.ofList pairs, r)

def ofSample (s : Sample) : Bytes := ofNat s.time.toUInt64.toNat ++ ofNat s.value.bits.toNat

def sample? : Reader Sample := fun b => do
  let (time, b) ← nat? b
  let (bits, b) ← nat? b
  return (⟨(UInt64.ofNat time).toInt64, ⟨UInt64.ofNat bits⟩⟩, b)

def ofSamples (ss : List Sample) : Bytes := ofList ofSample ss

def samples? : Reader (List Sample) := list? sample?

def ofSeries (s : Series) : Bytes := ofLabels s.labels ++ ofSamples s.samples

def series? : Reader Series := fun b => do
  let (labels, b) ← labels? b
  let (samples, b) ← samples? b
  return (⟨labels, samples⟩, b)

/-- A whole value; bytes after it are passed over. -/
def read? (r : Reader α) (b : Bytes) : Option α := (r b).map Prod.fst

end HeapTelemetry.Packed
