import HeapTelemetry.Bytes
import HeapTelemetry.Error

/-! A tree of directories and files that may fail. What the device does with
each of the coming steps is part of the disk, so every pattern of failures is a
value. A process that stops between two steps is a disk that refuses the rest. -/

namespace HeapTelemetry

/-- The names from the root down. -/
abbrev Path := List String

/-- A file keeps its number under any name, and for as long as it is open. -/
inductive Node
  | directory
  | file (number : Nat) (content : Bytes)
  deriving DecidableEq, Repr

/-- What the device does with a step: all of it, a write up to some bytes, or
nothing. -/
inductive Verdict
  | grant
  | room (bytes : Nat)
  | refuse
  deriving DecidableEq, Repr

structure Disk where
  nodes : List (Path × Node)
  nextNumber : Nat
  verdicts : List Verdict
  deriving Repr

/-- A file opened for appending. -/
structure Handle where
  path : Path
  number : Nat
  deriving DecidableEq, Repr

namespace Disk

def empty : Disk := ⟨[], 0, []⟩

def find? (d : Disk) (p : Path) : Option Node :=
  if p = [] then some .directory
  else (d.nodes.find? (·.1 = p)).map Prod.snd

def isDirectory (d : Disk) (p : Path) : Bool := d.find? p = some .directory

def content? (d : Disk) (p : Path) : Option Bytes :=
  match d.find? p with
  | some (.file _ content) => some content
  | _ => none

def put (d : Disk) (p : Path) (n : Node) : Disk :=
  { d with nodes :=
      if (d.nodes.any (·.1 = p)) then d.nodes.map fun e => if e.1 = p then (p, n) else e
      else d.nodes ++ [(p, n)] }

def drop (d : Disk) (p : Path) : Disk := { d with nodes := d.nodes.filter (·.1 ≠ p) }

/-- The path is inside the directory, at any depth. -/
def isUnder (dir p : Path) : Bool := dir.isPrefixOf p && dir.length < p.length

/-- Names in a directory. -/
def list (d : Disk) (dir : Path) : List String :=
  d.nodes.filterMap fun e => if e.1.dropLast = dir then e.1.getLast? else none

/-- A file stands at the path or above it. -/
def blocked (d : Disk) (p : Path) : Bool :=
  (List.range (p.length + 1)).any fun k =>
    match d.find? (p.take k) with
    | some (.file ..) => true
    | _ => false

/-- The answer to the next step; a device without further notice grants it. -/
def verdict : Step Disk Verdict := fun d =>
  match d.verdicts with
  | [] => (.ok .grant, d)
  | v :: rest => (.ok v, { d with verdicts := rest })

/-- Fails unless the next step is granted. -/
def granted : Step Disk Unit := do
  if (← verdict) = .refuse then throw .io

/-- Makes a directory and those above it. -/
def makeDirs (p : Path) : Step Disk Unit := do
  granted
  let d ← get
  if d.blocked p then throw .io
  set ((List.range (p.length + 1)).foldl
    (fun d k => if d.isDirectory (p.take k) then d else d.put (p.take k) .directory) d)

/-- Opens a file for appending, making it if it is missing. -/
def openFile (p : Path) : Step Disk Handle := do
  granted
  let d ← get
  match d.find? p with
  | some .directory => throw .io
  | some (.file number _) => return ⟨p, number⟩
  | none =>
    if d.isDirectory p.dropLast then
      set { d.put p (.file d.nextNumber []) with nextNumber := d.nextNumber + 1 }
      return ⟨p, d.nextNumber⟩
    else throw .io

/-- Changes the content of an open file; one that was removed meanwhile takes
the change with it. -/
def change (h : Handle) (f : Bytes → Bytes) (d : Disk) : Disk :=
  match d.find? h.path with
  | some (.file number content) =>
    if number = h.number then d.put h.path (.file number (f content)) else d
  | _ => d

/-- Writes at the end of a file. -/
def append (h : Handle) (bytes : Bytes) : Step Disk Unit := do
  match ← verdict with
  | .grant => modify (change h (· ++ bytes))
  | .refuse => throw .io
  | .room n =>
    modify (change h (· ++ bytes.take n))
    if n < bytes.length then throw .io

/-- Cuts a file to a length. -/
def truncate (h : Handle) (length : Nat) : Step Disk Unit := do
  granted
  modify (change h (·.take length))

/-- Waits until everything written is on the device. -/
def sync : Step Disk Unit := granted

/-- Writes a whole file, replacing what it held. -/
def writeFile (p : Path) (bytes : Bytes) : Step Disk Unit := do
  let v ← verdict
  let d ← get
  if v = .refuse ∨ d.isDirectory p ∨ !d.isDirectory p.dropLast then throw .io
  let number := match d.find? p with
    | some (.file number _) => number
    | _ => d.nextNumber
  let d := { d with nextNumber := max d.nextNumber (number + 1) }
  match v with
  | .room n =>
    set (d.put p (.file number (bytes.take n)))
    if n < bytes.length then throw .io
  | _ => set (d.put p (.file number bytes))

/-- Gives a file another name, replacing a file that had it. -/
def rename (old new : Path) : Step Disk Unit := do
  granted
  let d ← get
  match d.find? old with
  | some (.file number content) =>
    if d.isDirectory new ∨ !d.isDirectory new.dropLast then throw .io
    set ((d.drop old).put new (.file number content))
  | _ => throw .io

def remove (p : Path) : Step Disk Unit := do
  granted
  let d ← get
  match d.find? p with
  | some (.file ..) => set (d.drop p)
  | _ => throw .io

/-- Removes a directory with everything in it. -/
def removeDir (p : Path) : Step Disk Unit := do
  granted
  let d ← get
  if d.isDirectory p then
    set { d with nodes := d.nodes.filter fun e => e.1 ≠ p && !isUnder p e.1 }
  else throw .io

def read (p : Path) : Step Disk Bytes := do
  match (← get).content? p with
  | some content => return content
  | none => throw .io

end Disk
end HeapTelemetry
