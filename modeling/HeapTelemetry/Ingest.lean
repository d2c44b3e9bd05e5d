import HeapTelemetry.Record

/-! Ingestion of a request body: its lines are handled one by one as they
become complete, however the body is cut into chunks. -/

namespace HeapTelemetry.Ingest
variable {σ : Type}

/-- A piece of a body, or the place where its transfer broke. -/
inductive Chunk
  | data (bytes : Bytes)
  | broken
  deriving DecidableEq, Repr

/-- Lines are limited in length, newlines not counted. -/
def checkLength (limit length : Nat) : Step σ Unit :=
  if length > limit then throw (.longLine limit) else pure ()

def handleLine (handle : Request → Step σ Unit) (line : Bytes) : Step σ Unit := do
  if !Bytes.isBlank line then handle (← Step.ofExcept (Record.decodeRequest line))

/-- The bytes behind the last newline: a line that may go on with the next chunk. -/
structure Tail where
  bytes : Bytes
  unended : Bytes.newline ∉ bytes

/-- Nothing has come yet, or a line has just ended. -/
def Tail.none : Tail := ⟨[], List.not_mem_nil⟩

/-- There is no newline before this place. -/
abbrev Scanned (buffer : Bytes) (scanned : Nat) : Prop := Bytes.newline ∉ buffer.take scanned

theorem Scanned.tail {buffer : Bytes} {scanned : Nat} (h : Scanned buffer scanned)
    (hrest : (buffer.drop scanned).idxOf? Bytes.newline = none) : Bytes.newline ∉ buffer := by
  rw [← List.take_append_drop scanned buffer, List.mem_append, not_or]
  exact ⟨h, List.idxOf?_eq_none_iff.1 hrest⟩

theorem length_drop_line {buffer : Bytes} {scanned i : Nat}
    (h : (buffer.drop scanned).idxOf? Bytes.newline = some i) :
    (buffer.drop (scanned + i + 1)).length < buffer.length := by
  obtain ⟨hi, _⟩ := List.idxOf?_eq_some_iff.1 h
  rw [List.length_drop] at hi ⊢
  omega

/-- Handles the lines that are complete in the buffer, and gives what is left of it. The
search for the first newline starts behind what was searched before. -/
def drain (limit : Nat) (handle : Request → Step σ Unit) (buffer : Bytes) (scanned : Nat)
    (clear : Scanned buffer scanned) : Step σ Tail :=
  match h : (buffer.drop scanned).idxOf? Bytes.newline with
  | none => pure ⟨buffer, clear.tail h⟩
  | some i => do
    let line := buffer.take (scanned + i + 1)
    checkLength limit (line.length - 1)
    handleLine handle line
    drain limit handle (buffer.drop (scanned + i + 1)) 0 List.not_mem_nil
termination_by buffer.length
decreasing_by exact length_drop_line h

theorem Tail.scanned_append (pending : Tail) (bytes : Bytes) :
    Scanned (pending.bytes ++ bytes) pending.bytes.length := by
  rw [Scanned, List.take_left]
  exact pending.unended

/-- Handles the lines that a chunk completes; gives what is pending after it. -/
def feed (limit : Nat) (handle : Request → Step σ Unit) (pending : Tail) (bytes : Bytes) :
    Step σ Tail := do
  let rest ← drain limit handle (pending.bytes ++ bytes) pending.bytes.length
    (pending.scanned_append bytes)
  checkLength limit rest.bytes.length
  return rest

/-- Takes the chunks of a body in turn. A cancellation after some of them is
noticed before the next one and before the end. -/
def feedAll (limit : Nat) (handle : Request → Step σ Unit) :
    (cancelAfter : Option Nat) → List Chunk → Tail → Step σ Tail
  | some 0, _, _ => throw .cancelled
  | _, [], pending => pure pending
  | _, .broken :: _, _ => throw .io
  | cancelAfter, .data bytes :: rest, pending => do
    feedAll limit handle (cancelAfter.map (· - 1)) rest (← feed limit handle pending bytes)

/-- The last line may lack its newline. -/
def finish (handle : Request → Step σ Unit) (pending : Tail) : Step σ Unit :=
  if pending.bytes.isEmpty then pure () else handleLine handle pending.bytes

/-- Handles a whole body; gives the count that the protocol then has. -/
def run (limit : Nat) (handle : Request → Step σ Unit) (count : σ → Nat)
    (cancelAfter : Option Nat) (body : List Chunk) : Step σ Nat := do
  finish handle (← feedAll limit handle cancelAfter body Tail.none)
  return count (← get)

end HeapTelemetry.Ingest
