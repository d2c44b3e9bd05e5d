import HeapTelemetry.Error
import HeapTelemetry.Series.Compressed

/-! Frames of log and block files: a payload's length, then the payload, which
is compressed. -/

namespace HeapTelemetry.FileFrame

/-- The frame around a packed value; `what` names it if it is too large. -/
def encode [Compressor] (what : String) (raw : Bytes) : Except Error Bytes :=
  let payload := Compressor.compress raw
  if payload.length < UInt32.size then .ok (Bytes.word 4 payload.length ++ payload)
  else .error (.oversizedFrame what)

/-- What a reader finds at its place. -/
inductive Found
  | noHeader
  | short
  | frame (payload rest : Bytes)
  deriving Repr

def next (b : Bytes) : Found :=
  match Bytes.readWord 4 b with
  | none => .noHeader
  | some (n, b) =>
    match Bytes.take? n b with
    | none => .short
    | some (payload, rest) => .frame payload rest

theorem next_append (payload rest : Bytes) (h : payload.length < UInt32.size) :
    next (Bytes.word 4 payload.length ++ payload ++ rest) = .frame payload rest := by
  rw [next, List.append_assoc, Bytes.readWord_word 4 _ _ h]
  simp only [Bytes.take?_append]

end HeapTelemetry.FileFrame
