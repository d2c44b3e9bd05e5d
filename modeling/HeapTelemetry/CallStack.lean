import HeapTelemetry.Digest

/-! Call stacks and their digests. A stack is told apart by the digest of its
frames, one `name:file:line` line each. -/

namespace HeapTelemetry

structure Frame where
  name : String
  file : String
  line : Int32
  deriving DecidableEq, Repr, Inhabited

/-- Frames, innermost first. -/
structure CallStack where
  frames : List Frame
  deriving DecidableEq, Repr, Inhabited

def Frame.identity (f : Frame) : Bytes :=
  Bytes.ofText f.name ++ [58] ++ Bytes.ofText f.file ++ [58]
    ++ Bytes.ofText (toString f.line.toInt) ++ [Bytes.newline]

namespace CallStack

/-- The bytes whose digest identifies the stack. -/
def identity (s : CallStack) : Bytes := s.frames.flatMap Frame.identity

def id (s : CallStack) : String := Digest.hash s.identity

/-- Approximate heap bytes of the frames: a record each, and the texts. -/
def approxSize (s : CallStack) : Nat :=
  s.frames.foldr (fun f n => 56 + f.name.utf8ByteSize + f.file.utf8ByteSize + n) 0

end CallStack
end HeapTelemetry
