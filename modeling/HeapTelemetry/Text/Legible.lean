import HeapTelemetry.Bytes

/-! Text from bytes that need not be well formed. Bytes that begin a character
and do not go on as one become a single replacement character together, and so
does each byte that cannot begin one. -/

namespace HeapTelemetry.Text

/-- What is missing of a character: how many bytes, between which bounds the next
one lies, and the bits so far. -/
structure Unfinished where
  owed : Nat
  low : UInt8
  high : UInt8
  bits : Nat

/-- What the first byte of a longer character asks for. The bounds keep out
characters that have a shorter form, surrogates and codes beyond the last one. -/
def Unfinished.ofFirst? (b : UInt8) : Option Unfinished :=
  if b < 0xc2 || 0xf4 < b then none
  else if b < 0xe0 then some ⟨1, 0x80, 0xbf, b.toNat % 32⟩
  else if b < 0xf0 then
    some ⟨2, if b = 0xe0 then 0xa0 else 0x80, if b = 0xed then 0x9f else 0xbf, b.toNat % 16⟩
  else some ⟨3, if b = 0xf0 then 0x90 else 0x80, if b = 0xf4 then 0x8f else 0xbf, b.toNat % 8⟩

def replacement : Char := '\ufffd'

/-- What a byte adds between characters. -/
def begun (b : UInt8) : List Char × Option Unfinished :=
  if b < 0x80 then ([Char.ofNat b.toNat], none)
  else match Unfinished.ofFirst? b with
    | none => ([replacement], none)
    | some u => ([], some u)

/-- What a byte adds inside a character. -/
def Unfinished.add (u : Unfinished) (b : UInt8) : List Char × Option Unfinished :=
  if u.low ≤ b && b ≤ u.high then
    let bits := 64 * u.bits + b.toNat % 64
    if u.owed = 1 then ([Char.ofNat bits], none) else ([], some ⟨u.owed - 1, 0x80, 0xbf, bits⟩)
  else
    let (cs, next) := begun b
    (replacement :: cs, next)

def legibleFrom : Option Unfinished → Bytes → List Char
  | none, [] => []
  | some _, [] => [replacement]
  | u?, b :: rest =>
    let (cs, next) := match u? with
      | none => begun b
      | some u => u.add b
    cs ++ legibleFrom next rest

/-- The text of the bytes, whatever they are. -/
def legible (b : Bytes) : String := String.ofList (legibleFrom none b)

end HeapTelemetry.Text
