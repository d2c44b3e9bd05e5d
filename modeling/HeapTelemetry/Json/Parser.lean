import HeapTelemetry.Json.Text
import HeapTelemetry.Json.Value

/-! Reading JSON documents. Strings are checked only in shape: no raw control
bytes, and every escape complete. Nesting is not limited. -/

namespace HeapTelemetry.Json

def isSpace (b : UInt8) : Bool := b == 32 || b == 9 || b == 10 || b == 13

def skipSpace (s : Bytes) : Bytes := s.dropWhile isSpace

/-- The inside of a string up to its closing quote, and what follows. -/
def rawString? : Bytes → Option (Bytes × Bytes)
  | [] => none
  | 34 :: rest => some ([], rest)
  | 92 :: 117 :: a :: b :: c :: d :: rest =>
    if (codeUnit? a b c d).isSome then
      (rawString? rest).map fun (raw, r) => (92 :: 117 :: a :: b :: c :: d :: raw, r)
    else none
  | 92 :: letter :: rest =>
    if (unescapeLetter? letter).isSome then
      (rawString? rest).map fun (raw, r) => (92 :: letter :: raw, r)
    else none
  | b :: rest =>
    if b < 32 ∨ b = 92 then none
    else (rawString? rest).map fun (raw, r) => (b :: raw, r)

def digits (s : Bytes) : Bytes × Bytes := (s.takeWhile Bytes.isDigit, s.dropWhile Bytes.isDigit)

/-- Digits without a superfluous zero in front. -/
def wholePart? (s : Bytes) : Option (Bytes × Bytes) :=
  let (d, rest) := digits s
  match d with
  | [] => none
  | [_] => some (d, rest)
  | first :: _ => if first = 48 then none else some (d, rest)

/-- A point and at least one digit, or nothing. -/
def fractionPart? : Bytes → Option (Bytes × Bytes)
  | 46 :: s =>
    let (d, rest) := digits s
    if d.isEmpty then none else some (46 :: d, rest)
  | s => some ([], s)

/-- `e`, an optional sign and at least one digit, or nothing. -/
def exponentPart? : Bytes → Option (Bytes × Bytes)
  | e :: s =>
    if e = 101 ∨ e = 69 then
      let (sign, s) : Bytes × Bytes := match s with
        | c :: r => if c = 43 ∨ c = 45 then ([c], r) else ([], s)
        | [] => ([], s)
      let (d, rest) := digits s
      if d.isEmpty then none else some (e :: sign ++ d, rest)
    else some ([], e :: s)
  | [] => some ([], [])

def numberLiteral? (s : Bytes) : Option (Bytes × Bytes) := do
  let (sign, s) : Bytes × Bytes := match s with
    | 45 :: r => ([45], r)
    | _ => ([], s)
  let (whole, s) ← wholePart? s
  let (fraction, s) ← fractionPart? s
  let (exponent, s) ← exponentPart? s
  return (sign ++ whole ++ fraction ++ exponent, s)

/-- Strips a fixed word. -/
def word? (w : String) (s : Bytes) : Option Bytes :=
  let w := Bytes.ofText w
  if s.take w.length = w then some (s.drop w.length) else none

mutual

/-- Reads one value after white space, with a bound on the steps. -/
def value? : Nat → Bytes → Option (Json × Bytes)
  | 0, _ => none
  | fuel + 1, s =>
    match skipSpace s with
    | [] => none
    | 34 :: rest => (rawString? rest).map fun (raw, r) => (string raw, r)
    | 91 :: rest =>
      match skipSpace rest with
      | 93 :: r => some (array [], r)
      | r => (items? fuel r).map fun (vs, r) => (array vs, r)
    | 123 :: rest =>
      match skipSpace rest with
      | 125 :: r => some (object [], r)
      | r => (members? fuel r).map fun (ms, r) => (object ms, r)
    | 110 :: rest => (word? "ull" rest).map fun r => (null, r)
    | 116 :: rest => (word? "rue" rest).map fun r => (bool true, r)
    | 102 :: rest => (word? "alse" rest).map fun r => (bool false, r)
    | s => (numberLiteral? s).map fun (lit, r) => (number lit, r)

/-- Reads the items of a non-empty array and its closing bracket. -/
def items? : Nat → Bytes → Option (List Json × Bytes)
  | 0, _ => none
  | fuel + 1, s => do
    let (v, s) ← value? fuel s
    match skipSpace s with
    | 93 :: r => some ([v], r)
    | 44 :: r => do
      let (vs, r) ← items? fuel r
      some (v :: vs, r)
    | _ => none

/-- Reads the members of a non-empty object and its closing brace. -/
def members? : Nat → Bytes → Option (List (Bytes × Json) × Bytes)
  | 0, _ => none
  | fuel + 1, s =>
    match skipSpace s with
    | 34 :: s => do
      let (name, s) ← rawString? s
      match skipSpace s with
      | 58 :: s => do
        let (v, s) ← value? fuel s
        match skipSpace s with
        | 125 :: r => some ([(name, v)], r)
        | 44 :: r => do
          let (ms, r) ← members? fuel r
          some ((name, v) :: ms, r)
        | _ => none
      | _ => none
    | _ => none

end

/-- Reads a whole document. Every second step takes a byte, so twice the length
is enough. -/
def parse? (s : Bytes) : Option Json :=
  match value? (2 * s.length + 2) s with
  | some (v, rest) => if (skipSpace rest).isEmpty then some v else none
  | none => none

end HeapTelemetry.Json
