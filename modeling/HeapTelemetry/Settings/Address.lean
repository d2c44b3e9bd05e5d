import HeapTelemetry.Text.Blank
import HeapTelemetry.Text.Numeral

/-! Network addresses of both families and their text. -/

namespace HeapTelemetry

inductive Address
  | v4 (a b c d : UInt8)
  | v6 (groups : Vector UInt16 8)
  deriving DecidableEq, Repr

namespace Address

/-- Any IPv4 address of this machine. -/
def unspecified : Address := v4 0 0 0 0

/-- A decimal octet without leading zeros. -/
def octet? (s : String) : Option UInt8 :=
  let cs := s.toList
  if cs.isEmpty || 3 < cs.length || !cs.all Char.isDigit || (1 < cs.length && cs.head? == some '0') then none
  else
    let n := cs.foldl (fun n c => 10 * n + (c.toNat - 48)) 0
    if n < 256 then some (UInt8.ofNat n) else none

def octets? (s : String) : Option (UInt8 × UInt8 × UInt8 × UInt8) := do
  let [a, b, c, d] := s.splitOn "." | none
  return (← octet? a, ← octet? b, ← octet? c, ← octet? d)

/-- One to four hexadecimal digits. -/
def group? (s : String) : Option UInt16 := do
  let cs := s.toList
  if cs.isEmpty || 4 < cs.length then none
  let values ← cs.mapM Text.hexValue?
  return UInt16.ofNat (values.foldl (fun n v => 16 * n + v) 0)

def pairUp (high low : UInt8) : UInt16 := UInt16.ofNat (256 * high.toNat + low.toNat)

/-- Groups between colons; the last two may be written as an IPv4 address. -/
def groups? (dotted : Bool) : List String → Option (List UInt16)
  | [] => some []
  | [last] =>
    match octets? last with
    | some (a, b, c, d) => if dotted then some [pairUp a b, pairUp c d] else none
    | none => (group? last).map ([·])
  | s :: rest => do return (← group? s) :: (← groups? dotted rest)

def ofGroups? (groups : List UInt16) : Option Address :=
  if h : groups.length = 8 then some (v6 ⟨groups.toArray, by simpa using h⟩) else none

def sideGroups? (dotted : Bool) (s : String) : Option (List UInt16) :=
  if s.isEmpty then some [] else groups? dotted (s.splitOn ":")

/-- The text before the first double colon and the text after it. -/
def splitAtGap : List Char → Option (List Char × List Char)
  | ':' :: ':' :: rest => some ([], rest)
  | [] => none
  | c :: rest => (splitAtGap rest).map fun (front, back) => (c :: front, back)

/-- A double colon stands for one group of zeros or more. -/
def parseV6? (s : String) : Option Address := do
  match splitAtGap s.toList with
  | none => ofGroups? (← groups? true (s.splitOn ":"))
  | some (front, back) =>
    let front ← sideGroups? false (String.ofList front)
    let back ← sideGroups? true (String.ofList back)
    if front.length + back.length ≥ 8 then none
    ofGroups? (front ++ List.replicate (8 - front.length - back.length) 0 ++ back)

def parse? (s : String) : Option Address :=
  match octets? s with
  | some (a, b, c, d) => some (v4 a b c d)
  | none => parseV6? s

def dottedText (a b c d : Nat) : String := s!"{a}.{b}.{c}.{d}"

def groupsText (groups : List UInt16) : String :=
  ":".intercalate (groups.map fun g => String.ofList (Nat.toDigits 16 g.toNat))

/-- Where the first of the longest runs of zero groups starts, and its length. -/
def longestGap (groups : List UInt16) : Nat × Nat :=
  let runs := (List.range groups.length).map fun i => (i, ((groups.drop i).takeWhile (· = 0)).length)
  runs.foldl (fun best run => if run.2 > best.2 then run else best) (0, 0)

/-- The shortest form; an embedded IPv4 address is written as one. -/
def text : Address → String
  | v4 a b c d => dottedText a.toNat b.toNat c.toNat d.toNat
  | v6 v =>
    match v.toList with
    | [0, 0, 0, 0, 0, 0xffff, g, h] =>
      "::ffff:" ++ dottedText (g.toNat / 256) (g.toNat % 256) (h.toNat / 256) (h.toNat % 256)
    | groups =>
      let (start, length) := longestGap groups
      if length > 1 then
        groupsText (groups.take start) ++ "::" ++ groupsText (groups.drop (start + length))
      else groupsText groups

end Address
end HeapTelemetry
