import HeapTelemetry.Yaml.Flow

/-! Reading a document: one value, or a block of entries that stand below each
other, where what stands deeper belongs to the entry above it. -/

namespace HeapTelemetry.Yaml

/-- What a document has at some point: a value, whether a line has begun after
it, and what follows the blanks, comments and line breaks there. -/
structure Parsed (α : Type) where
  value : α
  fresh : Bool
  rest : List Place

/-- Reads a value outside brackets and passes over what stands after it. -/
def outside? (fuel floor : Nat) (s : List Place) : Option (Parsed Yaml) := do
  let (v, fresh, rest) ← node? false floor fuel s
  let (fresh, rest) := skip false fresh false rest
  return ⟨v, fresh, rest⟩

/-- What follows the colon of a key. -/
def afterColon? (start : Place) : List Place → Option (List Place)
  | colon :: rest => if mayEndKey start colon && endsWord rest then some rest else none
  | [] => none

mutual

/-- Reads what starts a line: a value, or a block if it turns out to be a key. -/
def nested? : Nat → Nat → Place → List Place → Option (Parsed Yaml)
  | 0, _, _, _ => none
  | fuel + 1, floor, start, rest => do
    let first ← outside? fuel floor (start :: rest)
    match afterColon? start first.rest with
    | none => return first
    | some rest =>
      let v ← entryValue? fuel start.column rest
      let more ← entries? fuel start.column v.fresh v.rest
      return { more with value := mapping ((first.value, v.value) :: more.value) }

/-- Reads the value of an entry in a block at a column. It stands on the line of
its key, or deeper on a line of its own. -/
def entryValue? : Nat → Nat → List Place → Option (Parsed Yaml)
  | 0, _, _ => none
  | fuel + 1, column, s =>
    match skip false false false s with
    | (fresh, []) => some ⟨missing, fresh, []⟩
    | (false, p :: rest) => outside? fuel (column + 1) (p :: rest)
    | (true, p :: rest) =>
      if column < p.column then nested? fuel (column + 1) p rest else some ⟨missing, true, p :: rest⟩

/-- Reads the entries that are left of a block at a column. -/
def entries? : Nat → Nat → Bool → List Place → Option (Parsed (List (Yaml × Yaml)))
  | 0, _, _, _ => none
  | _, _, fresh, [] => some ⟨[], fresh, []⟩
  | fuel + 1, column, fresh, p :: rest => do
    if p.column < column then return ⟨[], fresh, p :: rest⟩
    if p.column ≠ column || !fresh then none
    let key ← outside? fuel (column + 1) (p :: rest)
    let v ← entryValue? fuel column (← afterColon? p key.rest)
    let more ← entries? fuel column v.fresh v.rest
    return { more with value := (key.value, v.value) :: more.value }

end

/-- Reads a document. One without any content is an empty mapping. Lists are read in brackets
only; tags, anchors, block scalars and the marks between documents are refused. -/
def parse? (document : String) : Option Yaml := do
  let s ← places? document
  match (skip false true false s).2 with
  | [] => return mapping []
  | start :: rest =>
    let root ← nested? (6 * s.length + 6) 0 start rest
    if root.rest.isEmpty then return root.value else none

end HeapTelemetry.Yaml
