import HeapTelemetry.Yaml.Scalar
import HeapTelemetry.Yaml.Value

/-! Values that say where they end: scalars, lists in brackets and mappings in
braces. -/

namespace HeapTelemetry.Yaml

/-- What stands between two commas: a value, or a key with its value. -/
structure Slot where
  first : Yaml
  value? : Option Yaml

/-- A pair in a list is a mapping with one entry. -/
def Slot.item (s : Slot) : Yaml :=
  match s.value? with
  | none => s.first
  | some v => mapping [(s.first, v)]

/-- In a mapping a value alone is a key. -/
def Slot.entry (s : Slot) : Yaml × Yaml := (s.first, s.value?.getD missing)

mutual

/-- Reads a value, whether a line has ended after it, and what follows, with a
bound on the steps it takes. -/
def node? (inBrackets : Bool) (floor : Nat) : Nat → List Place → Option (Yaml × Bool × List Place)
  | 0, _ => none
  | _, [] => none
  | fuel + 1, p :: rest =>
    match p.char with
    | '[' => do
      let (slots, rest) ← slots? floor ']' fuel rest
      return (list (slots.map Slot.item), false, rest)
    | '{' => do
      let (slots, rest) ← slots? floor '}' fuel rest
      return (mapping (slots.map Slot.entry), false, rest)
    | '"' => do
      let (text, rest) ← doubleQuoted? .outside [] Gap.none rest
      return (scalar (String.ofList text) false, false, rest)
    | '\'' => do
      let (text, rest) ← singleQuoted? false [] Gap.none rest
      return (scalar (String.ofList text) false, false, rest)
    | _ => do
      if !startsPlain inBrackets (p :: rest) then none
      let (text, fresh, rest) ← plain? inBrackets floor [] Gap.none (p :: rest)
      return (scalar (String.ofList text) true, fresh, rest)

/-- Reads the slots up to a closing bracket. -/
def slots? (floor : Nat) (close : Char) : Nat → List Place → Option (List Slot × List Place)
  | 0, _ => none
  | fuel + 1, s =>
    match skipInside s with
    | [] => none
    | p :: rest => do
      if p.char = close then return ([], rest)
      let (slot, after) ← slot? floor close fuel p rest
      match after with
      | [] => none
      | q :: rest =>
        if q.char = close then return ([slot], rest)
        else if q.char = ',' then
          let (slots, rest) ← slots? floor close fuel rest
          return (slot :: slots, rest)
        else none

/-- Reads one slot and what stands after it up to the next delimiter. A question
mark announces a key, of any length. -/
def slot? (floor : Nat) (close : Char) : Nat → Place → List Place → Option (Slot × List Place)
  | 0, _, _ => none
  | fuel + 1, start, rest =>
    if start.char = '?' then announced? floor close fuel (skipInside rest)
    else do
      let (first, _, rest) ← node? true floor fuel (start :: rest)
      let rest := skipInside rest
      let (value?, after) ← slotValue? floor fuel rest
      if value?.isSome && !rest.head?.any (mayEndKey start) then none
      return (⟨first, value?⟩, after)

/-- Reads a slot from its announced key on. The key may be left out; in a list
the delimiter that shows this is passed over. -/
def announced? (floor : Nat) (close : Char) : Nat → List Place → Option (Slot × List Place)
  | 0, _ => none
  | _, [] => none
  | fuel + 1, p :: rest => do
    let (first, rest) ←
      if p.char = ':' || p.char = ',' || p.char = close then
        pure (missing, if close = ']' then skipInside rest else p :: rest)
      else do
        let (first, _, rest) ← node? true floor fuel (p :: rest)
        pure (first, skipInside rest)
    let (value?, rest) ← slotValue? floor fuel rest
    return (⟨first, some (value?.getD missing)⟩, rest)

/-- Reads the value of a slot if a colon stands in front of one. -/
def slotValue? (floor : Nat) : Nat → List Place → Option (Option Yaml × List Place)
  | 0, _ => none
  | _, [] => none
  | fuel + 1, colon :: rest =>
    if colon.char ≠ ':' then some (none, colon :: rest)
    else match skipInside rest with
      | [] => none
      | p :: rest => do
        if p.char = ',' || p.char = ']' || p.char = '}' then return (some missing, p :: rest)
        let (v, _, rest) ← node? true floor fuel (p :: rest)
        return (some v, skipInside rest)

end

end HeapTelemetry.Yaml
