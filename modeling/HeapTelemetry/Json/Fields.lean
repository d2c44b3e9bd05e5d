import HeapTelemetry.Json.Parser

/-! Reading records out of JSON documents. A record is an object with its
fields in any order, or an array of them in their order. -/

namespace HeapTelemetry.Json

def asText? : Json → Option String
  | string raw => text? raw
  | _ => none

/-- An integer literal: no point, no exponent and no negative zero. -/
def asInt? : Json → Option Int
  | number literal =>
    match literal with
    | 45 :: digits =>
      if digits.all Bytes.isDigit && digits != [48] then some (-(Bytes.decimal digits : Int))
      else none
    | digits => if digits.all Bytes.isDigit then some (Bytes.decimal digits) else none
  | _ => none

def asInt64? (v : Json) : Option Int64 := do
  let n ← asInt? v
  if Int64.minValue.toInt ≤ n ∧ n ≤ Int64.maxValue.toInt then some (Int64.ofInt n) else none

def asInt32? (v : Json) : Option Int32 := do
  let n ← asInt? v
  if Int32.minValue.toInt ≤ n ∧ n ≤ Int32.maxValue.toInt then some (Int32.ofInt n) else none

def asList? (item : Json → Option α) : Json → Option (List α)
  | array vs => vs.mapM item
  | _ => none

def ofInt (n : Int) : Json := number (Bytes.ofText (toString n))

def ofString (s : String) : Json := string (ofText s)

def record (members : List (String × Json)) : Json :=
  object (members.map fun (name, v) => (ofText name, v))

/-- The values of a field among named members; a repeated one is no record. -/
def field? (members : List (String × Json)) (name : String) : Option (Option Json) :=
  match members.filter (·.1 = name) with
  | [] => some none
  | [(_, v)] => some (some v)
  | _ => none

/-- The values of the fields in the order of their names, absent ones as
`none`. Members of other names are passed over, but their names are read. -/
def fields? (names : List String) : Json → Option (List (Option Json))
  | object members => do
    let named ← members.mapM fun (raw, v) => (text? raw).map (·, v)
    names.mapM (field? named)
  | array items =>
    if items.length ≤ names.length then
      some (items.map some ++ List.replicate (names.length - items.length) none)
    else none
  | _ => none

end HeapTelemetry.Json
