import HeapTelemetry.Bytes

/-! JSON documents with their scalars as written: numbers and strings keep the
bytes between their delimiters and are decoded only where they are used. -/

namespace HeapTelemetry

inductive Json
  | null
  | bool (value : Bool)
  | number (literal : Bytes)
  | string (raw : Bytes)
  | array (items : List Json)
  | object (members : List (Bytes × Json))
  deriving Inhabited

namespace Json

mutual

/-- The document without white space. -/
def render : Json → Bytes
  | null => Bytes.ofText "null"
  | bool true => Bytes.ofText "true"
  | bool false => Bytes.ofText "false"
  | number literal => literal
  | string raw => 34 :: raw ++ [34]
  | array items => 91 :: renderItems items ++ [93]
  | object members => 123 :: renderMembers members ++ [125]

def renderItems : List Json → Bytes
  | [] => []
  | [v] => render v
  | v :: rest => render v ++ 44 :: renderItems rest

def renderMembers : List (Bytes × Json) → Bytes
  | [] => []
  | [(name, v)] => 34 :: name ++ 34 :: 58 :: render v
  | (name, v) :: rest => 34 :: name ++ 34 :: 58 :: render v ++ 44 :: renderMembers rest

end

end Json
end HeapTelemetry
