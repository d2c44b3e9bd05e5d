import HeapTelemetry.Bytes
import HeapTelemetry.Instance
import HeapTelemetry.Text.Numeral

/-! The paths of the HTTP interface and the parameters in them. -/

namespace HeapTelemetry.Http

/-- The resources, with parameters as they stand in the path. -/
inductive Route
  | health
  | save
  | services
  | instances (service : String)
  | sessions (service name : String)
  | metrics (service name id : String)
  | subscribe (service name id : String)
  deriving DecidableEq, Repr

namespace Route

/-- What follows scheme and host in a target that has them. Another target
without a slash in front names only a host. -/
def withoutHost (target : List Char) : List Char :=
  match target.span fun c => c.isAlphanum || c = '+' || c = '-' || c = '.' with
  | ([], _) => target
  | (_, ':' :: '/' :: '/' :: rest) => rest.dropWhile fun c => c ≠ '/' ∧ c ≠ '?' ∧ c ≠ '#'
  | _ => []

/-- The path of a target, without query and fragment. -/
def pathOf (target : String) : String :=
  String.ofList ((withoutHost target.toList).takeWhile fun c => c ≠ '?' ∧ c ≠ '#')

/-- The route of a target. A parameter is one segment and may be empty. -/
def ofTarget? (target : String) : Option Route :=
  match (pathOf target).splitOn "/" with
  | ["", "health"] => some health
  | ["", "v1", "save"] => some save
  | "" :: "api" :: "v1" :: "services" :: rest =>
    match rest with
    | [] => some services
    | [s, "instances"] => some (instances s)
    | [s, "instances", n, "sessions"] => some (sessions s n)
    | [s, "instances", n, "sessions", id, "metrics"] => some (metrics s n id)
    | [s, "instances", n, "sessions", id, "subscribe"] => some (subscribe s n id)
    | _ => none
  | _ => none

end Route

def hexValue? (b : UInt8) : Option UInt8 :=
  if 48 ≤ b ∧ b ≤ 57 then some (b - 48)
  else if 97 ≤ b ∧ b ≤ 102 then some (b - 87)
  else if 65 ≤ b ∧ b ≤ 70 then some (b - 55)
  else none

/-- Replaces every percent sign with two hexadecimal digits by the byte they
stand for; any other percent sign stays. -/
def percentDecode : Bytes → Bytes
  | [] => []
  | [b] => [b]
  | [b, c] => [b, c]
  | b :: c :: d :: rest =>
    match b == 37, hexValue? c, hexValue? d with
    | true, some high, some low => (16 * high + low) :: percentDecode rest
    | _, _, _ => b :: percentDecode (c :: d :: rest)

/-- The text of a parameter, if its bytes are text. -/
def text? (parameter : String) : Option String := Bytes.text? (percentDecode (Bytes.ofText parameter))

/-- The instance that two parameters name. -/
def instance? (service name : String) : Option Instance := do return ⟨← text? service, ← text? name⟩

/-- The session that three parameters name. -/
def session? (service name id : String) : Option Session := do
  let owner ← instance? service name
  return ⟨owner, ← Text.signed64? (← text? id)⟩

end HeapTelemetry.Http
