import HeapTelemetry.Text.Numeral

/-! Documents of the settings format: scalars, lists and mappings, and what they
say to a reader that expects a number, a text or a list. -/

namespace HeapTelemetry

/-- A scalar keeps its text; `plain` tells that it stood without quotes. -/
inductive Yaml
  | scalar (text : String) (plain : Bool)
  | list (items : List Yaml)
  | mapping (entries : List (Yaml × Yaml))
  deriving Inhabited

namespace Yaml

/-- A value that is left out. -/
def missing : Yaml := scalar "" true

/-- An unsigned number below a limit, in decimal without leading zeros or with
the sign of another base in front. -/
def asNat? (limit : Nat) : Yaml → Option Nat
  | scalar text true => do
    let digits := match text.toList with
      | '+' :: rest => rest
      | cs => cs
    let (base, digits) := match digits with
      | '0' :: 'x' :: rest => (16, rest)
      | '0' :: 'o' :: rest => (8, rest)
      | '0' :: 'b' :: rest => (2, rest)
      | cs => (10, cs)
    if digits.isEmpty || (base = 10 && 1 < digits.length && digits.head? == some '0') then none
    let values ← digits.mapM Text.hexValue?
    if values.any (base ≤ ·) then none
    let n := values.foldl (fun n v => base * n + v) 0
    if n < limit then some n else none
  | _ => none

def asBool? : Yaml → Option Bool
  | scalar text true =>
    if text ∈ ["true", "True", "TRUE"] then some true
    else if text ∈ ["false", "False", "FALSE"] then some false
    else none
  | _ => none

/-- Any scalar as it was written. -/
def asText? : Yaml → Option String
  | scalar text _ => some text
  | _ => none

/-- A list; one that is left out has no items. -/
def asList? (item : Yaml → Option α) : Yaml → Option (List α)
  | list vs => vs.mapM item
  | scalar "" true => some []
  | _ => none

/-- The entries of a mapping with scalars for keys; one that is left out has
none. -/
def asMapping? : Yaml → Option (List (String × Yaml))
  | mapping entries => entries.mapM fun (key, v) => key.asText?.map (·, v)
  | scalar "" true => some []
  | _ => none

/-- The value of an entry, or a default if there is none. Two of them are an
error. -/
def field? (entries : List (String × Yaml)) (name : String) (read : Yaml → Option α) (default : α) :
    Option α :=
  match entries.filter (·.1 = name) with
  | [] => some default
  | [(_, v)] => read v
  | _ => none

end Yaml
end HeapTelemetry
