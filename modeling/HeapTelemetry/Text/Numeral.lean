/-! Digits, and decimal numerals of 64-bit numbers. -/

namespace HeapTelemetry.Text

/-- The value of a hexadecimal digit. -/
def hexValue? (c : Char) : Option Nat :=
  if c.isDigit then some (c.toNat - 48)
  else if 'a' ≤ c ∧ c ≤ 'f' then some (c.toNat - 87)
  else if 'A' ≤ c ∧ c ≤ 'F' then some (c.toNat - 55)
  else none

/-- One or more decimal digits. -/
def natural? (digits : List Char) : Option Nat :=
  if digits.isEmpty || !digits.all Char.isDigit then none
  else some (digits.foldl (fun n c => 10 * n + (c.toNat - 48)) 0)

/-- An unsigned number, with or without a plus sign. -/
def unsigned64? (s : String) : Option Nat := do
  let n ← natural? (match s.toList with
    | '+' :: rest => rest
    | cs => cs)
  if n < UInt64.size then some n else none

/-- A signed number; a plus sign may be written. -/
def signed64? (s : String) : Option Int := do
  let n : Int ← match s.toList with
    | '-' :: rest => (natural? rest).map fun n => -(n : Int)
    | '+' :: rest => (natural? rest).map Int.ofNat
    | cs => (natural? cs).map Int.ofNat
  if Int64.minValue.toInt ≤ n ∧ n ≤ Int64.maxValue.toInt then some n else none

end HeapTelemetry.Text
