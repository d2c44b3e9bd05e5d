import HeapTelemetry.Error
import HeapTelemetry.Measurement

/-! What a stored session yields when it is read back. -/

namespace HeapTelemetry

/-- A reading fails before its first item, or has items, of which some may be
damaged records, and possibly a failure that ends them. -/
inductive Reading
  | failed (e : Error)
  | items (records : List (Except Error Measurement)) (failure : Option Error)

namespace Reading

/-- The items in order, a failure being the last of them. -/
def toList : Reading → List (Except Error Measurement)
  | failed e => [.error e]
  | items records none => records
  | items records (some e) => records ++ [.error e]

/-- The items for a reader that is cancelled once it has taken some of them.
Who is cancelled before the end is told so in place of the next item. -/
def toListUntil (cancelAfter : Option Nat) : Reading → List (Except Error Measurement)
  | failed e => [.error e]
  | items records failure =>
    match cancelAfter with
    | none => toList (items records failure)
    | some n =>
      if n ≤ records.length then records.take n ++ [.error .cancelled]
      else toList (items records failure)

end Reading
end HeapTelemetry
