/-! Finite tables as lists of entries in order of first insertion. -/

namespace HeapTelemetry

abbrev Table (α β : Type) := List (α × β)

namespace Table
variable {α β : Type} [DecidableEq α]

def get? (key : α) : Table α β → Option β
  | [] => none
  | (k, v) :: rest => if k = key then some v else get? key rest

def contains (t : Table α β) (key : α) : Bool := (t.get? key).isSome

/-- Replaces the entry of a key in its place, or adds one at the end. -/
def set (key : α) (value : β) : Table α β → Table α β
  | [] => [(key, value)]
  | (k, v) :: rest => if k = key then (key, value) :: rest else (k, v) :: set key value rest

def erase (key : α) (t : Table α β) : Table α β := t.filter (·.1 ≠ key)

def keys (t : Table α β) : List α := t.map Prod.fst

@[simp] theorem get?_nil (key : α) : get? key ([] : Table α β) = none := rfl

theorem get?_set (t : Table α β) (key other : α) (value : β) :
    get? other (set key value t) = if key = other then some value else get? other t := by
  induction t with
  | nil => rfl
  | cons e rest ih => grind [get?, set]

theorem get?_erase (t : Table α β) (key other : α) :
    get? other (erase key t) = if key = other then none else get? other t := by
  induction t with
  | nil => simp [erase]
  | cons e rest ih => grind [get?, erase]

end Table
end HeapTelemetry
