/-! White space, as the Unicode property of that name. -/

namespace HeapTelemetry.Text

/-- The code points with the White_Space property, as closed ranges. -/
def blankRanges : List (Nat × Nat) :=
  [(0x09, 0x0d), (0x20, 0x20), (0x85, 0x85), (0xa0, 0xa0), (0x1680, 0x1680),
   (0x2000, 0x200a), (0x2028, 0x2029), (0x202f, 0x202f), (0x205f, 0x205f), (0x3000, 0x3000)]

def isBlank (c : Char) : Bool := blankRanges.any fun (lo, hi) => lo ≤ c.toNat && c.toNat ≤ hi

def skipBlank (s : List Char) : List Char := s.dropWhile isBlank

/-- A decimal numeral of at least `width` digits, zeros in front. -/
def padded (width n : Nat) : List Char :=
  let digits := (toString n).toList
  List.replicate (width - digits.length) '0' ++ digits

/-- Reads one to `max` decimal digits. -/
def number? (max : Nat) (s : List Char) : Option (Nat × List Char) :=
  let digits := (s.take max).takeWhile Char.isDigit
  if digits.isEmpty then none
  else some (digits.foldl (fun n c => 10 * n + (c.toNat - 48)) 0, s.drop digits.length)

def literal? (c : Char) : List Char → Option (List Char)
  | [] => none
  | x :: rest => if x = c then some rest else none

end HeapTelemetry.Text
