import HeapTelemetry.Timestamp
import HeapTelemetry.Text.Blank

/-! Timestamps as text. Written in UTC with the fewest of 0, 3, 6 or 9 places
that are exact; read leniently, with blanks between the parts. -/

namespace HeapTelemetry.Timestamp
open Calendar Text

/-- Years beyond four digits, and negative ones, carry a sign. -/
def yearText (year : Int) : List Char :=
  if 0 ≤ year ∧ year ≤ 9999 then padded 4 year.toNat
  else (if year < 0 then '-' else '+') :: padded 4 year.natAbs

def fractionText (nanos : Nat) : List Char :=
  if nanos = 0 then []
  else if nanos % 1000000 = 0 then '.' :: padded 3 (nanos / 1000000)
  else if nanos % 1000 = 0 then '.' :: padded 6 (nanos / 1000)
  else '.' :: padded 9 nanos

def dateText (t : Timestamp) : List Char :=
  let (year, month, day) := date (t.seconds / 86400)
  yearText year ++ '-' :: padded 2 month ++ '-' :: padded 2 day

/-- A leap second is the sixtieth of its minute. -/
def clockText (t : Timestamp) : List Char :=
  let clock := (t.seconds % 86400).toNat
  padded 2 (clock / 3600) ++ ':' :: padded 2 (clock / 60 % 60)
    ++ ':' :: padded 2 (clock % 60 + t.fraction / billion)
    ++ fractionText (t.fraction % billion)

/-- As in records: `2024-03-15T12:00:00.500Z`. -/
def text (t : Timestamp) : String := String.ofList (t.dateText ++ 'T' :: t.clockText ++ ['Z'])

/-- As in messages: `2024-03-15 12:00:00.500 UTC`. -/
def display (t : Timestamp) : String :=
  String.ofList (t.dateText ++ ' ' :: t.clockText ++ " UTC".toList)

/-- An unsigned year has at most four digits; a signed one is not limited. -/
def year? : List Char → Option (Int × List Char)
  | '-' :: rest => (number? rest.length rest).map fun (n, r) => (-(n : Int), r)
  | '+' :: rest => (number? rest.length rest).map fun (n, r) => ((n : Int), r)
  | s => (number? 4 s).map fun (n, r) => ((n : Int), r)

def separator? : List Char → Option (List Char)
  | c :: rest => if c = 'T' ∨ c = 't' ∨ c = ' ' then some rest else none
  | [] => none

/-- Nanoseconds after a point; places beyond the ninth are passed over. -/
def fraction? : List Char → Option (Nat × List Char)
  | '.' :: rest =>
    (number? 9 rest).map fun (n, r) =>
      (n * Nat.pow 10 (9 - (rest.length - r.length)), r.dropWhile Char.isDigit)
  | s => some (0, s)

def twoDigits? : List Char → Option (Nat × List Char)
  | a :: b :: rest =>
    if a.isDigit && b.isDigit then some (10 * (a.toNat - 48) + (b.toNat - 48), rest) else none
  | _ => none

/-- Seconds east of Greenwich: hours, any colons and blanks, then minutes. -/
def offset? (s : List Char) : Option (Nat × List Char) := do
  let (hours, rest) ← twoDigits? s
  let (minutes, rest) ← twoDigits? (rest.dropWhile fun c => c = ':' || isBlank c)
  if hours ≤ 23 ∧ minutes ≤ 59 then some (3600 * hours + 60 * minutes, rest) else none

def zone? : List Char → Option (Int × List Char)
  | [] => none
  | c :: rest =>
    if ((c :: rest).take 3).map Char.toUpper = ['U', 'T', 'C'] then some (0, rest.drop 2)
    else if c = 'Z' ∨ c = 'z' then some (0, rest)
    else if c = '+' then (offset? rest).map fun (n, r) => ((n : Int), r)
    else if c = '-' ∨ c = '\u2212' then (offset? rest).map fun (n, r) => (-(n : Int), r)
    else none

/-- The instant of a local date and time at an offset from UTC. -/
def ofFields? (year : Int) (month day hour minute second nanos : Nat) (offset : Int) :
    Option Timestamp :=
  if firstYear ≤ year ∧ year ≤ lastYear ∧ 1 ≤ month ∧ month ≤ 12
      ∧ 1 ≤ day ∧ day ≤ daysIn year month ∧ hour ≤ 23 ∧ minute ≤ 59 ∧ second ≤ 60 then
    let whole := min second 59
    ofParts?
      (dayNumber year month day * 86400 + (3600 * hour + 60 * minute + whole : Nat) - offset)
      (nanos + if second = 60 then billion else 0)
  else none

/-- Reads a date, `T` or a space, a time of day and an offset. -/
def parseChars? (s : List Char) : Option Timestamp := do
  let (year, s) ← year? (skipBlank s)
  let s ← literal? '-' (skipBlank s)
  let (month, s) ← number? 2 (skipBlank s)
  let s ← literal? '-' (skipBlank s)
  let (day, s) ← number? 2 (skipBlank s)
  let s ← separator? s
  let (hour, s) ← number? 2 (skipBlank s)
  let s ← literal? ':' (skipBlank s)
  let (minute, s) ← number? 2 (skipBlank s)
  let s ← literal? ':' (skipBlank s)
  let (second, s) ← number? 2 (skipBlank s)
  let (nanos, s) ← fraction? s
  let (offset, s) ← zone? (skipBlank s)
  if (skipBlank s).isEmpty then ofFields? year month day hour minute second nanos offset
  else none

def parse? (s : String) : Option Timestamp := parseChars? s.toList

/-- Nanoseconds since 1970, or the reason why they do not exist. -/
def unixNanos (t : Timestamp) : Except Error Int64 :=
  match t.nanos? with
  | some n => .ok n
  | none => .error (.timeOutOfRange t.display)

end HeapTelemetry.Timestamp
