import HeapTelemetry.Error

/-! Instants of the proleptic Gregorian calendar in UTC, to the nanosecond and
with leap seconds, as counts of seconds since 1970. -/

namespace HeapTelemetry

namespace Calendar

/-- Days from 1970-01-01 to a date. Years are counted from March, so that the
leap day ends a year; 400 years have 146097 days. -/
def dayNumber (year : Int) (month day : Nat) : Int :=
  let y := if month ≤ 2 then year - 1 else year
  let era := y / 400
  let yoe := y % 400
  let doy : Int := (153 * ((month + 9) % 12) + 2) / 5 + day - 1
  era * 146097 + (yoe * 365 + yoe / 4 - yoe / 100 + doy) - 719468

/-- The date of a day number. -/
def date (dayNumber : Int) : Int × Nat × Nat :=
  let z := dayNumber + 719468
  let era := z / 146097
  let doe := z % 146097
  let yoe := (doe - doe / 1460 + doe / 36524 - doe / 146096) / 365
  let doy := doe - (365 * yoe + yoe / 4 - yoe / 100)
  let mp := (5 * doy + 2) / 153
  let day := doy - (153 * mp + 2) / 5 + 1
  let month := if mp < 10 then mp + 3 else mp - 9
  let year := yoe + era * 400 + if month ≤ 2 then 1 else 0
  (year, month.toNat, day.toNat)

def isLeap (year : Int) : Bool := year % 4 == 0 && (year % 100 != 0 || year % 400 == 0)

def daysIn (year : Int) (month : Nat) : Nat :=
  if month = 2 then (if isLeap year then 29 else 28)
  else if month ∈ [4, 6, 9, 11] then 30 else 31

def firstYear : Int := -262143
def lastYear : Int := 262142

/-- Seconds before the first and after the last representable instant. -/
def firstSecond : Int := -8334601228800
def endSecond : Int := 8210266876800

def billion : Nat := 1000000000

end Calendar

open Calendar in
/-- An instant. A fraction of a billion nanoseconds or more lies in the leap
second that follows `seconds`, which then ends a minute. -/
structure Timestamp where
  seconds : Int
  fraction : Nat
  inRange : firstSecond ≤ seconds ∧ seconds < endSecond ∧ fraction < 2 * billion
  leapAtMinuteEnd : billion ≤ fraction → seconds % 60 = 59
  deriving DecidableEq, Repr

namespace Timestamp
open Calendar

/-- The instant with these counts, if there is one. -/
def ofParts? (seconds : Int) (fraction : Nat) : Option Timestamp :=
  if h : (firstSecond ≤ seconds ∧ seconds < endSecond ∧ fraction < 2 * billion)
      ∧ (billion ≤ fraction → seconds % 60 = 59) then
    some ⟨seconds, fraction, h.1, h.2⟩
  else none

def ofNanos (nanos : Int64) : Timestamp where
  seconds := nanos.toInt / billion
  fraction := (nanos.toInt % billion).toNat
  inRange := by
    have := nanos.toInt_lt
    have := nanos.le_toInt
    simp only [firstSecond, endSecond, billion]
    omega
  leapAtMinuteEnd := by
    simp only [billion]
    omega

/-- Nanoseconds since 1970, a leap second counted as the one after it. -/
def totalNanos (t : Timestamp) : Int := t.seconds * billion + t.fraction

def fitsInt64 (v : Int) : Bool := Int64.minValue.toInt ≤ v && v ≤ Int64.maxValue.toInt

def nanos? (t : Timestamp) : Option Int64 :=
  if fitsInt64 t.totalNanos then some (Int64.ofInt t.totalNanos) else none

/-- Nanoseconds from one instant to a later one. A leap second between two
times of day counts if the one within it comes first. -/
def since (t first : Timestamp) : Int :=
  let clock (x : Timestamp) := x.seconds % 86400
  let counted : Int :=
    if clock t > clock first ∧ billion ≤ first.fraction then 1
    else if clock t < clock first ∧ billion ≤ t.fraction then -1
    else 0
  (t.seconds - first.seconds + counted) * billion + (t.fraction - first.fraction)

end Timestamp
end HeapTelemetry
