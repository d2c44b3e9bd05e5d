import HeapTelemetry.Text.Blank

/-! Lengths of time and their written form: amounts with units, added up, as in
`1h 30m` or `1.5s`. -/

namespace HeapTelemetry

structure Duration where
  nanos : Nat
  deriving DecidableEq, Repr

namespace Duration

def second : Nat := 1000000000
def minute : Nat := 60 * second
def hour : Nat := 60 * minute
def day : Nat := 24 * hour

/-- A twelfth of a year, to the nearest hundredth of a day. -/
def month : Nat := 2630016 * second

/-- A year of 365 days and a quarter. -/
def year : Nat := 31557600 * second

def ofMillis (n : Nat) : Duration := ⟨1000000 * n⟩
def ofSeconds (n : Nat) : Duration := ⟨n * second⟩

/-- The names that a unit is read under, and its length. -/
def units : List (List String × Nat) :=
  [(["ns", "nsec", "nanos"], 1), (["us", "usec", "µs"], 1000), (["ms", "msec", "millis"], 1000000),
   (["s", "sec", "secs", "second", "seconds"], second),
   (["m", "min", "mins", "minute", "minutes"], minute),
   (["h", "hr", "hrs", "hour", "hours"], hour), (["d", "day", "days"], day),
   (["w", "wk", "wks", "week", "weeks"], 7 * day), (["M", "month", "months"], month),
   (["y", "yr", "yrs", "year", "years"], year)]

def unit? (name : String) : Option Nat := (units.find? fun u => name ∈ u.1).map Prod.snd

/-- Amounts are counted in seconds or, for the smaller units, in nanoseconds. -/
def base (unit : Nat) : Nat := if unit < second then 1 else second

/-- Adds some nanoseconds or seconds to a length. What is left of a second on
both sides must fit in 64 bits, and so must the seconds of the sum. -/
def add? (base amount total : Nat) : Option Nat :=
  let sum := total + base * amount
  let small := if base = 1 then total % second + amount else 0
  if small < UInt64.size ∧ sum / second < UInt64.size then some sum else none

/-- A whole number of units, counted in 64 bits. -/
def whole? (n unit total : Nat) : Option Nat :=
  let amount := n * (unit / base unit)
  if amount < UInt64.size then add? (base unit) amount total else none

/-- The part of a unit after the point. It must come out even, in seconds from
hours up and in nanoseconds below; a nanosecond has no parts. -/
def part? (numerator denominator unit total : Nat) : Option Nat :=
  let base := if unit < hour then 1 else second
  let scaled := numerator * (unit / base)
  if unit = 1 ∨ UInt64.size ≤ scaled ∨ scaled % denominator ≠ 0 then none
  else add? base (scaled / denominator) total

/-- Digits, with blanks anywhere between them, and what follows. -/
def digits (s : List Char) : List Char × List Char :=
  let (run, rest) := s.span fun c => c.isDigit || Text.isBlank c
  (run.filter Char.isDigit, rest)

def numeral (digits : List Char) : Nat := digits.foldl (fun n c => 10 * n + (c.toNat - 48)) 0

def isUnitLetter (c : Char) : Bool := c.isAlpha || c = 'µ'

/-- Adds one amount with its unit to a length. -/
def term? (total : Nat) (s : List Char) : Option (Nat × List Char) := do
  let (whole, rest) := digits s
  if numeral whole ≥ UInt64.size then none
  match rest with
  | '.' :: rest =>
    let (fraction, rest) := digits rest
    if fraction.isEmpty ∨ UInt64.size ≤ Nat.pow 10 fraction.length then none
    let (name, rest) := rest.span isUnitLetter
    let unit ← unit? (String.ofList name)
    let total ← whole? (numeral whole) unit total
    return (← part? (numeral fraction) (Nat.pow 10 fraction.length) unit total, rest)
  | rest =>
    let (name, rest) := rest.span isUnitLetter
    return (← whole? (numeral whole) (← unit? (String.ofList name)) total, rest)

/-- Adds the terms of a text to a length, with a bound on their number. -/
def sum? : Nat → Nat → List Char → Option Nat
  | 0, _, _ => none
  | fuel + 1, total, s => do
    let (total, rest) ← term? total s
    match Text.skipBlank rest with
    | [] => return total
    | c :: rest => if c.isDigit then sum? fuel total (c :: rest) else none

/-- Only zero may stand without a unit. -/
def parse? (s : String) : Option Duration :=
  if s = "0" then some ⟨0⟩
  else match Text.skipBlank s.toList with
  | [] => none
  | c :: rest => if c.isDigit then (sum? (rest.length + 1) 0 (c :: rest)).map Duration.mk else none

/-- An amount with its unit, or nothing for zero. -/
def term (plural : String) (n : Nat) (name : String) : List String :=
  if n = 0 then [] else [toString n ++ name ++ if n = 1 then "" else plural]

/-- The greatest units first; the larger ones are words. -/
def text (d : Duration) : String :=
  if d.nanos = 0 then "0s"
  else
    let months := d.nanos % year
    let days := months % month
    let rest := days % day
    " ".intercalate
      (term "s" (d.nanos / year) "year" ++ term "s" (months / month) "month" ++ term "s" (days / day) "day"
        ++ term "" (rest / hour) "h" ++ term "" (rest % hour / minute) "m"
        ++ term "" (rest % minute / second) "s" ++ term "" (rest % second / 1000000) "ms"
        ++ term "" (rest % 1000000 / 1000) "us" ++ term "" (rest % 1000) "ns")

end Duration
end HeapTelemetry
