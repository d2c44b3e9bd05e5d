import HeapTelemetry.Report

/-! Reports kept for a while, bounded in total size. The least recently used
one makes room, and an expired one is never served. -/

namespace HeapTelemetry

/-- Times are in nanoseconds. -/
structure CacheLimits where
  maxTotalSize : Nat
  ttl : Nat
  gcFrequency : Nat
  gcMaxPause : Nat
  deriving DecidableEq, Repr

structure CacheEntry where
  key : String
  report : Report
  size : Nat
  insertedAt : Nat

/-- Entries, the most recently used one first. -/
structure ResultCache where
  limits : CacheLimits
  entries : List CacheEntry
  totalSize : Nat

namespace ResultCache

def empty (limits : CacheLimits) : ResultCache := ⟨limits, [], 0⟩

def entrySize (key : String) (r : Report) : Nat := r.approxSize + key.utf8ByteSize

def find? (c : ResultCache) (key : String) : Option CacheEntry := c.entries.find? (·.key = key)

/-- Takes the entry of a key out. -/
def remove (c : ResultCache) (key : String) : Bool × ResultCache :=
  match c.find? key with
  | none => (false, c)
  | some e =>
    (true, { c with entries := c.entries.filter (·.key ≠ key), totalSize := c.totalSize - e.size })

/-- Drops entries, the least recently used one first, until no more than `room`
is taken. The entries come least recently used first. -/
def evict (room : Nat) : List CacheEntry → Nat → List CacheEntry × Nat
  | [], total => ([], total)
  | e :: rest, total =>
    if total > room then evict room rest (total - e.size) else (e :: rest, total)

/-- Stores a report, unless it alone is larger than the bound. -/
def insert (c : ResultCache) (now : Nat) (key : String) (r : Report) : Bool × ResultCache :=
  let size := entrySize key r
  if size > c.limits.maxTotalSize then (false, c)
  else
    let c := (c.remove key).2
    let (kept, total) := evict (c.limits.maxTotalSize - size) c.entries.reverse c.totalSize
    (true, { c with entries := ⟨key, r, size, now⟩ :: kept.reverse, totalSize := total + size })

def isExpired (c : ResultCache) (now : Nat) (e : CacheEntry) : Bool := c.limits.ttl ≤ now - e.insertedAt

/-- The report of a key if it has not expired; an expired one goes. -/
def get (c : ResultCache) (now : Nat) (key : String) : Option Report × ResultCache :=
  match c.find? key with
  | none => (none, c)
  | some e =>
    if c.isExpired now e then (none, (c.remove key).2)
    else (some e.report, { c with entries := e :: c.entries.filter (·.key ≠ key) })

/-- Entries looked at between two checks of the time a collection has taken. -/
def checkEvery : Nat := 64

/-- The entries that a collection looks at. `elapsed i` is the time it has
taken when it comes to entry `i`. -/
def inspected (c : ResultCache) (elapsed : Nat → Nat) : List CacheEntry :=
  (c.entries.zipIdx.takeWhile fun (_, i) =>
    !(0 < i && i % checkEvery == 0 && c.limits.gcMaxPause ≤ elapsed i)).map Prod.fst

/-- Removes the expired entries among those looked at; gives their number. -/
def collectGarbage (c : ResultCache) (now : Nat) (elapsed : Nat → Nat) : Nat × ResultCache :=
  let expired := (c.inspected elapsed).filter (c.isExpired now)
  (expired.length, expired.foldl (fun c e => (c.remove e.key).2) c)

end ResultCache

/-- A cache on a clock that stands still between steps. `due` has the next time
of every periodic collection that was started, the earliest one first. Once
`stopped`, none runs any more. -/
structure TimedCache where
  cache : ResultCache
  now : Nat
  due : List Nat
  stopped : Bool

namespace TimedCache

def empty (limits : CacheLimits) (now : Nat) : TimedCache := ⟨ResultCache.empty limits, now, [], false⟩

/-- A collection that takes no time by this clock. -/
def collect (t : TimedCache) : Nat × TimedCache :=
  let (n, cache) := t.cache.collectGarbage t.now fun _ => 0
  (n, { t with cache })

/-- Collects now and from now on periodically, beside the collections that were
started before. -/
def startCollecting (t : TimedCache) : TimedCache :=
  { if t.stopped then t else t.collect.2 with due := t.due ++ [t.now + t.cache.limits.gcFrequency] }

/-- Ends all periodic collections for good. -/
def stopCollecting (t : TimedCache) : TimedCache := { t with stopped := true }

/-- Runs the collections that are due by a time, with a bound on their number. -/
def runDue (limit : Nat) : Nat → TimedCache → TimedCache
  | 0, t => t
  | fuel + 1, t =>
    match t.due with
    | [] => t
    | next :: later =>
      if t.stopped || limit < next then t
      else runDue limit fuel { t with now := next, due := later }.startCollecting

/-- Lets time pass. -/
def advance (t : TimedCache) (duration : Nat) : TimedCache :=
  let target := t.now + duration
  let rounds := duration / max 1 t.cache.limits.gcFrequency + 1
  { runDue target (t.due.length * rounds) t with now := target }

def insert (t : TimedCache) (key : String) (r : Report) : Bool × TimedCache :=
  let (stored, cache) := t.cache.insert t.now key r
  (stored, { t with cache })

def get (t : TimedCache) (key : String) : Option Report × TimedCache :=
  let (found, cache) := t.cache.get t.now key
  (found, { t with cache })

def remove (t : TimedCache) (key : String) : Bool × TimedCache :=
  let (removed, cache) := t.cache.remove key
  (removed, { t with cache })

end TimedCache
end HeapTelemetry
