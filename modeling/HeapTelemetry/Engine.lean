import HeapTelemetry.Feed
import HeapTelemetry.ResultCache
import HeapTelemetry.SessionWindows
import HeapTelemetry.Storage

/-! The rates of sessions. A live session is resident and kept up to date with
every measurement; any other one is read back from storage when it is asked
for, all of it or not at all. -/

namespace HeapTelemetry

/-- `cache` holds reports of sessions that were read back, if that is wanted. -/
structure Engine where
  window : Nat
  resident : Table Session SessionWindows
  feed : Feed Report
  cache : Option TimedCache

/-- Registers what can be read of a session. Damaged records and measurements
that the windows refuse are skipped; any other failure ends the reading. -/
def SessionWindows.registerAll :
    List (Except Error Measurement) → SessionWindows → Except Error SessionWindows
  | [], w => .ok w
  | .ok m :: rest, w =>
    match w.register m with
    | .ok w => registerAll rest w
    | .error _ => registerAll rest w
  | .error e :: rest, w => if e.isRecordLevel then registerAll rest w else .error e

namespace Engine
variable {B W α : Type}

def initial (window : Nat) (feedDepth : Nat) (cache : Option TimedCache) : Engine :=
  ⟨window, [], Feed.empty feedDepth, cache⟩

def windows (e : Engine) (s : Session) : SessionWindows :=
  (e.resident.get? s).getD (SessionWindows.empty e.window)

def setWindows (s : Session) (w : SessionWindows) : Step Engine Unit :=
  modify fun e => { e with resident := e.resident.set s w }

/-- Folds a live measurement into its session, which becomes resident even if
the measurement is refused, and pushes the new report if anyone listens. -/
def put (s : Session) (m : Measurement) : Step Engine Unit := do
  let w := (← get).windows s
  setWindows s w
  let w ← Step.ofExcept (w.register m)
  if (← get).feed.hasSubscribers s.key then
    let (report, w) := w.metrics
    setWindows s w
    modify fun e => { e with feed := (e.feed.broadcast s.key report).2 }
  else setWindows s w

def cached (key : String) : Step Engine (Option Report) := do
  let e ← get
  match e.cache with
  | none => return none
  | some c =>
    let (found, c) := c.get key
    set { e with cache := some c }
    return found

def keep (key : String) (r : Report) : Step Engine Unit :=
  modify fun e => { e with cache := e.cache.map fun c => (c.insert key r).2 }

def onEngine (x : Step Engine α) : Step (Engine × Storage B) α :=
  Step.on Prod.fst (fun e s => (e, s.2)) x

def onStorage (x : Step (Storage B) α) : Step (Engine × Storage B) α :=
  Step.on Prod.snd (fun d s => (s.1, d)) x

/-- The report on a session as it reads from storage. A cancellation counts the
items taken before it. -/
def replay [Backend B W] (window : Nat) (cancelAfter : Option Nat) (s : Session) :
    Step (Storage B) Report := do
  Storage.openLoader s
  let reading := (← get).read s
  Storage.closeLoader
  if cancelAfter = some 0 then throw .cancelled
  let w ← Step.ofExcept
    (SessionWindows.registerAll (reading.toListUntil cancelAfter) (SessionWindows.empty window))
  return w.compute

/-- The report on a session: from memory if it is resident, else from the cache,
else read back. -/
def metrics [Backend B W] (cancelAfter : Option Nat) (s : Session) :
    Step (Engine × Storage B) Report := do
  let (e, _) ← get
  match e.resident.get? s with
  | some w =>
    let (report, w) := w.metrics
    onEngine (setWindows s w)
    return report
  | none =>
    match ← onEngine (cached s.key) with
    | some report => return report
    | none =>
      let report ← onStorage (replay e.window cancelAfter s)
      onEngine (keep s.key report)
      return report

/-- Drops the resident state of a session; says whether there was any. -/
def forget (e : Engine) (s : Session) : Bool × Engine :=
  (e.resident.contains s, { e with resident := e.resident.erase s })

def advance (e : Engine) (duration : Nat) : Engine :=
  { e with cache := e.cache.map fun c => c.advance duration }

end Engine
end HeapTelemetry
