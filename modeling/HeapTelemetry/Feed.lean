import HeapTelemetry.Table

/-! Push delivery to subscribers. Every subscriber has a bounded queue; an
update that finds the queue full, or the subscriber cancelled, is dropped for
that subscriber alone. -/

namespace HeapTelemetry

/-- The queue holds the updates not yet taken, oldest first. -/
structure Subscriber (α : Type) where
  id : Nat
  queue : List α
  cancelled : Bool

/-- Names a subscription: the session it belongs to and its number. -/
structure Subscription where
  session : String
  id : Nat
  deriving DecidableEq, Repr

/-- The subscribers of each session that has any. -/
structure Feed (α : Type) where
  depth : Nat
  lastId : Nat
  table : Table String (List (Subscriber α))

/-- What a subscriber finds: an update, nothing yet, or the end. -/
inductive Received (α : Type)
  | update (value : α)
  | pending
  | ended
  deriving Repr

namespace Feed
variable {α : Type}

/-- A feed whose queues hold at least one update. -/
def empty (depth : Nat) : Feed α := ⟨max depth 1, 0, []⟩

def subscribers (f : Feed α) (session : String) : List (Subscriber α) :=
  (f.table.get? session).getD []

/-- Numbers are given from one and never twice. -/
def subscribe (f : Feed α) (session : String) : Subscription × Feed α :=
  let id := f.lastId + 1
  (⟨session, id⟩,
    { f with lastId := id, table := f.table.set session (f.subscribers session ++ [⟨id, [], false⟩]) })

def accepts (f : Feed α) (s : Subscriber α) : Bool := !s.cancelled && s.queue.length < f.depth

/-- Offers an update to every subscriber of a session; gives the number of
those that took it. -/
def broadcast (f : Feed α) (session : String) (update : α) : Nat × Feed α :=
  match f.table.get? session with
  | none => (0, f)
  | some subs =>
    let offered := subs.map fun s =>
      if f.accepts s then { s with queue := s.queue ++ [update] } else s
    ((subs.filter f.accepts).length, { f with table := f.table.set session offered })

def find? (f : Feed α) (s : Subscription) : Option (Subscriber α) :=
  (f.subscribers s.session).find? (·.id = s.id)

def change (f : Feed α) (s : Subscription) (g : Subscriber α → Subscriber α) : Feed α :=
  match f.table.get? s.session with
  | none => f
  | some subs =>
    { f with table := f.table.set s.session (subs.map fun x => if x.id = s.id then g x else x) }

/-- Takes the oldest update, whether or not the subscriber was cancelled. -/
def poll (f : Feed α) (s : Subscription) : Option α × Feed α :=
  match (f.find? s).map Subscriber.queue with
  | some (x :: rest) => (some x, f.change s fun sub => { sub with queue := rest })
  | _ => (none, f)

/-- Waits for the oldest update; a cancelled subscriber is told of the end even
if updates are left. -/
def receive (f : Feed α) (s : Subscription) : Received α × Feed α :=
  match f.find? s with
  | none => (.ended, f)
  | some sub =>
    if sub.cancelled then (.ended, f)
    else match f.poll s with
      | (some x, f) => (.update x, f)
      | (none, f) => (.pending, f)

def cancel (f : Feed α) (s : Subscription) : Feed α :=
  f.change s fun sub => { sub with cancelled := true }

def cancelAll (f : Feed α) : Feed α :=
  { f with table := f.table.map fun (key, subs) =>
      (key, subs.map fun sub => { sub with cancelled := true }) }

/-- Ends a subscription; a session without any left leaves the table. -/
def remove (f : Feed α) (s : Subscription) : Feed α :=
  match f.table.get? s.session with
  | none => f
  | some subs =>
    let rest := subs.filter (·.id ≠ s.id)
    { f with table := if rest.isEmpty then f.table.erase s.session else f.table.set s.session rest }

def hasSubscribers (f : Feed α) (session : String) : Bool := f.table.contains session

def subscriberCount (f : Feed α) (session : String) : Nat := (f.subscribers session).length

def sessionCount (f : Feed α) : Nat := f.table.length

end Feed
end HeapTelemetry
