import HeapTelemetry.Error

/-! Shutdown of a storage backend: no new users are let in, and it is over once
every user has left. -/

namespace HeapTelemetry

structure Lifecycle where
  inFlight : Nat
  shutDown : Bool
  deriving DecidableEq, Repr

namespace Lifecycle

def initial : Lifecycle := ⟨0, false⟩

/-- Counts a user. It is counted before the check, so that a shutdown at the
same time sees it or is seen by it. -/
def enter (l : Lifecycle) : Lifecycle := { l with inFlight := l.inFlight + 1 }

def leave (l : Lifecycle) : Lifecycle := { l with inFlight := l.inFlight - 1 }

def beginShutdown (l : Lifecycle) : Lifecycle := { l with shutDown := true }

/-- A shutdown that has begun is over when no user is left. -/
def isIdle (l : Lifecycle) : Bool := l.inFlight == 0

/-- Lets a user in, unless shutdown has begun. -/
def acquire : Step Lifecycle Unit := do
  modify enter
  if (← get).shutDown then
    modify leave
    throw .shutDown

end Lifecycle
end HeapTelemetry
