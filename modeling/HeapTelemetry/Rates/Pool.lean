import HeapTelemetry.Report

/-! The pool that computes the rates of many windows at once. A feeder sends the windows as
jobs, workers turn each into a result, and the caller collects the results. Two queues of
bounded depth join them. A queue closes when nobody is left who may send to it, and a sender
gives up when nobody is left who may receive. -/

namespace HeapTelemetry
namespace Pool

/-- The calling thread has its own end of either queue until it lets go of them. -/
inductive Caller
  | starting (left : Nat)
  | releasing
  | feeding
  | collecting
  | joining
  | returned
  deriving DecidableEq, Repr

inductive Feeder
  | absent
  | feeding
  | stopped
  deriving DecidableEq, Repr

/-- A worker that leaves has no end of the queue of jobs any more. -/
inductive Worker (α β : Type)
  | waiting
  | holding (job : α)
  | sending (result : β)
  | leaving
  | stopped
  deriving DecidableEq, Repr

inductive Party
  | caller
  | feeder
  | worker (position : Nat)
  deriving DecidableEq, Repr

def Caller.holdsJobs : Caller → Bool
  | starting _ => true
  | _ => false

def Caller.holdsResults : Caller → Bool
  | starting _ | releasing => true
  | _ => false

namespace Worker
variable {α β : Type}

def holdsJobs : Worker α β → Bool
  | leaving | stopped => false
  | _ => true

def holdsResults : Worker α β → Bool
  | stopped => false
  | _ => true

end Worker
end Pool

open Pool in
/-- Both queues have room for `depth` entries, one at least. -/
structure Pool (α β : Type) where
  depth : Nat
  caller : Caller
  feeder : Feeder
  workers : List (Worker α β)
  unsent : List α
  jobs : List α
  results : List β
  collected : List β
  deriving DecidableEq, Repr

namespace Pool
variable {α β : Type}

/-- As many workers as the queues are deep. -/
def start (workers : Nat) (jobs : List α) : Pool α β :=
  ⟨workers, .starting workers, .absent, [], jobs, [], [], []⟩

/-- Until the feeder has it, the caller has the end at which jobs are sent. -/
def jobsOpen (p : Pool α β) : Bool := p.feeder ≠ .stopped

def jobsWanted (p : Pool α β) : Bool := p.caller.holdsJobs || p.workers.any Worker.holdsJobs

def resultsOpen (p : Pool α β) : Bool := p.caller.holdsResults || p.workers.any Worker.holdsResults

def resultsWanted (p : Pool α β) : Bool := p.caller ≠ .returned

def threadsEnded (p : Pool α β) : Bool :=
  p.feeder = .stopped && p.workers.all fun w => !w.holdsResults

def setWorker (i : Nat) (w : Worker α β) (p : Pool α β) : Pool α β :=
  { p with workers := p.workers.set i w }

/-- The caller starts the workers, lets go of its ends of both queues and starts the feeder.
Then it collects until the queue of results closes, and waits for the threads to end. -/
def callerStep (p : Pool α β) : Option (Pool α β) :=
  match p.caller with
  | .starting (left + 1) =>
    some { p with caller := .starting left, workers := p.workers ++ [.waiting] }
  | .starting 0 => some { p with caller := .releasing }
  | .releasing => some { p with caller := .feeding }
  | .feeding => some { p with caller := .collecting, feeder := .feeding }
  | .collecting =>
    match p.results with
    | r :: rest => some { p with results := rest, collected := p.collected ++ [r] }
    | [] => if p.resultsOpen then none else some { p with caller := .joining }
  | .joining => if p.threadsEnded then some { p with caller := .returned } else none
  | .returned => none

def feederStep (p : Pool α β) : Option (Pool α β) :=
  match p.feeder, p.unsent with
  | .feeding, [] => some { p with feeder := .stopped }
  | .feeding, x :: rest =>
    if !p.jobsWanted then some { p with feeder := .stopped }
    else if p.jobs.length < p.depth then some { p with unsent := rest, jobs := p.jobs ++ [x] }
    else none
  | _, _ => none

def workerStep (work : α → β) (p : Pool α β) (i : Nat) : Option (Pool α β) :=
  match p.workers[i]? with
  | some .waiting =>
    match p.jobs with
    | x :: rest => some ({ p with jobs := rest }.setWorker i (.holding x))
    | [] => if p.jobsOpen then none else some (p.setWorker i .leaving)
  | some (.holding x) => some (p.setWorker i (.sending (work x)))
  | some (.sending r) =>
    if !p.resultsWanted then some (p.setWorker i .leaving)
    else if p.results.length < p.depth then
      some ({ p with results := p.results ++ [r] }.setWorker i .waiting)
    else none
  | some .leaving => some (p.setWorker i .stopped)
  | some .stopped | none => none

/-- What one of the threads does next; nothing while it has to wait. -/
def step (work : α → β) (p : Pool α β) : Party → Option (Pool α β)
  | .caller => p.callerStep
  | .feeder => p.feederStep
  | .worker i => p.workerStep work i

/-- Runs the threads in the order in which they get to go on. -/
def run (work : α → β) (schedule : List Party) (p : Pool α β) : Option (Pool α β) :=
  schedule.foldlM (step work) p

/-- What the caller makes of the collected results. -/
def outcome (total : Nat) (p : Pool α β) : Except Error (List β) :=
  if p.collected.length = total then .ok p.collected
  else .error (.missingResults total p.collected.length)

end Pool

/-- What the rates of some windows can be computed to: on a pool with a worker for every core,
but no more than windows. Without any windows there is no pool. -/
inductive Window.Computed (cores : Nat) : List Window → Except Error Report → Prop
  | unpooled : Computed cores [] (.ok [])
  | pooled {windows : List Window} {schedule : List Pool.Party} {p : Pool Window SiteRates}
      (nonempty : windows ≠ [])
      (ran : (Pool.start (min cores windows.length) windows).run Window.rates schedule = some p)
      (returned : p.caller = .returned) : Computed cores windows (p.outcome windows.length)

end HeapTelemetry
