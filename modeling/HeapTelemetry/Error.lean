/-! Everything that can go wrong, by cause, and the texts under which it is
reported. Texts that come from outside the collector end where they begin. -/

namespace HeapTelemetry

inductive ErrorKind
  | protocol | storage | database | integrity | computation | codec | config
  | notFound | invalidDescription | io | serialization | cancelled
  deriving DecidableEq, Repr

namespace ErrorKind

/-- How the message of an error of this kind begins. -/
def label : ErrorKind → String
  | protocol => "Protocol error"
  | storage => "Storage error"
  | database => "Database error"
  | integrity => "Data integrity error"
  | computation => "Computation error"
  | codec => "Codec error"
  | config => "Configuration error"
  | notFound => "Not found"
  | invalidDescription => "Invalid description"
  | io => "IO error"
  | serialization => "Serialization error"
  | cancelled => "Operation cancelled"

/-- The coarse class used for logs and counters. -/
def category : ErrorKind → String
  | protocol => "protocol"
  | storage | database | integrity | io => "storage"
  | computation | codec | serialization => "computation"
  | cancelled => "cancellation"
  | config => "config"
  | notFound => "not_found"
  | invalidDescription => "validation"

end ErrorKind

/-- Sessions, series and timestamps appear in their printed form. -/
inductive Error
  | unexpectedCall (method state : String)
  | shutDown
  | databaseClosed
  | newerSchema (version supported : Int)
  | alreadyStopped (session : String)
  | noDataFile (session : String)
  | sealedSeries (labels : String)
  | outOfOrder (time last : Int) (labels : String)
  | oversizedFrame (what : String)
  | missingLabel (name : String)
  | unknownMetric
  | corruptCallStack
  | missingCallStackId
  | duplicateSeries (metric : String)
  | missingSeries (stack : String)
  | unevenSeries (stack : String)
  | mismatchedTimes (stack : String) (time expected : Int)
  | blockWithoutHeader
  | shortBlock
  | unpairedBlock (labelSets series : Nat)
  | corruptBlock
  | repeatedCallStack (time stack : String)
  | missingResults (expected found : Nat)
  | timeOutOfRange (time : String)
  | recordNotText
  | malformedRecord
  | inexactCounter (metric : String) (value : Int)
  | longLine (limit : Nat)
  | invalidSetting (text : String)
  | unparsableSettings
  | unreadableSettings
  | unknownSession (session : String)
  | noData (session : String)
  | emptyName (field : String)
  | longName (field : String)
  | io
  | malformedRequest
  | cancelled
  | reported (kind : ErrorKind) (text : String)
  deriving DecidableEq, Repr

namespace Error

def kind : Error → ErrorKind
  | unexpectedCall .. => .protocol
  | shutDown | databaseClosed | newerSchema .. | alreadyStopped _ | noDataFile _
  | sealedSeries _ | outOfOrder .. | oversizedFrame _ => .storage
  | missingLabel _ | unknownMetric | corruptCallStack | missingCallStackId
  | duplicateSeries _ | missingSeries _ | unevenSeries _ | mismatchedTimes ..
  | blockWithoutHeader | shortBlock | unpairedBlock .. | corruptBlock => .integrity
  | repeatedCallStack .. | missingResults .. => .computation
  | timeOutOfRange _ | recordNotText | malformedRecord | inexactCounter ..
  | longLine _ => .codec
  | invalidSetting _ | unparsableSettings | unreadableSettings => .config
  | unknownSession _ | noData _ => .notFound
  | emptyName _ | longName _ => .invalidDescription
  | io => .io
  | malformedRequest => .serialization
  | cancelled => .cancelled
  | reported k _ => k

/-- What is said after the label of the kind, if anything. -/
def detail : Error → Option String
  | unexpectedCall method state => some s!"unexpected call {method} in state {state}"
  | shutDown => some "storage has been shut down"
  | databaseClosed => some "time-series database is closed"
  | newerSchema v s => some s!"metadata schema version {v} is newer than supported {s}"
  | alreadyStopped session => some s!"session {session} is already stopped"
  | noDataFile session => some s!"cannot create data file for session {session}"
  | sealedSeries labels => some s!"series {labels} is sealed"
  | outOfOrder t last labels =>
    some s!"out of order sample at {t} (last {last}) for series {labels}"
  | oversizedFrame what => some s!"{what} exceeds 4GiB"
  | missingLabel name => some s!"series without {name} label"
  | unknownMetric => some "series with missing or unknown metric_type"
  | corruptCallStack => some "corrupt call stack label"
  | missingCallStackId => some "series without call stack id"
  | duplicateSeries metric => some s!"duplicate {metric} series for one call stack"
  | missingSeries stack => some s!"call stack {stack} is missing counter series"
  | unevenSeries stack => some s!"series of call stack {stack} end at different points"
  | mismatchedTimes stack t expected =>
    some s!"timestamp mismatch in call stack {stack}: {t} vs {expected}"
  | blockWithoutHeader => some "block: missing frame header"
  | shortBlock => some "block: short frame"
  | unpairedBlock n m => some s!"block has {n} label sets for {m} series"
  | corruptBlock => some "block"
  | repeatedCallStack t stack => some s!"measurement at {t} reports call stack {stack} twice"
  | missingResults n m => some s!"expected {n} location results, got {m}"
  | timeOutOfRange t => some s!"timestamp {t} out of range"
  | recordNotText => some "measurement record is not UTF-8"
  | malformedRecord => some "malformed measurement record"
  | inexactCounter metric v => some s!"{metric} counter {v} exceeds the exactly storable range"
  | longLine limit => some s!"request line longer than {limit} bytes"
  | invalidSetting text => some text
  | unparsableSettings => some "Failed to parse YAML config"
  | unreadableSettings => some "Failed to read config file"
  | unknownSession session => some s!"session {session}"
  | noData session => some s!"no data for session {session}"
  | emptyName field => some s!"{field} cannot be empty"
  | longName field => some s!"{field} cannot exceed 255 characters"
  | io | malformedRequest | cancelled => none
  | reported k text => if k = .cancelled then none else some text

def message (e : Error) : String :=
  match e.detail with
  | none => e.kind.label
  | some text => e.kind.label ++ ": " ++ text

def category (e : Error) : String := e.kind.category

/-- The error concerns one record only, so a replay may skip it and carry on. -/
def isRecordLevel (e : Error) : Bool := e.kind == .codec

def isCancellation (e : Error) : Bool := e.kind == .cancelled

end Error

/-- A step over a state that may fail; what it did before failing stays done. -/
abbrev Step (σ α : Type) := ExceptT Error (StateM σ) α

namespace Step
variable {σ τ α : Type}

/-- Runs a step and gives its outcome and the state it leaves. -/
def run (x : Step σ α) (s : σ) : Except Error α × σ := StateT.run (ExceptT.run x) s

/-- The outcome as a value, so that a failure can be looked at. -/
def attempt (x : Step σ α) : Step σ (Except Error α) := fun s => let r := x s; (.ok r.1, r.2)

def ofExcept : Except Error α → Step σ α
  | .ok a => pure a
  | .error e => throw e

/-- Runs a step on a part of the state. -/
def on (part : σ → τ) (put : τ → σ → σ) (x : Step τ α) : Step σ α :=
  fun s => let r := x (part s); (r.1, put r.2 s)

/-- Runs a step with a part of its own beside the state; gives how it went and
what became of that part. -/
def beside (part : τ) (x : Step (τ × σ) α) : Step σ (Except Error α × τ) :=
  fun s => let r := x (part, s); (.ok (r.1, r.2.1), r.2.2)

end Step
end HeapTelemetry
