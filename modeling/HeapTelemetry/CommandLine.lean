import HeapTelemetry.Collector
import HeapTelemetry.Settings.File
import HeapTelemetry.Text.Numeral

/-! The command line. What a flag says goes before the environment, the
environment before the settings file, and the file before the defaults. -/

namespace HeapTelemetry

inductive Flag
  | port | dataDir | backend | syncWrite | window | config | debug | checkConfig | showVersion | help
  deriving DecidableEq, Repr

namespace Flag

def all : List Flag :=
  [port, dataDir, backend, syncWrite, window, config, debug, checkConfig, showVersion, help]

def name : Flag → String
  | port => "port"
  | dataDir => "data-dir"
  | backend => "backend"
  | syncWrite => "sync-write"
  | window => "window"
  | config => "config"
  | debug => "debug"
  | checkConfig => "check-config"
  | showVersion => "show-version"
  | help => "help"

def letter? : Flag → Option Char
  | config => some 'c'
  | debug => some 'd'
  | showVersion => some 'V'
  | help => some 'h'
  | _ => none

def takesValue : Flag → Bool
  | port | dataDir | backend | window | config => true
  | _ => false

/-- The environment variable that stands in for the flag. -/
def environmentName? : Flag → Option String
  | port => some "HEAPWATCH_PORT"
  | dataDir => some "HEAPWATCH_DATA_DIR"
  | backend => some "HEAPWATCH_BACKEND"
  | syncWrite => some "HEAPWATCH_SYNC_WRITE"
  | window => some "HEAPWATCH_WINDOW"
  | config => some "HEAPWATCH_CONFIG"
  | debug => some "HEAPWATCH_DEBUG"
  | _ => none

end Flag

inductive UsageError
  | unknownArgument
  | invalidValue
  | valueValidation
  | argumentConflict
  | tooManyValues
  | displayHelp
  deriving DecidableEq, Repr

/-- What the flags and the environment ask for. -/
structure CommandLine where
  port : Option UInt16
  dataDir : Option String
  backend : Option BackendKind
  syncWrite : Bool
  window : Option Nat
  config : Option String
  debug : Bool
  checkConfig : Bool
  showVersion : Bool

namespace CommandLine

def empty : CommandLine := ⟨none, none, none, false, none, none, false, false, false⟩

def bool? : String → Except UsageError Bool
  | "true" => .ok true
  | "false" => .ok false
  | _ => .error .invalidValue

def path? (v : String) : Except UsageError String :=
  if v.isEmpty then .error .invalidValue else .ok v

def port? (v : String) : Except UsageError UInt16 :=
  match Text.signed64? v with
  | some n => if 0 ≤ n ∧ n < 65536 then .ok (UInt16.ofNat n.toNat) else .error .valueValidation
  | none => .error .valueValidation

/-- Reads the value of a flag. -/
def assign (c : CommandLine) (v : String) : Flag → Except UsageError CommandLine
  | .port => do return { c with port := ← port? v }
  | .dataDir => do return { c with dataDir := ← path? v }
  | .backend =>
    match BackendKind.ofName? v with
    | some b => .ok { c with backend := b }
    | none => .error .invalidValue
  | .syncWrite => do return { c with syncWrite := ← bool? v }
  | .window =>
    match Text.unsigned64? v with
    | some n => .ok { c with window := n }
    | none => .error .valueValidation
  | .config => do return { c with config := ← path? v }
  | .debug => do return { c with debug := ← bool? v }
  | .checkConfig => do return { c with checkConfig := ← bool? v }
  | .showVersion => do return { c with showVersion := ← bool? v }
  | .help => .error .displayHelp

/-- `pending` is a flag that waits for its value, or has a value that is not
read before the next flag comes. -/
structure Scan where
  given : List Flag
  pending : Option (Flag × Option String)
  /-- After `--` nothing is a flag. -/
  ended : Bool
  line : CommandLine

namespace Scan

/-- Takes a flag with its value. A flag may be given once. -/
def accept (s : Scan) (f : Flag) (v : String) : Except UsageError Scan :=
  if f ∈ s.given then .error .argumentConflict
  else do return { s with given := f :: s.given, line := ← s.line.assign v f }

def settle (s : Scan) : Except UsageError Scan :=
  match s.pending with
  | none => .ok s
  | some (_, none) => .error .invalidValue
  | some (f, some v) => accept { s with pending := none } f v

def await (s : Scan) (f : Flag) : Except UsageError Scan := do
  return { (← s.settle) with pending := some (f, none) }

/-- A flag by its name, with the value after an equals sign if there is one. -/
def long (s : Scan) (name : String) (v : Option String) : Except UsageError Scan :=
  match Flag.all.find? (·.name = name), v with
  | none, _ => .error .unknownArgument
  | some f, none => if f.takesValue then s.await f else do (← s.settle).accept f "true"
  | some f, some v => if f.takesValue then do (← s.settle).accept f v else .error .tooManyValues

/-- Flags by their letters; what follows a letter that takes a value is the
value. -/
def short (s : Scan) : List Char → Except UsageError Scan
  | [] => .ok s
  | c :: rest =>
    match Flag.all.find? (·.letter? = some c) with
    | none => .error .unknownArgument
    | some f =>
      if f.takesValue then
        match rest with
        | [] => s.await f
        | '=' :: v => do (← s.settle).accept f (String.ofList v)
        | v => do (← s.settle).accept f (String.ofList v)
      else do short (← (← s.settle).accept f "true") rest

def looksLikeFlag (arg : String) : Bool :=
  match arg.toList with
  | ['-'] => false
  | '-' :: _ => true
  | _ => false

def flag (s : Scan) (arg : String) : Except UsageError Scan :=
  match arg.toList with
  | '-' :: '-' :: cs =>
    let (name, rest) := cs.span (· ≠ '=')
    s.long (String.ofList name) (match rest with
      | [] => none
      | _ :: v => some (String.ofList v))
  | '-' :: c :: cs => s.short (c :: cs)
  | _ => .error .unknownArgument

def step (s : Scan) (arg : String) : Except UsageError Scan :=
  if s.ended then .error .unknownArgument
  else if arg = "--" then .ok { s with ended := true }
  else match s.pending with
    | some (f, none) => if looksLikeFlag arg then s.flag arg else .ok { s with pending := some (f, some arg) }
    | _ => s.flag arg

/-- Takes the value of a flag that was not given from the environment. -/
def complete (environment : String → Option String) (s : Scan) (f : Flag) : Except UsageError Scan :=
  if f ∈ s.given then .ok s
  else match f.environmentName?.bind environment with
    | none => .ok s
    | some v => do return { s with line := ← s.line.assign v f }

end Scan

/-- Reads the arguments, then the environment. -/
def parse (args : List String) (environment : String → Option String) : Except UsageError CommandLine := do
  let s ← args.foldlM Scan.step ⟨[], none, false, empty⟩
  let s ← s.settle
  return (← Flag.all.foldlM (Scan.complete environment) s).line

/-- The text of the settings file, if there is one: the file that is named, which
must be readable, or else the standard one. -/
def fileText (c : CommandLine) (read : String → Option String) (standard : Option String) :
    Except Error (Option String) :=
  match c.config with
  | none => .ok standard
  | some path =>
    match read path with
    | some text => .ok (some text)
    | none => .error .unreadableSettings

/-- Puts what the command line asks for in place of other settings. Writing in
sync can only be switched on. -/
def override (c : CommandLine) (s : Settings) : Settings :=
  let s := match c.port with
    | some port => s.withPort port
    | none => s
  let s := match c.dataDir with
    | some dir => s.withDataDir dir
    | none => s
  let s := match c.backend with
    | some backend => s.withBackend backend
    | none => s
  let s := match c.window with
    | some points => s.withWindow points
    | none => s
  let s := if c.syncWrite then s.withSyncWrite true else s
  s.withDebug c.debug

/-- The settings to run with. -/
def settings (c : CommandLine) (document? : String → Option Yaml) (read : String → Option String)
    (standard : Option String) : Except Error Settings := do
  let s ← match ← c.fileText read standard with
    | some text => Settings.ofText document? text
    | none => .ok Settings.default
  let s := c.override s
  s.validate
  return s

/-- What the program is to do. -/
inductive Task
  | print (text : String)
  | collect (s : Settings)

def about : String := s!"heapwatch {Collector.version}\nMemory profiling telemetry collector\n"

def backendTitle : BackendKind → String
  | .filesystem => "Filesystem"
  | .timeseries => "Timeseries"

def summary (s : Settings) : String :=
  let address := s.server.listenAddress.text ++ ":" ++ toString s.server.port.toNat
  "Configuration is valid!\n  Listen: " ++ address
    ++ "\n  Backend: " ++ backendTitle s.storage.backend
    ++ "\n  Data dir: " ++ s.storage.dataDir
    ++ "\n  Window: " ++ toString s.metrics.window ++ " points\n"

def task (c : CommandLine) (document? : String → Option Yaml) (read : String → Option String)
    (standard : Option String) : Except Error Task :=
  if c.showVersion then .ok (.print about)
  else do
    let s ← c.settings document? read standard
    return if c.checkConfig then .print (summary s) else .collect s

end CommandLine
end HeapTelemetry
