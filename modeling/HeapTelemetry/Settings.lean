import HeapTelemetry.Duration
import HeapTelemetry.Error
import HeapTelemetry.ResultCache
import HeapTelemetry.Settings.Address

/-! The settings of a collector, their defaults and what makes them valid. -/

namespace HeapTelemetry

inductive BackendKind
  | filesystem
  | timeseries
  deriving DecidableEq, Repr

inductive LogLevel
  | trace | debug | info | warn | error
  deriving DecidableEq, Repr

structure ServerSettings where
  listenAddress : Address
  port : UInt16
  enableCors : Bool
  maxLineBytes : Nat

structure StorageSettings where
  backend : BackendKind
  dataDir : String
  syncWrite : Bool

structure CacheSettings where
  maxTotalSize : Nat
  ttl : Duration
  gcFrequency : Duration
  gcMaxPause : Duration

/-- The averaging windows are for display; rates do not depend on them. -/
structure MetricsSettings where
  window : Nat
  averagingWindows : List Duration
  subscriptionBuffer : Nat
  coldPathCache : Bool
  cache : CacheSettings

structure LoggingSettings where
  level : LogLevel
  structured : Bool

structure Settings where
  server : ServerSettings
  storage : StorageSettings
  metrics : MetricsSettings
  logging : LoggingSettings
  debug : Bool

def BackendKind.name : BackendKind → String
  | filesystem => "filesystem"
  | timeseries => "timeseries"

def BackendKind.ofName? : String → Option BackendKind
  | "filesystem" => some filesystem
  | "timeseries" => some timeseries
  | _ => none

def LogLevel.name : LogLevel → String
  | trace => "trace"
  | debug => "debug"
  | info => "info"
  | warn => "warn"
  | error => "error"

def LogLevel.ofName? : String → Option LogLevel
  | "trace" => some trace
  | "debug" => some debug
  | "info" => some info
  | "warn" => some warn
  | "error" => some error
  | _ => none

namespace Settings

def default : Settings where
  server := ⟨Address.unspecified, 46219, true, 4 * 1024 * 1024⟩
  storage := ⟨.filesystem, "./heapwatch_data", false⟩
  metrics :=
    { window := 300, averagingWindows := [.ofSeconds 60, .ofSeconds 300, .ofSeconds 900]
      subscriptionBuffer := 16, coldPathCache := false
      cache := ⟨64 * 1024 * 1024, .ofSeconds 60, .ofSeconds 30, .ofMillis 10⟩ }
  logging := ⟨.info, false⟩
  debug := false

/-- The first thing that is wrong. -/
def problem? (s : Settings) : Option String :=
  if s.server.port = 0 then some "port must be greater than 0"
  else if s.server.maxLineBytes = 0 then some "max_line_bytes must be greater than 0"
  else if s.storage.dataDir.isEmpty then some "data_dir cannot be empty"
  else if s.metrics.window < 2 then
    some s!"metrics window must hold at least 2 points, got {s.metrics.window}"
  else if s.metrics.averagingWindows.any (·.nanos = 0) then
    some "averaging windows must be positive, got 0ns"
  else if s.metrics.subscriptionBuffer = 0 then some "subscription_buffer must be greater than 0"
  else if s.metrics.cache.maxTotalSize = 0 then some "cache max_total_size must be greater than 0"
  else if s.metrics.cache.ttl.nanos = 0 ∨ s.metrics.cache.gcFrequency.nanos = 0 then
    some "cache ttl and gc_frequency must be positive"
  else none

def validate (s : Settings) : Except Error Unit :=
  match s.problem? with
  | some text => .error (.invalidSetting text)
  | none => .ok ()

/-- A file in a directory, without doubling the separator. -/
def join (dir file : String) : String :=
  if dir.isEmpty || dir.endsWith "/" then dir ++ file else dir ++ "/" ++ file

/-- Where the registry is kept. -/
def metadataPath (s : Settings) : String := join s.storage.dataDir "metadata.db"

def cacheLimits (s : Settings) : CacheLimits :=
  let c := s.metrics.cache
  ⟨c.maxTotalSize, c.ttl.nanos, c.gcFrequency.nanos, c.gcMaxPause.nanos⟩

def withPort (port : UInt16) (s : Settings) : Settings := { s with server.port := port }
def withBackend (backend : BackendKind) (s : Settings) : Settings := { s with storage.backend := backend }
def withDataDir (dir : String) (s : Settings) : Settings := { s with storage.dataDir := dir }
def withSyncWrite (sync : Bool) (s : Settings) : Settings := { s with storage.syncWrite := sync }
def withWindow (points : Nat) (s : Settings) : Settings := { s with metrics.window := points }
def withColdPathCache (on : Bool) (s : Settings) : Settings := { s with metrics.coldPathCache := on }
def withDebug (on : Bool) (s : Settings) : Settings := { s with debug := on }

end Settings
end HeapTelemetry
