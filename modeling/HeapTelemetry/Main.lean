import HeapTelemetry.CommandLine
import HeapTelemetry.Http
import HeapTelemetry.Storage.SessionFiles
import HeapTelemetry.Storage.SessionSeries
import HeapTelemetry.Yaml

/-! The program: it finds its settings, then takes one ingestion stream from
standard input and prints what its sender would be told. It keeps the data for
as long as it runs. -/

namespace HeapTelemetry.Program

def reply : Http.Body → String
  | .saved (some s) n => s!"{s.key}: {n} measurements"
  | _ => "no session"

/-- What the sender of a stream is told whose body arrives in these chunks. -/
def answer (B : Type) {W : Type} [Backend B W] (s : Settings) (body : List Ingest.Chunk) :
    Except Error String := do
  let dataDir := s.storage.dataDir.splitOn "/"
  let collector ← (Collector.start (B := B) s dataDir 0 Registry.empty Disk.empty).1
  return reply (← (Step.run (Http.save body) collector).1)

def answerWith (s : Settings) (body : List Ingest.Chunk) : Except Error String :=
  match s.storage.backend with
  | .filesystem => answer SessionFiles s body
  | .timeseries => answer Database s body

def usage : UsageError → String
  | .unknownArgument => "unknown argument"
  | .invalidValue => "invalid value"
  | .valueValidation => "value out of range"
  | .argumentConflict => "a flag was given twice"
  | .tooManyValues => "a flag that takes no value was given one"
  | .displayHelp => "flags: " ++ " ".intercalate (Flag.all.map fun f => "--" ++ f.name)

/-- The environment, as far as flags look at it. -/
def environment : IO (List (String × String)) := do
  let found ← (Flag.all.filterMap Flag.environmentName?).mapM fun name => do
    return (← IO.getEnv name).map fun v => (name, v)
  return found.filterMap id

def contentOf (path : String) : IO (Option String) := do
  try return some (← IO.FS.readFile path) catch _ => return none

/-- The settings file that is read when none is named. -/
def standardFile : IO (Option String) := do
  let dir ← match ← IO.getEnv "XDG_CONFIG_HOME" with
    | some dir => pure (some dir)
    | none => pure ((← IO.getEnv "HOME").map (· ++ "/.config"))
  match dir with
  | some dir => contentOf (dir ++ "/heapwatch/config.yaml")
  | none => return none

/-- Everything on standard input, in the pieces in which it arrives. -/
partial def chunks (input : IO.FS.Stream) : IO (List Ingest.Chunk) := do
  let bytes ← input.read 65536
  if bytes.isEmpty then return []
  return .data bytes.toList :: (← chunks input)

def failure (text : String) : IO UInt32 := do
  IO.eprintln text
  return 1

def collect (s : Settings) : IO UInt32 := do
  match answerWith s (← chunks (← IO.getStdin)) with
  | .error e => failure e.message
  | .ok text =>
    IO.println text
    return 0

end HeapTelemetry.Program

open HeapTelemetry in
def main (args : List String) : IO UInt32 := do
  let environment ← Program.environment
  match CommandLine.parse args fun name => environment.lookup name with
  | .error e =>
    IO.eprintln (Program.usage e)
    return 2
  | .ok line =>
    let named ← match line.config with
      | some path => Program.contentOf path
      | none => pure none
    match line.task Yaml.parse? (fun _ => named) (← Program.standardFile) with
    | .error e => Program.failure e.message
    | .ok (.print text) =>
      IO.print text
      return 0
    | .ok (.collect s) => Program.collect s
