import HeapTelemetry.Settings
import HeapTelemetry.Yaml.Value

/-! Settings files. Every setting may be left out, and others are passed over. -/

namespace HeapTelemetry.Settings
open Yaml

def duration? (v : Yaml) : Option Duration := v.asText?.bind Duration.parse?

def word? : Yaml → Option Nat := asNat? UInt64.size

def server? (d : ServerSettings) (v : Yaml) : Option ServerSettings := do
  let es ← v.asMapping?
  let port ← field? es "port" (asNat? UInt16.size) d.port.toNat
  return {
    listenAddress := ← field? es "listen_address" (fun v => v.asText?.bind Address.parse?) d.listenAddress
    port := UInt16.ofNat port
    enableCors := ← field? es "enable_cors" asBool? d.enableCors
    maxLineBytes := ← field? es "max_line_bytes" word? d.maxLineBytes }

def storage? (d : StorageSettings) (v : Yaml) : Option StorageSettings := do
  let es ← v.asMapping?
  return {
    backend := ← field? es "backend" (fun v => v.asText?.bind BackendKind.ofName?) d.backend
    dataDir := ← field? es "data_dir" asText? d.dataDir
    syncWrite := ← field? es "sync_write" asBool? d.syncWrite }

def cache? (d : CacheSettings) (v : Yaml) : Option CacheSettings := do
  let es ← v.asMapping?
  return {
    maxTotalSize := ← field? es "max_total_size" word? d.maxTotalSize
    ttl := ← field? es "ttl" duration? d.ttl
    gcFrequency := ← field? es "gc_frequency" duration? d.gcFrequency
    gcMaxPause := ← field? es "gc_max_pause" duration? d.gcMaxPause }

def metrics? (d : MetricsSettings) (v : Yaml) : Option MetricsSettings := do
  let es ← v.asMapping?
  return {
    window := ← field? es "window" word? d.window
    averagingWindows := ← field? es "averaging_windows" (asList? duration?) d.averagingWindows
    subscriptionBuffer := ← field? es "subscription_buffer" word? d.subscriptionBuffer
    coldPathCache := ← field? es "cold_path_cache" asBool? d.coldPathCache
    cache := ← field? es "cache" (cache? d.cache) d.cache }

def logging? (d : LoggingSettings) (v : Yaml) : Option LoggingSettings := do
  let es ← v.asMapping?
  return {
    level := ← field? es "level" (fun v => v.asText?.bind LogLevel.ofName?) d.level
    structured := ← field? es "structured" asBool? d.structured }

/-- Debugging is not for a file to switch on. -/
def ofYaml? (v : Yaml) : Option Settings := do
  let es ← v.asMapping?
  let d := Settings.default
  return {
    server := ← field? es "server" (server? d.server) d.server
    storage := ← field? es "storage" (storage? d.storage) d.storage
    metrics := ← field? es "metrics" (metrics? d.metrics) d.metrics
    logging := ← field? es "logging" (logging? d.logging) d.logging
    debug := d.debug }

/-- The settings that the text of a file gives, read as a document. -/
def ofText (document? : String → Option Yaml) (text : String) : Except Error Settings :=
  match (document? text).bind ofYaml? with
  | some s => .ok s
  | none => .error .unparsableSettings

end HeapTelemetry.Settings
