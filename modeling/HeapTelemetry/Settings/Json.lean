import HeapTelemetry.Json.Fields
import HeapTelemetry.Settings

/-! Settings as a JSON document with every setting in it. -/

namespace HeapTelemetry.Settings
open Json

def ofDuration (d : Duration) : Json := ofString d.text

/-- Debugging is no part of the document. -/
def toJson (s : Settings) : Json :=
  record [
    ("server", record [
      ("listen_address", ofString s.server.listenAddress.text), ("port", ofInt s.server.port.toNat),
      ("enable_cors", bool s.server.enableCors), ("max_line_bytes", ofInt s.server.maxLineBytes)]),
    ("storage", record [
      ("backend", ofString s.storage.backend.name), ("data_dir", ofString s.storage.dataDir),
      ("sync_write", bool s.storage.syncWrite)]),
    ("metrics", record [
      ("window", ofInt s.metrics.window),
      ("averaging_windows", array (s.metrics.averagingWindows.map ofDuration)),
      ("subscription_buffer", ofInt s.metrics.subscriptionBuffer),
      ("cold_path_cache", bool s.metrics.coldPathCache),
      ("cache", record [
        ("max_total_size", ofInt s.metrics.cache.maxTotalSize), ("ttl", ofDuration s.metrics.cache.ttl),
        ("gc_frequency", ofDuration s.metrics.cache.gcFrequency),
        ("gc_max_pause", ofDuration s.metrics.cache.gcMaxPause)])]),
    ("logging", record [
      ("level", ofString s.logging.level.name), ("structured", bool s.logging.structured)])]

end HeapTelemetry.Settings
