import HeapTelemetry.Http
import HeapTelemetry.Main
import HeapTelemetry.Text.Legible
import HeapTelemetry.Proofs.Steps
import HeapTelemetry.Proofs.DiskLaws
import HeapTelemetry.Proofs.Series.HeadIndex
import HeapTelemetry.Proofs.Series.PackedForm
import HeapTelemetry.Proofs.Series.BlockFiles
import HeapTelemetry.Proofs.Series.Refinement
import HeapTelemetry.Proofs.Json.Records
import HeapTelemetry.Proofs.Json.Requests
import HeapTelemetry.Settings.Json
import HeapTelemetry.Proofs.Counters
import HeapTelemetry.Proofs.Storage.SiteLabels
import HeapTelemetry.Proofs.Storage.Grouping
import HeapTelemetry.Proofs.Storage.Merging
import HeapTelemetry.Proofs.Storage.Reassembly
import HeapTelemetry.Proofs.Storage.Saves
import HeapTelemetry.Proofs.Storage.Admission
import HeapTelemetry.Proofs.Storage.Traffic
import HeapTelemetry.Proofs.Storage.Collisions
import HeapTelemetry.Proofs.Storage.Arrival
import HeapTelemetry.Proofs.Windows
import HeapTelemetry.Proofs.Replay
import HeapTelemetry.Proofs.Residents
import HeapTelemetry.Proofs.Service
import HeapTelemetry.Proofs.LiveAndCold
import HeapTelemetry.Proofs.Journal
import HeapTelemetry.Proofs.Accounting
import HeapTelemetry.Proofs.FileReplay
import HeapTelemetry.Proofs.CachedAnswers
import HeapTelemetry.Proofs.Storage.SessionNames
import HeapTelemetry.Proofs.Storage.Tenants
import HeapTelemetry.Proofs.Delivery
import HeapTelemetry.Proofs.Storage.Isolation
import HeapTelemetry.Proofs.Series.Crashes
import HeapTelemetry.Proofs.Backfill
import HeapTelemetry.Proofs.Storage.DamagedFiles
import HeapTelemetry.Proofs.ByteOrder
import HeapTelemetry.Proofs.RegistryTables
import HeapTelemetry.Proofs.Storage.OpenSavers
import HeapTelemetry.Proofs.Series.TornLogs
import HeapTelemetry.Proofs.Series.CutBlocks
import HeapTelemetry.Proofs.Ingestion
import HeapTelemetry.Proofs.Storage.Trails
import HeapTelemetry.Proofs.Storage.Acceptance
import HeapTelemetry.Proofs.ServedReports
import HeapTelemetry.Proofs.Series.FailingLogs
import HeapTelemetry.Proofs.LeastRecentlyUsed
import HeapTelemetry.Proofs.Storage.TornRecords
import HeapTelemetry.Proofs.Storage.LocationRows
import HeapTelemetry.Proofs.CallSites
import HeapTelemetry.Proofs.ColdReplays
import HeapTelemetry.Proofs.LiveRuns
import HeapTelemetry.Proofs.LivePushes
import HeapTelemetry.Proofs.Series.HeadRuns
import HeapTelemetry.Proofs.LeastSquares
import HeapTelemetry.Proofs.RatePool
import HeapTelemetry.Proofs.Precedence
