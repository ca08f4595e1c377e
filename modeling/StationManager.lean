import StationManager.Lib.Table
import StationManager.Lib.Transition
import StationManager.Lib.Text
import StationManager.Lib.Raising
import StationManager.Lib.RowLocks
import StationManager.Lib.Calendar
import StationManager.Lib.Cyclic
import StationManager.Lib.Directory
import StationManager.Lib.Timeline
import StationManager.Firmware.Models
import StationManager.Firmware.BootKey
import StationManager.Firmware.Targets
import StationManager.Firmware.Resolution
import StationManager.Firmware.Reconciler
import StationManager.Firmware.Drain
import StationManager.Firmware.Api
import StationManager.Firmware.Services
import StationManager.Firmware.Ingest
import StationManager.Firmware.System
import StationManager.Firmware.Rows
import StationManager.Firmware.Sticky
import StationManager.Firmware.WellFormed
import StationManager.Firmware.Rollup
import StationManager.Firmware.DrainCheck
import StationManager.Firmware.UpdateStatus
import StationManager.Firmware.Mirror
import StationManager.Firmware.History
import StationManager.Firmware.Tracking
import StationManager.Firmware.AuditTrail
import StationManager.Firmware.Instructed
import StationManager.Firmware.Idempotent
import StationManager.Control.Frames
import StationManager.Control.Lock
import StationManager.Control.IdleGate
import StationManager.Audio.Gate
import StationManager.Audio.Subscriptions
import StationManager.Audio.Demand
import StationManager.Audio.Uplink
import StationManager.Audio.TxGuard
import StationManager.Audio.RfInterlock
import StationManager.Control.Keying
import StationManager.Control.Presence
import StationManager.Control.Capabilities
import StationManager.Control.Inventory
import StationManager.Control.InventoryScan
import StationManager.Control.InventoryMoves
import StationManager.Control.Reapply
import StationManager.Control.ReapplyOrder
import StationManager.Agent.Telemetry
import StationManager.Agent.Descriptor
import StationManager.Agent.Broker
import StationManager.Agent.Guard
import StationManager.Agent.Acceptance
import StationManager.Agent.SlotControl
import StationManager.Agent.DeadMan
import StationManager.Agent.Scanner
import StationManager.Agent.ScannerSteps
import StationManager.Agent.ScannerLock
import StationManager.Agent.ScannerHold
import StationManager.Agent.ScannerPlace
import StationManager.Agent.ScannerOrder
import StationManager.Control.Telemetry
import StationManager.Control.TelemetryDemand
import StationManager.Deployments.Models
import StationManager.Deployments.Rollup
import StationManager.Deployments.Plan
import StationManager.Deployments.Requests
import StationManager.Deployments.Statements
import StationManager.Deployments.Isolation
import StationManager.Deployments.Final
import StationManager.Deployments.Stranded
import StationManager.Deployments.Check
import StationManager.Deployments.OneLive
import StationManager.Deployments.Download
import StationManager.Agent.Download
import StationManager.Agent.ModuleOta
import StationManager.Agent.ModuleOtaCleanup
import StationManager.Agent.Verify
import StationManager.Agent.DfuBackend
import StationManager.Agent.SimBackend
import StationManager.Agent.SimSafety
import StationManager.Agent.Bootloader
import StationManager.Agent.Ota
import StationManager.Agent.Rollback
import StationManager.MetricHistory.Maintenance
import StationManager.MetricHistory.Hours
import StationManager.MetricHistory.Compaction
import StationManager.Monitoring.Models
import StationManager.Monitoring.Offline
import StationManager.Monitoring.Rules
import StationManager.Monitoring.Engine
import StationManager.Monitoring.Timers
import StationManager.Monitoring.CurrentValues
import StationManager.Monitoring.Writes
import StationManager.Monitoring.Thresholds
import StationManager.Monitoring.References
import StationManager.Monitoring.Resets
import StationManager.Monitoring.ResetAsserts
import StationManager.Monitoring.ResetInvariant
import StationManager.Monitoring.Orphans
import StationManager.Accounts.Models
import StationManager.Accounts.StationAssignments
import StationManager.Accounts.SelfService
import StationManager.Accounts.ResetTokens
import StationManager.Provisioning.Job
import StationManager.Rollouts.Sequence
import StationManager.Sso.Revocation
import StationManager.Tunnel.Sessions
