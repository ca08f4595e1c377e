import StationManager.Lib.Table

/-!
# StationManager.Firmware.Models

The tables of `apps.module_firmware` (and the two columns of
`apps.stations` / `apps.control` its code reads) as one database value.

Rows are addressed by the key that the schema makes unique: a module by its
UID, a convergence row by the pair (module, target release), a control lock
by (station, scope).  Only open assignments are kept: every query of the
firmware code filters on `to_ts IS NULL`, so closing an assignment drops it.
Blank character columns with choices are `Option`s (`""` is `none`), free
text stays a `String`.
-/

namespace StationManager.Firmware

/-- A module's UID, its sole identity. -/
abbrev Uid := String

/-- The source's `QUARANTINE_ATTEMPT_LIMIT`. -/
def quarantineAttemptLimit : Nat := 3

/-- The source's `DRAIN_TRANSIENT_LIMIT`: consecutive transient outcomes after which a row
becomes `failed`. -/
def drainTransientLimit : Nat := 5

/-! ## enumerations -/

/-- Choices of `Module.uid_source`. -/
inductive UidSource
  | stm32Uid
  | synthetic
deriving DecidableEq, Repr

/-- Choices of `Module.lifecycle_status`. -/
inductive Lifecycle
  | ready
  | deployed
  | defect
  | inLab
  | retired
deriving DecidableEq, Repr

/-- The stored choice value. -/
def Lifecycle.value : Lifecycle → String
  | .ready => "ready"
  | .deployed => "deployed"
  | .defect => "defect"
  | .inLab => "in_lab"
  | .retired => "retired"

/-- Choices of `Module.firmware_convergence`, the denormalised rollup. -/
inductive Convergence
  | ok
  | updating
  | quarantined
  | failed
  | notUpdatable
  | unknown
deriving DecidableEq, Repr

/-- Choices of `ModuleFirmwareConvergenceState.state`. -/
inductive State
  | ok
  | updating
  | quarantined
  | failed
  | notUpdatable
deriving DecidableEq, Repr

/-- The rollup value of the same name. -/
def State.rollup : State → Convergence
  | .ok => .ok
  | .updating => .updating
  | .quarantined => .quarantined
  | .failed => .failed
  | .notUpdatable => .notUpdatable

/-- The stored choice value. -/
def State.value : State → String
  | .ok => "ok"
  | .updating => "updating"
  | .quarantined => "quarantined"
  | .failed => "failed"
  | .notUpdatable => "not_updatable"

/-- Choices of `ModuleFirmwareConvergenceState.phase`. -/
inductive Phase
  | downloading
  | flashing
  | verifying
deriving DecidableEq, Repr

def Phase.value : Phase → String
  | .downloading => "downloading"
  | .flashing => "flashing"
  | .verifying => "verifying"

/-- Choices of `ModuleFirmwareConvergenceState.reason_code`. -/
inductive ReasonCode
  | transientLimit
  | bootKeyMismatch
deriving DecidableEq, Repr

/-- Choices of `ModuleFirmwareConvergenceState.last_error_mode`. -/
inductive ErrorMode
  | rejected
  | rolledBack
  | transient
deriving DecidableEq, Repr

def ErrorMode.value : ErrorMode → String
  | .rejected => "rejected"
  | .rolledBack => "rolled_back"
  | .transient => "transient"

/-- Choices of `ModuleFirmwareTarget.scope`. -/
inductive Scope
  | fleet
  | group
  | station
deriving DecidableEq, Repr

/-- The artifact kinds `ARTIFACT_DFU` and `ARTIFACT_SIM`. -/
inductive Artifact
  | dfu
  | sim
deriving DecidableEq, Repr

def Artifact.value : Artifact → String
  | .dfu => "dfu"
  | .sim => "sim"

/-- The `StationAuditLog.EventType` values the firmware code writes. -/
inductive EventType
  | updated
  | firmwareUpdate
  | moduleDiscovered
  | moduleSwapped
  | moduleAssignmentChanged
  | moduleLifecycleChanged
  | moduleNotUpdatable
  | moduleUpdatableAgain
  | moduleFlashInstructed
  | moduleFlashStarted
  | moduleFlashPhase
  | moduleFlashSuccess
  | moduleFlashFailed
  | moduleFlashRolledBack
  | moduleFlashRejected
  | moduleFlashGaveUp
  | moduleFlashRetry
  | moduleFlashConflict
  | moduleQuarantined
  | moduleQuarantineReleased
deriving DecidableEq, Repr

/-! ## rows -/

/-- A `ModuleType` row: the registry key of a flashable type. -/
structure ModuleType where
  key : String
deriving DecidableEq, Repr

/-- A `Module` row, stored under its UID. -/
structure Module where
  uidSource : UidSource := .stm32Uid
  moduleType : Pk
  lifecycleStatus : Lifecycle := .ready
  lastReportedVersion : String := ""
  variant : String := ""
  firmwareConvergence : Convergence := .unknown
  reportedBootKey : String := ""
  firstSeen : Option Time := none
  lastSeen : Option Time := none
deriving DecidableEq, Repr

/-- The `Station` columns the firmware code reads.  `backends` is the
`module_ota.backends` list of the agent's last capability report, `none` when
the report has no well-formed one. -/
structure Station where
  name : String := ""
  rolloutGroup : Option Pk := none
  lastSeen : Option Time := none
  backends : Option (List String) := none
deriving DecidableEq, Repr

/-- An open `ModuleAssignmentHistory` row, stored under its module
(`uniq_open_assignment_per_module`).  The station is nulled when the station
row is deleted. -/
structure Assignment where
  station : Option Pk
  slot : String
deriving DecidableEq, Repr

/-- A `ModuleFirmwareTarget` row. -/
structure Target where
  moduleType : Pk
  version : String
  scope : Scope
  group : Option Pk := none
  station : Option Pk := none
  canaryGroup : Option Pk := none
deriving DecidableEq, Repr

/-- A `ModuleFirmwareRelease` row. -/
structure Release where
  moduleType : Pk
  variant : String
  version : String
  storageKey : String
  sha256 : String
  sizeBytes : Nat
  simStorageKey : String := ""
  simSha256 : String := ""
  simSizeBytes : Option Nat := none
  bootKeyHash : String := ""
  archivedAt : Option Time := none
deriving DecidableEq, Repr

/-- The release table.  `(module_type, variant, version)` is unique over all
rows, archived ones included (`uniq_release_per_type_variant_version`). -/
structure ReleaseTable where
  table : Table Pk Release
  unique : (table.entries.map fun e => (e.2.moduleType, e.2.variant, e.2.version)).Nodup

/-- The key of a convergence row (`uniq_convergence_per_module_release`); it
stands for the row's `convergence_id`. -/
structure RowKey where
  module : Uid
  targetRelease : Pk
deriving DecidableEq, Repr

/-- A `ModuleFirmwareConvergenceState` row, with the model's defaults. -/
structure ConvergenceState where
  state : State := .updating
  attempts : Nat := 0
  transientFailures : Nat := 0
  phase : Option Phase := none
  phaseAt : Option Time := none
  reasonCode : Option ReasonCode := none
  stateBeforeNotUpdatable : Option State := none
  instructedAt : Option Time := none
  lastErrorMode : Option ErrorMode := none
  lastErrorMessage : String := ""
  createdAt : Time
  updatedAt : Time
  lastAttemptAt : Option Time := none
deriving DecidableEq, Repr

/-- A row as `get_or_create` makes it. -/
def freshRow (now : Time) : ConvergenceState := { createdAt := now, updatedAt := now }

/-- A `ControlLock` row, stored under (station, scope). -/
structure ControlLock where
  holder : Option Pk := none
  acquiredAt : Option Time := none
  lastActivity : Option Time := none
  pendingReleaseAt : Option Time := none
deriving DecidableEq, Repr

/-- A `StationAuditLog` entry of a module.  `row` is the convergence row the
entry was written for; the log has no such column, it is kept here to speak
about the trail of one row. -/
structure AuditEntry where
  station : Option Pk
  module : Uid
  eventType : EventType
  message : String
  row : Option RowKey := none
deriving DecidableEq, Repr

/-! ## the database -/

/-- The committed state of the tables. -/
structure Db where
  moduleTypes : Table Pk ModuleType
  modules : Table Uid Module
  stations : Table Pk Station
  assignments : Table Uid Assignment
  targets : List Target
  releases : ReleaseTable
  rows : Table RowKey ConvergenceState
  locks : Table (Pk × String) ControlLock
  auditLog : List AuditEntry

namespace Db

/-- Rewrite one module row. -/
def setModule (db : Db) (uid : Uid) (f : Module → Module) : Db :=
  { db with modules := db.modules.modify uid f }

/-- Rewrite one convergence row. -/
def setRow (db : Db) (k : RowKey) (f : ConvergenceState → ConvergenceState) : Db :=
  { db with rows := db.rows.modify k f }

/-- The row of `get_or_create`: the stored one, or a fresh one with the
model's defaults. -/
def rowOrNew (db : Db) (now : Time) (k : RowKey) : ConvergenceState :=
  (db.rows.get? k).getD (freshRow now)

/-- Store a row under `k`, which may be new. -/
def putRow (db : Db) (k : RowKey) (cs : ConvergenceState) : Db :=
  { db with rows := (db.rows.insert k cs).modify k fun _ => cs }

/-- Append to the audit log. -/
def log (db : Db) (es : List AuditEntry) : Db := { db with auditLog := db.auditLog ++ es }

/-- The source's `_set_convergence_rollup`: the module row is only written when the value
changes. -/
def setConvergenceRollup (db : Db) (uid : Uid) (value : Convergence) : Db :=
  db.setModule uid fun m =>
    if m.firmwareConvergence ≠ value then { m with firmwareConvergence := value } else m

variable (db : Db) (uid : Uid)

@[simp] theorem setModule_modules (f : Module → Module) :
    (db.setModule uid f).modules = db.modules.modify uid f := rfl

@[simp] theorem setRow_rows (k : RowKey) (f : ConvergenceState → ConvergenceState) :
    (db.setRow k f).rows = db.rows.modify k f := rfl

theorem get?_putRow (k j : RowKey) (cs : ConvergenceState) :
    (db.putRow k cs).rows.get? j = if j = k then some cs else db.rows.get? j := by
  simp only [putRow, Table.get?_modify, Table.get?_insert]
  split <;> simp

@[simp] theorem log_rows (es : List AuditEntry) : (db.log es).rows = db.rows := rfl

/-- After `_set_convergence_rollup` the rollup is the value, nothing else of
the module row has changed. -/
theorem get?_setConvergenceRollup (j : Uid) (value : Convergence) :
    (db.setConvergenceRollup uid value).modules.get? j =
      if j = uid then (db.modules.get? j).map fun m => { m with firmwareConvergence := value }
      else db.modules.get? j := by
  simp only [setConvergenceRollup, setModule_modules, Table.get?_modify]
  split
  · congr 1
    funext m
    split
    · rfl
    · next h =>
      have hm : m.firmwareConvergence = value := not_not.mp h
      rw [← hm]
  · rfl

end Db

end StationManager.Firmware
