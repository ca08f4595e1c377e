import StationManager.Firmware.Ingest
import StationManager.Lib.Transition

/-!
# StationManager.Firmware.System

The module-firmware subsystem as a transition system.  One operation is one
request or service call, run to completion; its arguments carry everything the
outside chooses (the clock, the reporting station, the reported identity, the
operator's edits).  Edits of targets, releases, stations, assignments, locks
and the type registry replace the table, so they cover every such change; a
release that a row points to cannot be dropped (`on_delete=PROTECT`).
-/

namespace StationManager.Firmware

/-- The operations of the subsystem. -/
inductive Op
  | ingestModule (now : Time) (station : Pk) (slot : String) (moduleId : Option String)
      (identity : Identity) (cameOnline : Bool)
  | reconcileStation (station : Pk) (trackedSlots : List String) (reported : List (String × Uid))
  | reconcileModule (now : Time) (uid : Uid)
  | check (now : Time) (station : Option Pk)
  | statusUpdate (now : Time) (station : Option Pk) (k : RowKey) (status : StatusReport)
      (errorMessage : String)
  | commit (now : Time) (station : Option Pk) (k : RowKey) (version : String)
  | releaseQuarantine (now : Time) (uid : Uid) (auditSuffix : String)
  | retryFailed (now : Time) (uid : Uid) (auditSuffix : String)
  -- a direct call of the helper, not through one of the views
  | recordError (now : Time) (k : RowKey) (mode : ErrorMode) (message : String)
      (station : Option Pk)
  | setTargets (targets : List Target)
  | setReleases (releases : ReleaseTable)
  | setStations (stations : Table Pk Station)
  | setAssignments (assignments : Table Uid Assignment)
  | setLocks (locks : Table (Pk × String) ControlLock)
  | setModuleTypes (moduleTypes : Table Pk ModuleType)
  | setLifecycle (uid : Uid) (status : Lifecycle)

namespace Db

/-- Every convergence row keeps its release. -/
def keepsReleases (db : Db) (releases : ReleaseTable) : Bool :=
  db.rows.entries.all fun e => (releases.table.get? e.1.targetRelease).isSome

/-- One operation.  `none`: the edit is refused. -/
def step (db : Db) : Op → Option Db
  | .ingestModule now station slot moduleId identity cameOnline =>
    some (db.ingestModule now station slot moduleId identity cameOnline).1
  | .reconcileStation station trackedSlots reported =>
    some (db.reconcileStation station trackedSlots reported)
  | .reconcileModule now uid => some (db.reconcileModule now uid).1
  | .check now station => some (db.check now station).1
  | .statusUpdate now station k status errorMessage =>
    some (db.statusUpdate now station k status errorMessage).1
  | .commit now station k version => some (db.commit now station k version).1
  | .releaseQuarantine now uid auditSuffix => some (db.releaseQuarantine now uid auditSuffix).1
  | .retryFailed now uid auditSuffix => some (db.retryFailed now uid auditSuffix).1
  | .recordError now k mode message station => some (db.recordError now k mode message station)
  | .setTargets targets => some { db with targets := targets }
  | .setReleases releases =>
    if db.keepsReleases releases then some { db with releases := releases } else none
  | .setStations stations => some { db with stations := stations }
  | .setAssignments assignments => some { db with assignments := assignments }
  | .setLocks locks => some { db with locks := locks }
  | .setModuleTypes moduleTypes => some { db with moduleTypes := moduleTypes }
  | .setLifecycle uid status =>
    some (db.setModule uid fun m => { m with lifecycleStatus := status })

end Db

/-- Operations that go through a view, a service or ingestion: everything but
a direct call of `record_error`. -/
def Op.isEndpoint : Op → Bool
  | .recordError .. => false
  | _ => true

/-! ## a small fleet

One station with a DFU backend, one module in slot 1 that reports version
1.0.0, two releases, and a fleet target on the second. -/

namespace Sample

def release (version : String) : Release :=
  { moduleType := 1, variant := "", version := version, storageKey := version ++ ".bin",
    sha256 := "", sizeBytes := 1, bootKeyHash := "1111111111111111" }

def releases : ReleaseTable where
  table := (Table.empty.insert 1 (release "1.0.0")).insert 2 (release "2.0.0")
  unique := by decide

def module : Module := { moduleType := 1, lastReportedVersion := "1.0.0" }

def station : Station := { name := "site-1", lastSeen := some 0, backends := some ["dfu"] }

/-- The module's row for release 2. -/
def key : RowKey := ⟨"m", 2⟩

/-- The fleet, with the given convergence rows. -/
def fleet (module : Module) (rows : Table RowKey ConvergenceState) : Db where
  moduleTypes := Table.empty.insert 1 ⟨"fm"⟩
  modules := Table.empty.insert "m" module
  stations := Table.empty.insert 1 station
  assignments := Table.empty.insert "m" ⟨some 1, "1"⟩
  targets := [{ moduleType := 1, version := "2.0.0", scope := .fleet }]
  releases := releases
  rows := rows
  locks := Table.empty
  auditLog := []

/-- The fleet whose only row is `cs`, for release 2. -/
def fleetWith (cs : ConvergenceState) : Db := fleet module (Table.empty.insert key cs)

end Sample

end StationManager.Firmware
