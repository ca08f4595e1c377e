import StationManager.Firmware.Services

/-!
# StationManager.Firmware.Ingest

Module inventory ingestion (`ingest.py`): upsert a module from its
self-reported identity, move its open assignment to the reporting slot, derive
its lifecycle, drop a stale DFU-stuck notice, reconcile.
-/

namespace StationManager.Firmware

/-- The identity dict of one inventory entry.  A missing key is `none`; a boot
key that is not a string is one `normalize_boot_key` turns blank. -/
structure Identity where
  uid : Option Uid := none
  type : Option String := none
  uidSource : Option String := none
  version : String := ""
  variant : Option String := none
  bootKey : Option String := none
deriving DecidableEq, Repr

/-- A malformed source falls back to `stm32_uid`. -/
def parseUidSource : Option String → UidSource
  | some "synthetic" => .synthetic
  | _ => .stm32Uid

/-- The set `Module.STICKY_LIFECYCLE`. -/
def Lifecycle.isSticky : Lifecycle → Bool
  | .defect | .inLab | .retired => true
  | .ready | .deployed => false

namespace Db

/-- Audit entry about a module that no row is about. -/
def auditModule (db : Db) (station : Option Pk) (uid : Uid) (event : EventType)
    (message : String) : Db :=
  db.log [⟨station, uid, event, message, none⟩]

/-- Audit an anomaly once per text, not once per heartbeat. -/
def auditOnce (db : Db) (station : Pk) (uid : Uid) (message : String) : Db :=
  if db.auditLog.any fun e => e.module = uid ∧ e.eventType = .updated ∧ e.message = message then db
  else db.auditModule (some station) uid .updated message

/-- The registry type of a wire module id (keys are unique). -/
def moduleTypeByKey (db : Db) (key : String) : Option Pk :=
  (db.moduleTypes.entries.find? fun e => e.2.key = key).map Prod.fst

def moduleTypeKey (db : Db) (pk : Pk) : String := ((db.moduleTypes.get? pk).map (·.key)).getD ""

def stationName (db : Db) (pk : Pk) : String := ((db.stations.get? pk).map (·.name)).getD ""

/-- The lifecycle of a module with or without an open assignment. -/
def assignedLifecycle (db : Db) (uid : Uid) : Lifecycle :=
  if (db.assignments.get? uid).isSome then .deployed else .ready

/-- Lifecycle from assignment state; operator-set states are never
overridden. -/
def deriveLifecycle (db : Db) (station : Pk) (uid : Uid) : Db :=
  match db.modules.get? uid with
  | none => db
  | some module =>
    if module.lifecycleStatus.isSticky then db
    else
      let target := db.assignedLifecycle uid
      let old := module.lifecycleStatus
      if old = target then db
      else (db.setModule uid fun m => { m with lifecycleStatus := target }).auditModule
        (some station) uid .moduleLifecycleChanged
        s!"Lifecycle {old.value} → {target.value} for module {uid}."

/-- The other module in this slot. -/
def occupant (db : Db) (station : Pk) (slot : String) (uid : Uid) : Option Uid :=
  (db.assignments.entries.find? fun e =>
    e.2.station = some station ∧ e.2.slot = slot ∧ e.1 ≠ uid).map Prod.fst

/-- Exactly one open assignment for the module, at (station, slot);
conflicting ones are closed. -/
def applyAssignment (db : Db) (station : Pk) (slot : String) (uid : Uid) : Db :=
  let current := db.assignments.get? uid
  if current = some ⟨some station, slot⟩ then db
  else
    let displaced := db.occupant station slot uid
    let closed := match displaced with
      | none => db.assignments.erase uid
      | some d => (db.assignments.erase uid).erase d
    let db₁ : Db := { db with assignments := closed.insert uid ⟨some station, slot⟩ }
    let place := s!"{db.stationName station}/{slot}"
    let db₂ := match displaced with
      | some _ => db₁.auditModule (some station) uid .moduleSwapped
          s!"Module {uid} replaced a module in {place}."
      | none =>
        if current.isSome then db₁.auditModule (some station) uid .moduleSwapped
          s!"Module {uid} relocated to {place}."
        else db₁
    let db₃ := match displaced with
      | some d => db₂.deriveLifecycle station d
      | none => db₂
    db₃.auditModule (some station) uid .moduleAssignmentChanged s!"Module {uid} assigned to {place}."

/-- Drop the DFU-stuck notice from the module's rows (a queryset update). -/
def clearDfuStuck (db : Db) (uid : Uid) : Db :=
  { db with rows := db.rows.map fun k cs =>
      if k.module = uid ∧ isDfuStuck cs.lastErrorMessage then { cs with lastErrorMessage := "" }
      else cs }

/-- The variant of a known module: a blank is filled once, a change is an
anomaly. -/
def ingestVariant (db : Db) (station : Pk) (uid : Uid) (module : Module) (variant : String) : Db :=
  if variant = "" then db
  else if module.variant = "" then db.setModule uid fun m => { m with variant := variant }
  else if module.variant ≠ variant then
    db.auditOnce station uid (s!"Variant mismatch for uid {uid}: reported " ++
      s!"'{variant}', tracked as '{module.variant}'. Ignored.")
  else db

/-- A report of a known module: variant, last seen, version and key. -/
def ingestKnown (db : Db) (now : Time) (station : Pk) (uid : Uid) (module : Module)
    (identity : Identity) : Db :=
  let version := identity.version
  let db₁ := (db.ingestVariant station uid module (identity.variant.getD "")).setModule uid fun m =>
    { m with
      lastSeen := some now
      lastReportedVersion := version
      reportedBootKey := normalizeBootKey identity.bootKey }
  let old := module.lastReportedVersion
  if version ≠ "" ∧ old ≠ "" ∧ version ≠ old then
    db₁.auditModule (some station) uid .firmwareUpdate
      s!"Module {uid} reported version {old} → {version}."
  else db₁

/-- A first report: the module row. -/
def ingestNew (db : Db) (now : Time) (station : Pk) (slot : String) (uid : Uid) (moduleType : Pk)
    (identity : Identity) : Db :=
  let module : Module :=
    { moduleType := moduleType
      uidSource := parseUidSource identity.uidSource
      lastReportedVersion := identity.version
      variant := identity.variant.getD ""
      reportedBootKey := normalizeBootKey identity.bootKey
      firstSeen := some now
      lastSeen := some now }
  let db₁ : Db := { db with modules := db.modules.insert uid module }
  db₁.auditModule (some station) uid .moduleDiscovered
    s!"Module {uid} ({db.moduleTypeKey moduleType}) discovered in {db.stationName station}/{slot}."

/-- What follows an accepted report. -/
def ingestTail (db : Db) (now : Time) (station : Pk) (slot : String) (uid : Uid)
    (cameOnline : Bool) : Db :=
  let db₁ := (db.applyAssignment station slot uid).deriveLifecycle station uid
  let db₂ := if cameOnline then db₁.clearDfuStuck uid else db₁
  (db₂.reconcileModule now uid).1

/-- The source's `ingest_module`: the new database and whether the module was
accepted. -/
def ingestModule (db : Db) (now : Time) (station : Pk) (slot : String) (moduleId : Option String)
    (identity : Identity) (cameOnline : Bool) : Db × Bool :=
  match identity.uid with
  | none => (db, false)
  | some uid =>
    if uid = "" then (db, false)
    else
      -- the wire module id names the type; the identity's type only if it is absent
      let typeKey := match moduleId with
        | some key => if key = "" then identity.type.getD "" else key
        | none => identity.type.getD ""
      match db.moduleTypeByKey typeKey with
      | none => (db, false)
      | some moduleType => match db.modules.get? uid with
          | none =>
            ((db.ingestNew now station slot uid moduleType identity).ingestTail now station slot
              uid cameOnline, true)
          | some module =>
            if module.moduleType ≠ moduleType then
              (db.auditOnce station uid
                (s!"Type mismatch for uid {uid}: reported '{typeKey}', " ++
                  s!"tracked as '{db.moduleTypeKey module.moduleType}'. Ignored."), false)
            else
              ((db.ingestKnown now station uid module identity).ingestTail now station slot uid
                cameOnline, true)

/-- Close one stale assignment. -/
def closeAssignment (station : Pk) (db : Db) (a : Uid × Assignment) : Db :=
  let closed : Db := { db with assignments := db.assignments.erase a.1 }
  (closed.auditModule (some station) a.1 .moduleAssignmentChanged
    s!"Module {a.1} no longer reported in {db.stationName station}/{a.2.slot}.").deriveLifecycle
    station a.1

/-- The source's `reconcile_station`: close the open assignments of slots that
no longer hold their module. -/
def reconcileStation (db : Db) (station : Pk) (trackedSlots : List String)
    (reportedUidBySlot : List (String × Uid)) : Db :=
  let stale := db.assignments.entries.filter fun e =>
    e.2.station = some station ∧ e.2.slot ∉ trackedSlots ∧
      reportedUidBySlot.lookup e.2.slot ≠ some e.1
  stale.foldl (closeAssignment station) db

end Db

end StationManager.Firmware
