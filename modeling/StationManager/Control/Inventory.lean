import StationManager.Control.Capabilities
import StationManager.Control.Frames
import StationManager.Firmware.History
import Mathlib.Data.List.Sort

/-!
# StationManager.Control.Inventory

`apply_inventory` of `registry.py`: a snapshot of the modules that a station's agent sees.
Reported modules are upserted and handed to `ingest_module`, the others go soft-offline,
the settings of a re-plugged module follow it to its new slot, stale panel entries go, and
the open assignments of modules that are gone are closed.

* A `Registry` is what one station has in the tables.  Rows are stored under the key that
  the schema makes unique, in the order of their creation, which is the order of their
  primary keys; a tracked module stands for its UID.
* The whole function is one transaction: an `InventoryError` leaves the database as it was.
* `Env.stamp` has the clock readings of `updated_at`, one per save.
-/

namespace StationManager.Control.Inventory

open Firmware

/-! ## data -/

/-- Slot and module id. -/
abbrev Key := String × String

instance : LawfulBEq Key := inferInstanceAs (LawfulBEq (String × String))

/-- A JSON object of capability values. -/
abbrev Values := List (String × Scalar)

/-- A `StationModule` row. -/
structure StationModule where
  type : String := ""
  model : String := ""
  version : String := ""
  trackedModule : Option Uid := none
  capabilityDescriptor : List Cap := []
  lastState : Values := []
  online : Bool := false
  lastSeen : Option Time := none
  offlineWithStation : Bool := false
  firmwareUpdating : Bool := false
  updatedAt : Time
deriving DecidableEq

/-- A `PersistedCapability` row. -/
structure PersistedCapability where
  value : Scalar
  updatedBy : Option Pk
deriving DecidableEq

/-- The rows of one station, the firmware tables, and the station's log entries that are
about no module. -/
structure Registry where
  modules : Table Key StationModule
  capabilities : Table (Key × String) PersistedCapability
  store : Store
  panelLog : List String

/-- A constraint that a write breaks: one of the assignment history, or
`uniq_persisted_cap`. -/
inductive InventoryError
  | assignment (e : IntegrityError)
  | persistedCap
deriving DecidableEq, Repr

/-- An element of a slot's `modules`; `model` is the identity's. -/
structure Entry where
  module : Option String
  updating : Bool := false
  identity : Identity := {}
  model : String := ""
  capabilities : List Cap := []
  state : Values := []
deriving DecidableEq

/-- An element of the snapshot. -/
structure SlotEntry where
  slot : Option Slot
  modules : List Entry
deriving DecidableEq

structure Env where
  station : Pk
  now : Time
  /-- the clock at the n-th save -/
  stamp : Nat → Time
  /-- `CONTROL_STALE_MODULE_TTL_SECONDS` -/
  ttl : Nat
  /-- the same in hours, as the log shows it -/
  ttlHours : String

/-- The entries that name a slot and a module. -/
def reports (slots : List SlotEntry) : List (Key × Entry) :=
  slots.flatMap fun s => s.modules.filterMap fun m =>
    match s.slot, m.module with
    | some slot, some module => some ((slot.text, module), m)
    | _, _ => none

/-- The reported settings. -/
def settings (descriptor : List Cap) (state : Values) : Values :=
  state.filter fun e => isSettingCap descriptor e.1

/-- The uid, if it is not blank. -/
def Entry.uid? (m : Entry) : Option Uid := m.identity.uid.filter fun uid => uid ≠ ""

/-! ## the rows of reported modules -/

/-- `update_or_create`: set columns of a row, which may be new. -/
def updateOrCreate (modules : Table Key StationModule) (key : Key) (stamp : Time)
    (set create : StationModule → StationModule) : Table Key StationModule :=
  match modules.get? key with
  | none => modules.insert key (create { updatedAt := stamp })
  | some _ => modules.modify key fun row => { set row with updatedAt := stamp }

/-- The identity, descriptor and settings of an entry. -/
def Entry.describe (m : Entry) (row : StationModule) : StationModule :=
  { row with
    type := m.identity.type.getD ""
    model := m.model
    version := m.identity.version
    capabilityDescriptor := m.capabilities
    lastState := settings m.capabilities m.state }

/-- The module is there. -/
def StationModule.present (now : Time) (updating : Bool) (row : StationModule) : StationModule :=
  { row with
    online := true
    lastSeen := some now
    offlineWithStation := false
    firmwareUpdating := updating }

/-- `_apply_updating_entry`: a paused module keeps its identity, descriptor and settings. -/
def applyUpdatingEntry (env : Env) (stamp : Time) (modules : Table Key StationModule) (key : Key)
    (m : Entry) : Table Key StationModule :=
  updateOrCreate modules key stamp (·.present env.now true)
    fun row => (m.describe row).present env.now true

/-- The row object of a reported module that is tracked. -/
structure TrackedRow where
  key : Key
  uid : Uid
  capabilityDescriptor : List Cap
  lastState : Values
deriving DecidableEq

/-- The loop over the entries. -/
structure Scan where
  modules : Table Key StationModule
  store : Store
  /-- the saves so far -/
  saves : Nat := 0
  reported : List Key := []
  trackedRows : List TrackedRow := []
  trackedSlots : List String := []
  /-- the last uid of a slot first -/
  reportedUidBySlot : List (String × Uid) := []

/-- The link of a row whose entry was rejected: it stays if the linked module itself is the
one that is reported. -/
def keptLink (db : Db) (uid : Option Uid) (link : Option Uid) : Option Uid :=
  link.filter fun linked => (db.modules.get? linked).isSome && decide (uid = some linked)

/-- The scan after an entry that `ingest_module` has answered. -/
def ingested (env : Env) (sc : Scan) (key : Key) (m : Entry) (store : Store)
    (tracked : Option Uid) : Scan where
  modules :=
    let upsert := fun row => (m.describe row).present env.now false
    (updateOrCreate sc.modules key (env.stamp sc.saves) upsert upsert).modify key fun row =>
      { row with
        trackedModule := match tracked with
          | some uid => some uid
          | none => keptLink store.db m.uid? row.trackedModule }
  store := store
  saves := sc.saves + 1
  reported := key :: sc.reported
  trackedRows := match tracked with
    | some uid => sc.trackedRows ++ [⟨key, uid, m.capabilities, settings m.capabilities m.state⟩]
    | none => sc.trackedRows
  trackedSlots := match tracked with
    | some _ => key.1 :: sc.trackedSlots
    | none => sc.trackedSlots
  reportedUidBySlot := match m.uid? with
    | some uid => (key.1, uid) :: sc.reportedUidBySlot
    | none => sc.reportedUidBySlot

/-- One entry. -/
def applyEntry (env : Env) (sc : Scan) (report : Key × Entry) : Except InventoryError Scan :=
  let (key, m) := report
  if m.updating then
    .ok { sc with
      modules := applyUpdatingEntry env (env.stamp sc.saves) sc.modules key m
      saves := sc.saves + 1
      reported := key :: sc.reported
      trackedSlots := key.1 :: sc.trackedSlots }
  else
    match sc.store.ingestModule env.now env.station key.1 (some key.2) m.identity none
        (!(sc.modules.get? key).any (·.online)) with
    | .error e => .error (.assignment e)
    | .ok (store, tracked) => .ok (ingested env sc key m store tracked)

def scan (env : Env) (r : Registry) (slots : List SlotEntry) : Except InventoryError Scan :=
  (reports slots).foldlM (applyEntry env) { modules := r.modules, store := r.store }

/-- Modules that are not reported go offline. -/
def softOffline (now : Time) (reported : List Key) (modules : Table Key StationModule) :
    Table Key StationModule :=
  modules.map fun key row =>
    if row.online ∧ key ∉ reported then
      { row with online := false, lastSeen := some now, firmwareUpdating := false }
    else row

/-- Modules that went offline with the station are first seen missing now. -/
def endOutage (now : Time) (modules : Table Key StationModule) : Table Key StationModule :=
  modules.map fun _ row =>
    if row.offlineWithStation then { row with lastSeen := some now, offlineWithStation := false }
    else row

/-! ## re-plugged modules -/

/-- The order by `last_seen`, nulls first, and `updated_at`. -/
def seenNoLater (a b : Key × StationModule) : Prop :=
  match a.2.lastSeen, b.2.lastSeen with
  | none, some _ => True
  | some _, none => False
  | none, none => a.2.updatedAt ≤ b.2.updatedAt
  | some x, some y => x < y ∨ x = y ∧ a.2.updatedAt ≤ b.2.updatedAt

instance : DecidableRel seenNoLater := fun a b => by
  unfold seenNoLater
  split <;> infer_instance

/-- The rows of a tracked module, the most recently seen last; rows that are equal in this
stay in the order of their keys. -/
def linkedRows (modules : Table Key StationModule) (uid : Uid) : List (Key × StationModule) :=
  (modules.entries.filter fun e => e.2.trackedModule = some uid).insertionSort seenNoLater

/-- Where a tracked module sat. -/
structure Place where
  source : Key
  lastState : Values
  keys : List Key

/-- The element of `before` for a tracked module. -/
def before (modules : Table Key StationModule) (uid : Uid) : Option Place :=
  (linkedRows modules uid).getLast?.map fun e =>
    ⟨e.1, e.2.lastState, (linkedRows modules uid).map Prod.fst⟩

structure Move where
  row : TrackedRow
  source : Key
  prevState : Values
deriving DecidableEq

def flashingKeys (modules : Table Key StationModule) : List Key :=
  (modules.entries.filter fun e => e.2.firmwareUpdating).map Prod.fst

def flashingModules (modules : Table Key StationModule) : List Uid :=
  (modules.entries.filter fun e => e.2.firmwareUpdating).filterMap fun e => e.2.trackedModule

def reportedOnce (rows : List TrackedRow) (uid : Uid) : Bool :=
  (rows.filter fun t => t.uid = uid).length = 1

/-- A tracked module moves if it is reported once, at a key where it had no row, and is not
being flashed. -/
def moveOf (old modules : Table Key StationModule) (rows : List TrackedRow) (t : TrackedRow) :
    Option Move :=
  match before old t.uid with
  | none => none
  | some place =>
    if reportedOnce rows t.uid ∧ t.uid ∉ flashingModules modules ∧
        place.source ∉ flashingKeys modules ∧ t.key ∉ place.keys then
      some ⟨t, place.source, place.lastState⟩
    else none

/-- The `moves` of `_carry_over_moved`. -/
def movesOf (old modules : Table Key StationModule) (rows : List TrackedRow) : List Move :=
  rows.filterMap (moveOf old modules rows)

/-- The persisted values of a key. -/
def calibration (capabilities : Table (Key × String) PersistedCapability) (key : Key) :
    List (String × PersistedCapability) :=
  capabilities.entries.filterMap fun e => if e.1.1 = key then some (e.1.2, e.2) else none

/-- `bulk_create`: one statement, which the unique constraint can refuse. -/
def bulkCreate (capabilities : Table (Key × String) PersistedCapability)
    (rows : List ((Key × String) × PersistedCapability)) :
    Except InventoryError (Table (Key × String) PersistedCapability) :=
  if (rows.map Prod.fst).Nodup ∧ ∀ e ∈ rows, capabilities.get? e.1 = none then
    .ok (capabilities.insertAll rows)
  else .error .persistedCap

/-- The rows that the moves create. -/
def carriedRows (capabilities : Table (Key × String) PersistedCapability) (moves : List Move) :
    List ((Key × String) × PersistedCapability) :=
  moves.flatMap fun m => (calibration capabilities m.source).map fun e => ((m.row.key, e.1), e.2)

/-- The keys that the moves involve. -/
def involved (moves : List Move) : List Key :=
  moves.map (·.source) ++ moves.map (·.row.key)

/-- The first half of `_move_settings`, on the calibration. -/
def moveCapabilities (capabilities : Table (Key × String) PersistedCapability)
    (moves : List Move) : Except InventoryError (Table (Key × String) PersistedCapability) :=
  bulkCreate (capabilities.filter fun k _ => decide (k.1 ∉ involved moves))
    (carriedRows capabilities moves)

/-- Python's `a.update(b)`. -/
def Values.update (a b : Values) : Values :=
  a.map (fun e => (e.1, (b.lookup e.1).getD e.2)) ++
    b.filter fun e => (a.lookup e.1).isNone

/-- Python's `a == b` on objects. -/
def Values.equals (a b : Values) : Bool :=
  a.all (fun e => (b.lookup e.1).any e.2.equals) && b.all fun e => (a.lookup e.1).isSome

/-- The previous settings that are carried over, overlaid by the reported ones. -/
def Move.merged (capabilities : Table (Key × String) PersistedCapability) (m : Move) : Values :=
  Values.update
    (m.prevState.filter fun e =>
      e.1 ∉ (calibration capabilities m.source).map Prod.fst ∧
        isSettingCap m.row.capabilityDescriptor e.1)
    m.row.lastState

/-- The second half of `_move_settings`, on the row of one move; counts the saves. -/
def carryState (env : Env) (capabilities : Table (Key × String) PersistedCapability)
    (acc : Nat × Table Key StationModule) (m : Move) : Nat × Table Key StationModule :=
  if (m.merged capabilities).equals m.row.lastState then acc
  else (acc.1 + 1, acc.2.modify m.row.key fun row =>
    { row with lastState := m.merged capabilities, updatedAt := env.stamp acc.1 })

/-! ## stale entries -/

/-- The order of the table, by slot and module id. -/
def keyNoLater (a b : Key × StationModule) : Prop :=
  a.1.1 < b.1.1 ∨ a.1.1 = b.1.1 ∧ a.1.2 ≤ b.1.2

instance : DecidableRel keyNoLater := fun _ _ => inferInstanceAs (Decidable (_ ∨ _))

/-- Rows of the module other than the reported ones. -/
def staleRows (modules : Table Key StationModule) (rows : List TrackedRow) (uid : Uid) :
    List (Key × StationModule) :=
  (modules.entries.filter fun e => e.2.trackedModule = some uid ∧
    e.1 ∉ rows.map TrackedRow.key ∧ e.2.firmwareUpdating = false).insertionSort keyNoLater

def Key.text (key : Key) : String := s!"{key.1}/{key.2}"

/-- The log entry of a move, or of removed entries alone. -/
def staleMessage (t : TrackedRow) (source : Option Key) (removed : List String) : String :=
  let list := ", ".intercalate removed
  match source with
  | some src =>
    s!"Control panel: module {t.uid} moved from slot {src.1} to slot {t.key.1}; " ++
      "settings carried over." ++
      if removed = [] then "" else s!" Stale entry {list} removed."
  | none => s!"Control panel: removed stale entry {list} of module {t.uid} (now in slot {t.key.1})."

/-- The stale entries of one tracked module. -/
def dropStale (env : Env) (modules : Table Key StationModule) (rows : List TrackedRow)
    (moves : List Move) (acc : Table Key StationModule × Store) (t : TrackedRow) :
    Table Key StationModule × Store :=
  let stale := staleRows modules rows t.uid
  let source := (moves.find? fun m => m.row.uid = t.uid).map (·.source)
  if stale = [] ∧ source = none then acc
  else (acc.1.filter fun key _ => decide (key ∉ stale.map Prod.fst),
    acc.2.update (fun db => db.auditModule (some env.station) t.uid .moduleSwapped
      (staleMessage t source (stale.map fun e => Key.text e.1))) fun _ => rfl)

/-- Modules reported once and not being flashed. -/
def singleRows (modules : Table Key StationModule) (rows : List TrackedRow) : List TrackedRow :=
  rows.filter fun t => reportedOnce rows t.uid ∧ t.uid ∉ flashingModules modules

/-- An offline row past the TTL. -/
def expired (env : Env) (row : StationModule) : Bool :=
  !row.online && !row.firmwareUpdating &&
    decide (row.lastSeen.getD row.updatedAt + env.ttl < env.now)

def pruneMessage (env : Env) (key : Key) : String :=
  s!"Control panel: removed stale module entry {key.1}/{key.2} (offline, not seen for more " ++
    s!"than {env.ttlHours} h)."

/-! ## the function -/

/-- The modules before the carry-over. -/
def settled (env : Env) (sc : Scan) : Table Key StationModule :=
  endOutage env.now (softOffline env.now sc.reported sc.modules)

/-- The rest of a non-empty snapshot: `_carry_over_moved`, `_prune_expired` and
`reconcile_station`. -/
def finish (env : Env) (r : Registry) (sc : Scan) : Except InventoryError Registry :=
  let modules := settled env sc
  let moves := movesOf r.modules modules sc.trackedRows
  match moveCapabilities r.capabilities moves with
  | .error e => .error e
  | .ok capabilities =>
    let carried := (moves.foldl (carryState env r.capabilities) (sc.saves, modules)).2
    let cleaned := (singleRows modules sc.trackedRows).foldl
      (dropStale env carried sc.trackedRows moves) (carried, sc.store)
    let gone := (cleaned.1.entries.filter fun e => expired env e.2).insertionSort keyNoLater
    match cleaned.2.reconcileStation env.now env.station sc.trackedSlots
        sc.reportedUidBySlot with
    | .error e => .error (.assignment e)
    | .ok store =>
      .ok {
        modules := cleaned.1.filter fun _ row => !expired env row
        capabilities
        store
        panelLog := r.panelLog ++ gone.map fun e => pruneMessage env e.1 }

/-- `apply_inventory`; an empty snapshot may be a failed discovery and deletes nothing. -/
def applyInventory (env : Env) (r : Registry) (slots : List SlotEntry) :
    Except InventoryError Registry :=
  match scan env r slots with
  | .error e => .error e
  | .ok sc =>
    if slots = [] then
      .ok { r with
        modules := softOffline env.now sc.reported sc.modules
        store := sc.store }
    else finish env r sc

end StationManager.Control.Inventory
