import StationManager.Audio.Gate
import StationManager.Control.InventoryMoves
import StationManager.Lib.Transition

/-!
# StationManager.Control.Reapply

Persisted calibration values and their re-apply on one agent connection.  An
operator's `set` goes to the agent; when the agent reports success the value is
persisted.  Whenever an inventory disagrees with the persisted rows, the server
sends a `set` of its own for them, at once or, if the station is keyed, later.

* Two tasks of the connection are modelled, each suspended at its awaits: the
  consumer's message handlers, which run one after the other, and the sweep,
  which retries a deferred re-apply.  The browser's consumer that persists a
  result is a step of its own.
* `OperatorSet` numbers the operators' sets in the order they were sent to the
  agent.  A persisted row remembers the number of the set it stems from; neither
  number exists in the code, they are there to say which value is older.
-/

namespace StationManager.Control.Reapply

open Audio (AudioGate)
open Inventory (settings)

/-! ## data -/

/-- What a persisted value is stored for. -/
structure Key where
  slot : String
  module : String
  capability : String
deriving DecidableEq, Repr

/-- A `PersistedCapability` row, with the number of the set it stems from. -/
structure Row where
  value : Scalar
  version : Nat
deriving DecidableEq

/-- The columns of a `StationModule` row that re-apply reads. -/
structure ModuleRow where
  type : String
  descriptor : List Cap
  lastState : List (String × Scalar)
  online : Bool
  updating : Bool
deriving DecidableEq

/-- A module of an inventory frame or of the stored snapshot. -/
structure Reported where
  slot : Slot
  module : String
  updating : Bool := false
  type : Option String
  capabilities : List Cap
  state : List (String × Scalar)
deriving DecidableEq

/-- The (slot, module) a module is registered under. -/
def Reported.place (r : Reported) : String × String := (r.slot.text, r.module)

/-- A re-apply `set` frame. -/
structure Frame where
  slot : Slot
  module : String
  capability : String
  value : Scalar
  version : Nat
deriving DecidableEq

def Frame.key (f : Frame) : Key := ⟨f.slot.text, f.module, f.capability⟩

/-- What has become of an operator's set. -/
inductive Status
  | inFlight
  | refused
  | accepted
  | persisted
  | dropped
deriving DecidableEq, Repr

/-- The agent reported success. -/
def Status.isAccepted : Status → Bool
  | .accepted | .persisted | .dropped => true
  | .inFlight | .refused => false

/-- The agent or the browser's consumer has still to deal with it. -/
def Status.isOpen : Status → Bool
  | .inFlight | .accepted => true
  | .refused | .persisted | .dropped => false

structure OperatorSet where
  key : Key
  value : Scalar
  status : Status
deriving DecidableEq

/-- `set` frames in the order they are sent to the agent. -/
inductive Sent
  | operator (n : Nat)
  | reapply (f : Frame)
deriving DecidableEq

/-! ## the database -/

/-- `reapply_frames`: a frame for every persisted value that a reported module
disagrees with. -/
def reapplyFrames (rows : Table Key Row) (modules : List Reported) : List Frame :=
  modules.flatMap fun r =>
    if r.updating then []
    else rows.entries.filterMap fun (k, row) =>
      if (k.slot, k.module) = r.place ∧ (policyFor k.capability r.type).persist ∧
          (settableCap r.capabilities k.capability).any (·.valueFits row.value) ∧
          ¬(r.state.lookup k.capability).any (·.same row.value) then
        some ⟨r.slot, r.module, k.capability, row.value, row.version⟩
      else none

/-- `snapshot`, of the modules that are online. -/
def snapshot (modules : Table (String × String) ModuleRow) : List Reported :=
  (modules.entries.filter (·.2.online)).map fun (k, m) =>
    ⟨.str k.1, k.2, m.updating, some m.type, m.descriptor, m.lastState⟩

/-- A reported module overwrites its row; one in a paused slot only marks it. -/
def upsert (modules : Table (String × String) ModuleRow) (r : Reported) :
    Table (String × String) ModuleRow :=
  let row : ModuleRow :=
    ⟨r.type.getD "", r.capabilities, settings r.capabilities r.state, true, r.updating⟩
  if r.updating then
    (modules.insert r.place row).modify r.place fun m =>
      { m with online := true, updating := true }
  else (modules.insert r.place row).modify r.place fun _ => row

/-- `apply_inventory` on the columns modelled here: unreported modules go
offline (`shows_applyInventory`). -/
def applyInventory (modules : Table (String × String) ModuleRow) (reported : List Reported) :
    Table (String × String) ModuleRow :=
  (reported.foldl upsert modules).map fun k m =>
    if m.online ∧ k ∉ reported.map Reported.place then { m with online := false, updating := false }
    else m

section Columns

open Inventory (Applied Env Left Out Registry Scan Scanned SlotEntry StationModule reports)

variable {t : Table (String × String) ModuleRow} {modules : Table (String × String) StationModule}
  {env : Env} {sc sc' : Scan} {k : String × String}

/-- The columns modelled here. -/
def ofRow (row : StationModule) : ModuleRow :=
  ⟨row.type, row.capabilityDescriptor, row.lastState, row.online, row.firmwareUpdating⟩

/-- An entry of a snapshot. -/
def ofEntry (r : (String × String) × Inventory.Entry) : Reported :=
  ⟨.str r.1.1, r.1.2, r.2.updating, r.2.identity.type, r.2.capabilities, r.2.state⟩

/-- The table has the columns of the rows. -/
def Shows (t : Table (String × String) ModuleRow)
    (modules : Table (String × String) StationModule) : Prop :=
  ∀ k, t.get? k = (modules.get? k).map ofRow

theorem Shows.applied {o : Out} (h : Applied env sc o sc') (ht : Shows t sc.modules) :
    Shows (upsert t (ofEntry o.report)) sc'.modules := by
  obtain ⟨row, hleft, hget⟩ := h.get?
  have hold := ht o.key
  have hplace : (ofEntry o.report).place = o.key := rfl
  have hupdating : (ofEntry o.report).updating = o.entry.updating := rfl
  intro k
  simp only [upsert, hplace, hupdating]
  rw [hget]
  generalize sc.modules.get? o.key = old at hleft hold
  cases hleft with
  | paused h =>
    rw [if_pos h, Table.get?_modify, Table.get?_insert]
    split
    · rw [hold]
      cases old <;> rfl
    · exact ht k
  | shown h =>
    rw [if_neg (by simp [h]), Table.get?_modify, Table.get?_insert]
    split
    · rw [Option.map_some, h]
      rfl
    · exact ht k

theorem Shows.scanned {outs : List Out} (h : Scanned env sc outs sc') (ht : Shows t sc.modules) :
    Shows ((outs.map fun o => ofEntry o.report).foldl upsert t) sc'.modules := by
  induction h generalizing t with
  | nil => exact ht
  | cons h _ ih => exact ih (ht.applied h)

/-- **The columns of a row that `apply_inventory` leaves**, but for the settings that a
re-plugged module brings along. -/
theorem shows_applyInventory {r r' : Registry} {slots : List SlotEntry}
    (h : Inventory.applyInventory env r slots = .ok r') (ht : Shows t r.modules)
    {row : StationModule} (hrow : r'.modules.get? k = some row) :
    ((applyInventory t ((reports slots).map ofEntry)).get? k).map
      ({ · with lastState := row.lastState }) = some (ofRow row) := by
  obtain ⟨sc, outs, hscan, hreports, hscanned⟩ := Inventory.scan_ok env r slots
  have hshows := ht.scanned hscanned
  have hentries : (reports slots).map ofEntry = outs.map fun o => ofEntry o.report := by
    rw [← hreports, List.map_map]
    rfl
  have hplaces : ((outs.map fun o => ofEntry o.report).map Reported.place) = outs.map Out.key := by
    rw [List.map_map]
    rfl
  have hoffline : Shows (applyInventory t ((reports slots).map ofEntry))
      (Inventory.softOffline env.now sc.reported sc.modules) := by
    intro k
    rw [applyInventory, hentries, hplaces, Table.get?_map, hshows k, Inventory.softOffline,
      Table.get?_map, Option.map_map, Option.map_map]
    congr 1
    funext row
    refine Eq.trans ?_ (apply_ite ofRow ..).symm
    exact if_congr (by simp [hscanned.reported, ofRow]) rfl rfl
  simp only [Inventory.applyInventory, hscan] at h
  split at h
  · cases h
    rw [hoffline k, hrow]
    rfl
  · obtain ⟨row₀, hrow₀, hpanel⟩ := Inventory.settled_of_finish h hrow
    rw [Inventory.settled, Inventory.endOutage, Table.get?_map] at hrow₀
    obtain ⟨row₁, hrow₁, rfl⟩ := Option.map_eq_some_iff.mp hrow₀
    have hsame := congrArg
      (fun x : StationModule => { ofRow x with lastState := row.lastState }) hpanel
    rw [hoffline k, hrow₁]
    split at hsame <;> exact congrArg some hsame

end Columns

/-- `_move_settings`: the calibration of re-plugged modules goes with them.
All rows of the places involved are rewritten: a destination gets the rows of
its source, a source that nobody moved into ends up empty. -/
def moveSettings (rows : Table Key Row) (moves : List ((String × String) × (String × String))) :
    Table Key Row :=
  let involved := moves.map Prod.fst ++ moves.map Prod.snd
  let kept := rows.filter fun k _ => (k.slot, k.module) ∉ involved
  kept.insertAll <| moves.flatMap fun (source, dest) =>
    (rows.entries.filter fun (k, _) => (k.slot, k.module) = source).map fun (k, row) =>
      (⟨dest.1, dest.2, k.capability⟩, row)

/-- `apply_state`: merge the settings of a state frame. -/
def applyState (modules : Table (String × String) ModuleRow) (place : String × String)
    (values : List (String × Scalar)) : Table (String × String) ModuleRow :=
  modules.modify place fun m =>
    { m with
      lastState := settings m.descriptor values ++
        m.lastState.filter fun e => e.1 ∉ (settings m.descriptor values).map Prod.fst }

/-- `persist_if_valid`: the module is registered, and the capability a
persisted writable setting that the value fits. -/
def persists (modules : Table (String × String) ModuleRow) (key : Key) (value : Scalar) : Bool :=
  match modules.get? (key.slot, key.module) with
  | none => false
  | some m => (policyFor key.capability (some m.type)).persist &&
      (settableCap m.descriptor key.capability).any (·.valueFits value)

/-! ## the connection -/

/-- Where a task is suspended. -/
inductive Task
  | idle
  /-- an inventory frame, before its transaction; `moves` are the modules that
  the transaction finds re-plugged -/
  | applying (reported : List Reported) (moves : List ((String × String) × (String × String)))
  | applied (reported : List Reported)
  | querying (reported : List Reported) (gen : Nat)
  | computed (gen : Nat) (frames : Option (List Frame))
  | retryQuery (gen : Nat)
  | retryComputed (gen : Nat) (frames : Option (List Frame))
  | sending (frames : List Frame)

/-- The connection, the tables it shares with the rest of the server, and the
sets and frames so far. -/
structure Conn where
  gate : AudioGate
  rows : Table Key Row
  modules : Table (String × String) ModuleRow
  sets : Table Nat OperatorSet
  next : Nat
  gen : Nat
  pending : Option Nat
  touched : List Key
  wireSlots : List Slot
  sent : List Sent
  main : Task
  sweep : Task

/-- The two tasks. -/
inductive Which
  | main
  | sweep
deriving DecidableEq

def Conn.task (c : Conn) : Which → Task
  | .main => c.main
  | .sweep => c.sweep

def Conn.setTask (c : Conn) (w : Which) (t : Task) : Conn :=
  match w with
  | .main => { c with main := t }
  | .sweep => { c with sweep := t }

/-- What can happen next.  A result names its set; persisting one is allowed
if its user still holds the lock and may write the capability. -/
inductive Label
  | operatorSet (key : Key) (value : Scalar)
  | result (n : Nat) (ok : Bool)
  | state (place : String × String) (values : List (String × Scalar))
  | inventory (reported : List Reported) (moves : List ((String × String) × (String × String)))
  | sweepTick
  | persist (n : Nat) (allowed : Bool)
  | setGate (gate : AudioGate)
  | exec (w : Which) (now : Time)

/-- `_retry_pending_reapply` up to its query: it claims the marker. -/
def Conn.beginRetry (c : Conn) (w : Which) : Conn :=
  match c.pending with
  | none => c
  | some gen => { c with pending := none }.setTask w (.retryQuery gen)

/-- Drift frames, unless the station is keyed. -/
def Conn.query (c : Conn) (now : Time) (modules : List Reported) : Option (List Frame) :=
  if c.gate.keyed now then none else some (reapplyFrames c.rows modules)

/-- The slot as the agent reported it. -/
def Conn.wire (c : Conn) (f : Frame) : Frame :=
  { f with slot := (c.wireSlots.reverse.find? fun s => s.text = f.slot.text).getD f.slot }

/-- Resume a task. -/
def Conn.resume (c : Conn) (w : Which) (now : Time) : Option Conn :=
  match c.task w with
  | .idle => none
  | .applying reported moves => some <|
      { c with
        modules := applyInventory c.modules reported, rows := moveSettings c.rows moves }.setTask w
        (.applied reported)
  | .applied reported => some <|
      { c with
        gen := c.gen + 1, touched := [], wireSlots := reported.map Reported.slot }.setTask w
        (.querying reported (c.gen + 1))
  | .querying reported gen => some (c.setTask w (.computed gen (c.query now reported)))
  | .computed gen none => some <|
      { c with pending := if c.gen = gen then some gen else c.pending }.setTask w .idle
  | .computed gen (some frames) => some <|
      { c with pending := if c.gen = gen then none else c.pending }.setTask w (.sending frames)
  | .retryQuery gen => some (c.setTask w (.retryComputed gen (c.query now (snapshot c.modules))))
  | .retryComputed gen frames =>
    if c.gen ≠ gen then some (c.setTask w .idle)
    else match frames with
      | none => some ({ c with pending := some gen }.setTask w .idle)
      | some frames => some (c.setTask w (.sending (frames.map c.wire)))
  | .sending [] => some (c.setTask w .idle)
  | .sending (f :: frames) =>
    if f.key ∈ c.touched then some (c.setTask w (.sending frames))
    else some ({ c with sent := c.sent ++ [Sent.reapply f] }.setTask w (.sending frames))

/-- Rewrite the status of a set. -/
def Conn.setStatus (c : Conn) (n : Nat) (status : Status) : Conn :=
  { c with sets := c.sets.modify n fun s => { s with status } }

/-- One step of the connection.  Messages are taken up while no handler is in
progress. -/
def step (c : Conn) : Label → Option Conn
  | .operatorSet key value => match c.main with
      | .idle => some { c with
          touched := key :: c.touched, sets := c.sets.insert c.next ⟨key, value, .inFlight⟩,
          next := c.next + 1, sent := c.sent ++ [.operator c.next] }
      | _ => none
  | .result n ok => match c.main, c.sets.get? n with
      | .idle, some ⟨_, _, .inFlight⟩ =>
        some ((c.setStatus n (if ok then .accepted else .refused)).beginRetry .main)
      | _, _ => none
  | .state place values => match c.main with
      | .idle => some ({ c with modules := applyState c.modules place values }.beginRetry .main)
      | _ => none
  | .inventory reported moves => match c.main with
      | .idle => some { c with main := .applying reported moves }
      | _ => none
  | .sweepTick => match c.sweep with
      | .idle => some (c.beginRetry .sweep)
      | _ => none
  | .persist n allowed => match c.sets.get? n with
      | some ⟨key, value, .accepted⟩ =>
        if allowed ∧ persists c.modules key value then
          some { c.setStatus n .persisted with
            rows := (c.rows.insert key ⟨value, n⟩).modify key fun _ => ⟨value, n⟩ }
        else some (c.setStatus n .dropped)
      | _ => none
  | .setGate gate => some { c with gate }
  | .exec w now => c.resume w now

/-! ## what the protection needs -/

/-- The row of a set's key is not older than the set. -/
def upToDate (rows : Table Key Row) (n : Nat) (key : Key) : Bool :=
  match rows.get? key with
  | some row => n ≤ row.version
  | none => true

/-- A set that is open, or that was accepted and has left no trace in the
persisted rows. -/
def Conn.unsettled (c : Conn) : Bool :=
  c.sets.entries.any fun (n, s) =>
    s.status.isOpen || s.status.isAccepted && !upToDate c.rows n s.key

def Task.isSending : Task → Bool
  | .sending (_ :: _) => true
  | _ => false

/-- The step starts the drift check of an inventory too early: a set sent
before is not settled, or a retry has still frames to send; or its transaction
moves calibration between slots. -/
def premature (c : Conn) : Label → Bool
  | .exec w _ => match c.task w with
      | .applying _ moves => moves ≠ []
      | .applied _ => c.unsettled || c.main.isSending || c.sweep.isSending
      | _ => false
  | _ => false

end StationManager.Control.Reapply
