import StationManager.Firmware.System
import StationManager.Lib.Text
import Mathlib.Data.List.Pairwise

/-!
# StationManager.Firmware.History

The assignment history as it is stored: `ModuleAssignmentHistory` keeps closed
rows too, and two partial unique constraints speak about the open ones.  Every
write goes through `History.save`, which refuses rows that break a constraint,
so a `History` always meets them and the question is whether a write can fail.

`Store` is the database of `Firmware.Models` over such a history.  The
assignments of that database are the open rows (`synced`), and the operations
below, written on the history, end in the same database as those of
`Firmware.Ingest` (`ingestModule_ok`, `reconcileStation_ok`): dropping closed
rows, as that module does, loses nothing.
-/

namespace StationManager.Firmware

/-! ## rows and constraints -/

/-- A `ModuleAssignmentHistory` row. -/
structure HistoryRow where
  module : Uid
  station : Option Pk
  slot : String
  fromTs : Time
  toTs : Option Time := none
  reason : String := ""
  createdBy : Option Pk := none
deriving DecidableEq, Repr

namespace HistoryRow

def isOpen (r : HistoryRow) : Bool := r.toTs.isNone

/-- Where the module is.  A row whose station was deleted is nowhere: nulls
never collide in a unique index. -/
def place (r : HistoryRow) : Option (Pk × String) := r.station.map fun st => (st, r.slot)

def assignment (r : HistoryRow) : Assignment := ⟨r.station, r.slot⟩

def close (now : Time) (r : HistoryRow) : HistoryRow := { r with toTs := some now }

/-- The rows are not in one place. -/
def Apart (r q : HistoryRow) : Prop := r.place = none ∨ r.place ≠ q.place

instance (r q : HistoryRow) : Decidable (r.Apart q) := inferInstanceAs (Decidable (_ ∨ _))

instance : Std.Symm fun e f : Pk × HistoryRow => e.2.Apart f.2 where
  symm e f h := by
    rcases h with h | h
    · cases hf : f.2.place with
      | none => exact .inl hf
      | some p => exact .inr (by rw [h, hf]; exact Option.some_ne_none p)
    · exact .inr h.symm

end HistoryRow

/-- The open rows. -/
def openRows (rows : Table Pk HistoryRow) : List (Pk × HistoryRow) :=
  rows.entries.filter fun e => e.2.isOpen

/-- The names of the constraints: `uniq_open_assignment_per_module`,
`uniq_open_assignment_per_station_slot`. -/
inductive IntegrityError
  | openPerModule
  | openPerStationSlot
deriving DecidableEq, Repr

/-- The stored history. -/
structure History where
  rows : Table Pk HistoryRow
  next : Pk
  numbered : ∀ e ∈ rows.entries, e.1 < next
  uniqModule : ((openRows rows).map fun e => e.2.module).Nodup
  uniqPlace : (openRows rows).Pairwise fun e f => e.2.Apart f.2

namespace History

/-- The history without rows. -/
def empty : History where
  rows := Table.empty
  next := 1
  numbered := by simp [Table.empty]
  uniqModule := List.nodup_nil
  uniqPlace := List.Pairwise.nil

/-- Store rows; the database checks the constraints at every statement. -/
def save (rows : Table Pk HistoryRow) (next : Pk) (numbered : ∀ e ∈ rows.entries, e.1 < next) :
    Except IntegrityError History :=
  if hm : ((openRows rows).map fun e => e.2.module).Nodup then
    if hp : (openRows rows).Pairwise fun e f => e.2.Apart f.2 then
      .ok ⟨rows, next, numbered, hm, hp⟩
    else .error .openPerStationSlot
  else .error .openPerModule

theorem numbered_modify (h : History) (pk : Pk) (f : HistoryRow → HistoryRow) :
    ∀ e ∈ (h.rows.modify pk f).entries, e.1 < h.next := by
  intro e he
  obtain ⟨e', he', rfl⟩ := List.mem_map.mp he
  exact h.numbered e' he'

theorem numbered_insert (h : History) (r : HistoryRow) :
    ∀ e ∈ (h.rows.insert h.next r).entries, e.1 < h.next + 1 := by
  intro e he
  unfold Table.insert at he
  split at he
  · exact Nat.lt_succ_of_lt (h.numbered e he)
  · rcases List.mem_append.mp he with he | he
    · exact Nat.lt_succ_of_lt (h.numbered e he)
    · cases List.mem_singleton.mp he
      exact Nat.lt_succ_self _

/-- Close a row. -/
def close (h : History) (pk : Pk) (now : Time) : Except IntegrityError History :=
  save (h.rows.modify pk (HistoryRow.close now)) h.next (h.numbered_modify pk _)

/-- Append a row under the next key. -/
def create (h : History) (r : HistoryRow) : Except IntegrityError History :=
  save (h.rows.insert h.next r) (h.next + 1) (h.numbered_insert r)

/-- The open rows by module, as the code above the history sees them. -/
def opened (h : History) : Table Uid Assignment where
  entries := (openRows h.rows).map fun e => (e.2.module, e.2.assignment)
  nodup := by
    rw [List.map_map]
    exact h.uniqModule

/-- The open row of a module; there is at most one. -/
def current (h : History) (uid : Uid) : Option (Pk × HistoryRow) :=
  (openRows h.rows).find? fun e => e.2.module = uid

/-- The open row of another module in the slot; there is at most one. -/
def occupant (h : History) (station : Pk) (slot : String) (uid : Uid) : Option (Pk × HistoryRow) :=
  (openRows h.rows).find? fun e =>
    e.2.station = some station ∧ e.2.slot = slot ∧ e.2.module ≠ uid

/-- Close a row if there is one. -/
def closeRow (h : History) (row : Option (Pk × HistoryRow)) (now : Time) :
    Except IntegrityError History :=
  match row with
  | some e => h.close e.1 now
  | none => .ok h

/-- The writes of `_apply_assignment`: close the row of the module, close the
row of the occupant, open the new row. -/
def move (h : History) (now : Time) (station : Pk) (slot : String) (uid : Uid)
    (user : Option Pk) : Except IntegrityError History := do
  let left ← h.closeRow (h.current uid) now
  let freed ← left.closeRow (h.occupant station slot uid) now
  freed.create
    { module := uid, station := some station, slot, fromTs := now, reason := "auto-swap"
      createdBy := user }

/-! ### what the writes do to the open rows -/

theorem openRows_modify_close (rows : Table Pk HistoryRow) (pk : Pk) (now : Time) :
    openRows (rows.modify pk (HistoryRow.close now)) =
      (openRows rows).filter fun e => e.1 ≠ pk := by
  simp only [openRows, Table.modify, Table.map]
  induction rows.entries with
  | nil => rfl
  | cons e l ih =>
    by_cases hpk : e.1 = pk
    · by_cases hopen : e.2.isOpen = true <;>
        simp_all [HistoryRow.isOpen, HistoryRow.close]
    · by_cases hopen : e.2.isOpen = true <;> simp_all

theorem openRows_insert_next (h : History) {r : HistoryRow} (hr : r.isOpen = true) :
    openRows (h.rows.insert h.next r) = openRows h.rows ++ [(h.next, r)] := by
  have hfresh : h.next ∉ h.rows.entries.map Prod.fst := by
    intro hmem
    obtain ⟨e, he, heq⟩ := List.mem_map.mp hmem
    exact absurd (h.numbered e he) (by rw [heq]; exact Nat.lt_irrefl _)
  simp [openRows, Table.insert, hfresh, hr]

variable {station : Pk} {e : Pk × HistoryRow} {slot : String} {uid : Uid}

theorem mem_rows_of_openRows {rows : Table Pk HistoryRow} (he : e ∈ openRows rows) :
    e ∈ rows.entries := (List.mem_filter.mp he).1

/-- Open rows of one module are one row. -/
theorem eq_of_module (h : History) {f : Pk × HistoryRow} (he : e ∈ openRows h.rows)
    (hf : f ∈ openRows h.rows) (heq : e.2.module = f.2.module) : e = f :=
  List.inj_on_of_nodup_map h.uniqModule he hf heq

/-- Open rows of one place are one row. -/
theorem eq_of_place (h : History) {f : Pk × HistoryRow} (he : e ∈ openRows h.rows)
    (hf : f ∈ openRows h.rows) (hep : e.2.place = some (station, slot))
    (hfp : f.2.place = some (station, slot)) : e = f := by
  by_contra hne
  have hapart : e.2.Apart f.2 := h.uniqPlace.forall he hf hne
  simp [HistoryRow.Apart, hep, hfp] at hapart

/-- Dropping a row by its key drops its module. -/
theorem filter_key_eq (h : History) (he : e ∈ openRows h.rows) :
    ((openRows h.rows).filter fun f => f.1 ≠ e.1) =
      (openRows h.rows).filter fun f => f.2.module ≠ e.2.module := by
  refine List.filter_congr fun f hf => ?_
  have hiff : f.1 = e.1 ↔ f.2.module = e.2.module := by
    constructor
    · intro heq
      have hsame := List.inj_on_of_nodup_map h.rows.nodup (mem_rows_of_openRows hf)
        (mem_rows_of_openRows he) heq
      rw [hsame]
    · intro heq
      rw [h.eq_of_module hf he heq]
  simp only [ne_eq, hiff]

/-- **Closing a row never fails**, and takes its module out of the open rows. -/
theorem close_ok (h : History) (now : Time) (he : e ∈ openRows h.rows) :
    ∃ h', h.close e.1 now = .ok h' ∧
      openRows h'.rows = (openRows h.rows).filter fun f => f.2.module ≠ e.2.module := by
  have hopen := openRows_modify_close h.rows e.1 now
  have hm : ((openRows (h.rows.modify e.1 (HistoryRow.close now))).map fun e => e.2.module).Nodup := by
    rw [hopen]
    exact h.uniqModule.sublist (List.filter_sublist.map _)
  have hp : (openRows (h.rows.modify e.1 (HistoryRow.close now))).Pairwise fun e f =>
      e.2.Apart f.2 := by
    rw [hopen]
    exact h.uniqPlace.sublist List.filter_sublist
  refine ⟨⟨_, h.next, h.numbered_modify e.1 _, hm, hp⟩, ?_, ?_⟩
  · rw [close, save, dif_pos hm, dif_pos hp]
  · rw [← h.filter_key_eq he]
    exact hopen

/-- **Opening a row does not fail** if neither its module nor its place has an
open one. -/
theorem create_ok (h : History) {r : HistoryRow} (hr : r.isOpen = true)
    (hmodule : ∀ e ∈ openRows h.rows, e.2.module ≠ r.module)
    (hplace : ∀ e ∈ openRows h.rows, e.2.Apart r) :
    ∃ h', h.create r = .ok h' ∧ openRows h'.rows = openRows h.rows ++ [(h.next, r)] := by
  have hopen := h.openRows_insert_next hr
  have hm : ((openRows (h.rows.insert h.next r)).map fun e => e.2.module).Nodup := by
    rw [hopen, List.map_append, List.nodup_append]
    refine ⟨h.uniqModule, by simp, ?_⟩
    intro x hx y hy
    obtain ⟨e, he, rfl⟩ := List.mem_map.mp hx
    cases List.mem_singleton.mp hy
    exact hmodule e he
  have hp : (openRows (h.rows.insert h.next r)).Pairwise fun e f =>
      e.2.Apart f.2 := by
    rw [hopen, List.pairwise_append]
    refine ⟨h.uniqPlace, List.pairwise_singleton .., ?_⟩
    intro e he f hf
    cases List.mem_singleton.mp hf
    exact hplace e he
  refine ⟨⟨_, h.next + 1, h.numbered_insert r, hm, hp⟩, ?_, hopen⟩
  rw [create, save, dif_pos hm, dif_pos hp]

theorem filter_module_of_none (h : History) (hnone : h.current uid = none) :
    ((openRows h.rows).filter fun e => e.2.module ≠ uid) = openRows h.rows := by
  refine List.filter_eq_self.mpr fun e he => ?_
  simpa using List.find?_eq_none.mp hnone e he

theorem mem_of_current (h : History) (he : h.current uid = some e) :
    e ∈ openRows h.rows ∧ e.2.module = uid :=
  ⟨List.mem_of_find?_eq_some he, by simpa using List.find?_some he⟩

theorem mem_of_occupant (h : History) (he : h.occupant station slot uid = some e) :
    e ∈ openRows h.rows ∧ e.2.place = some (station, slot) ∧ e.2.module ≠ uid := by
  have hmem := List.mem_of_find?_eq_some he
  have hprop := List.find?_some he
  simp only [decide_eq_true_eq] at hprop
  exact ⟨hmem, by simp [HistoryRow.place, hprop.1, hprop.2.1], hprop.2.2⟩

/-- The open rows after a move: those of the module and of the occupant are
gone, the new one is last. -/
def moved (h : History) (station : Pk) (slot : String) (uid : Uid) : List (Pk × HistoryRow) :=
  let left := (openRows h.rows).filter fun e => e.2.module ≠ uid
  match h.occupant station slot uid with
  | some d => left.filter fun e => e.2.module ≠ d.2.module
  | none => left

/-- What a move leaves open is elsewhere. -/
theorem moved_elsewhere (h : History) (he : e ∈ h.moved station slot uid) :
    e ∈ openRows h.rows ∧ e.2.module ≠ uid ∧ e.2.place ≠ some (station, slot) := by
  unfold moved at he
  simp only at he
  cases hd : h.occupant station slot uid with
  | none =>
    rw [hd] at he
    obtain ⟨hmem, hne⟩ := List.mem_filter.mp he
    have hmodule : e.2.module ≠ uid := by simpa using hne
    refine ⟨hmem, hmodule, fun hplace => ?_⟩
    obtain ⟨st, hst, heq⟩ := Option.map_eq_some_iff.mp hplace
    cases heq
    have := List.find?_eq_none.mp hd e hmem
    simp [hst, hmodule] at this
  | some d =>
    rw [hd] at he
    obtain ⟨hleft, hne⟩ := List.mem_filter.mp he
    obtain ⟨hmem, hnuid⟩ := List.mem_filter.mp hleft
    obtain ⟨hdmem, hdplace, _⟩ := h.mem_of_occupant hd
    refine ⟨hmem, by simpa using hnuid, fun hplace => ?_⟩
    rw [h.eq_of_place hmem hdmem hplace hdplace] at hne
    simp at hne

/-- **A move never breaks a constraint**, whatever was open before. -/
theorem move_ok (h : History) (now : Time) (station : Pk) (slot : String) (uid : Uid)
    (user : Option Pk) : ∃ h' pk r, h.move now station slot uid user = .ok h' ∧
      openRows h'.rows = h.moved station slot uid ++ [(pk, r)] ∧
      r.module = uid ∧ r.assignment = ⟨some station, slot⟩ := by
  obtain ⟨left, hleft, hleftRows⟩ : ∃ left : History,
      h.closeRow (h.current uid) now = .ok left ∧
      openRows left.rows = (openRows h.rows).filter fun e => e.2.module ≠ uid := by
    cases hc : h.current uid with
    | none => exact ⟨h, rfl, (h.filter_module_of_none hc).symm⟩
    | some e =>
      obtain ⟨hmem, rfl⟩ := h.mem_of_current hc
      exact h.close_ok now hmem
  obtain ⟨freed, hfreed, hfreedRows⟩ : ∃ freed : History,
      left.closeRow (h.occupant station slot uid) now = .ok freed ∧
      openRows freed.rows = h.moved station slot uid := by
    unfold moved
    cases hd : h.occupant station slot uid with
    | none => exact ⟨left, rfl, hleftRows⟩
    | some d =>
      obtain ⟨hmem, _, hne⟩ := h.mem_of_occupant hd
      have hin : d ∈ openRows left.rows := by
        rw [hleftRows]
        exact List.mem_filter.mpr ⟨hmem, by simpa using hne⟩
      obtain ⟨freed, hclose, hrows⟩ := left.close_ok now hin
      exact ⟨freed, hclose, by rw [hrows, hleftRows]⟩
  obtain ⟨h', hcreate, hrows⟩ := freed.create_ok
    (r := { module := uid, station := some station, slot, fromTs := now, reason := "auto-swap"
            createdBy := user }) rfl
    (fun e he => (h.moved_elsewhere (hfreedRows ▸ he)).2.1)
    (fun e he => .inr (h.moved_elsewhere (hfreedRows ▸ he)).2.2)
  refine ⟨h', _, _, ?_, by rw [hrows, hfreedRows], rfl, rfl⟩
  simp only [move, hleft, bind, Except.bind, hfreed]
  exact hcreate

end History

/-! ## the operations, cut at the history -/

/-- The assignments without the module that moves and the one it displaces. -/
def vacated (assignments : Table Uid Assignment) (uid : Uid) :
    Option Uid → Table Uid Assignment
  | none => assignments.erase uid
  | some d => (assignments.erase uid).erase d

namespace Db

/-- The audit entries of a move, and the lifecycle of the module that lost its
slot. -/
def announceMove (db : Db) (station : Pk) (slot : String) (uid : Uid) (displaced : Option Uid)
    (relocated : Bool) : Db :=
  let place := s!"{db.stationName station}/{slot}"
  let swapped := match displaced with
    | some _ => db.auditModule (some station) uid .moduleSwapped
        s!"Module {uid} replaced a module in {place}."
    | none =>
      if relocated then db.auditModule (some station) uid .moduleSwapped
        s!"Module {uid} relocated to {place}."
      else db
  let derived := match displaced with
    | some d => swapped.deriveLifecycle station d
    | none => swapped
  derived.auditModule (some station) uid .moduleAssignmentChanged
    s!"Module {uid} assigned to {place}."

/-- The first half of `ingest_module`, up to the assignment: the module row and
the module that was accepted. -/
def accept (db : Db) (now : Time) (station : Pk) (slot : String) (moduleId : Option String)
    (identity : Identity) : Db × Option Uid :=
  match identity.uid with
  | none => (db, none)
  | some uid =>
    if uid = "" then (db, none)
    else
      let typeKey := match moduleId with
        | some key => if key = "" then identity.type.getD "" else key
        | none => identity.type.getD ""
      match db.moduleTypeByKey typeKey with
      | none => (db, none)
      | some moduleType => match db.modules.get? uid with
          | none => (db.ingestNew now station slot uid moduleType identity, some uid)
          | some module =>
            if module.moduleType ≠ moduleType then
              (db.auditOnce station uid
                (s!"Type mismatch for uid {uid}: reported '{typeKey}', " ++
                  s!"tracked as '{db.moduleTypeKey module.moduleType}'. Ignored."), none)
            else (db.ingestKnown now station uid module identity, some uid)

/-- The end of `ingest_module`, after the assignment. -/
def settle (db : Db) (now : Time) (station : Pk) (uid : Uid) (cameOnline : Bool) : Db :=
  let derived := db.deriveLifecycle station uid
  let cleared := if cameOnline then derived.clearDfuStuck uid else derived
  (cleared.reconcileModule now uid).1

/-- The audit entry of a module that is not reported any more, and its
lifecycle. -/
def announceLoss (db : Db) (station : Pk) (uid : Uid) (slot : String) : Db :=
  (db.auditModule (some station) uid .moduleAssignmentChanged
    s!"Module {uid} no longer reported in {db.stationName station}/{slot}.").deriveLifecycle
    station uid

/-! ### the same operations as before -/

variable (db : Db) (now : Time) (station : Pk) (uid : Uid) (slot : String)

theorem applyAssignment_eq (uid : Uid) : db.applyAssignment station slot uid =
      if db.assignments.get? uid = some ⟨some station, slot⟩ then db
      else
        let closed := vacated db.assignments uid (db.occupant station slot uid)
        let moved : Db := { db with assignments := closed.insert uid ⟨some station, slot⟩ }
        moved.announceMove station slot uid (db.occupant station slot uid)
          (db.assignments.get? uid).isSome := by
  unfold applyAssignment vacated
  cases db.occupant station slot uid <;> rfl

theorem ingestTail_eq (uid : Uid) (cameOnline : Bool) :
    db.ingestTail now station slot uid cameOnline =
      (db.applyAssignment station slot uid).settle now station uid cameOnline := rfl

theorem ingestModule_eq (moduleId : Option String) (identity : Identity) (cameOnline : Bool) :
    db.ingestModule now station slot moduleId identity cameOnline =
      match (db.accept now station slot moduleId identity).2 with
      | some uid => ((db.accept now station slot moduleId identity).1.ingestTail now station slot uid
          cameOnline, true)
      | none => ((db.accept now station slot moduleId identity).1, false) := by
  simp only [ingestModule, accept]
  cases identity.uid with
  | none => rfl
  | some uid =>
    simp only
    split
    · rfl
    · cases moduleId
      all_goals
        simp only
        generalize db.moduleTypeByKey _ = found
        cases found with
        | none => rfl
        | some moduleType =>
          cases db.modules.get? uid with
          | none => rfl
          | some module =>
            simp only
            split <;> rfl

theorem closeAssignment_eq (a : Uid × Assignment) : closeAssignment station db a =
      Db.announceLoss { db with assignments := db.assignments.erase a.1 } station a.1 a.2.slot := rfl

/-! ### none of them touches the assignments -/

@[simp] theorem auditModule_assignments (station : Option Pk) (uid : Uid) (event : EventType)
    (message : String) :
    (db.auditModule station uid event message).assignments = db.assignments := rfl

@[simp] theorem auditOnce_assignments (message : String) :
    (db.auditOnce station uid message).assignments = db.assignments := by
  unfold auditOnce
  split <;> rfl

@[simp] theorem deriveLifecycle_assignments :
    (db.deriveLifecycle station uid).assignments = db.assignments := by
  unfold deriveLifecycle
  split
  · rfl
  · split
    · rfl
    · simp only
      split <;> rfl

@[simp] theorem announceMove_assignments (uid : Uid) (displaced : Option Uid) (relocated : Bool) :
    (db.announceMove station slot uid displaced relocated).assignments = db.assignments := by
  cases displaced <;> cases relocated <;> simp [announceMove]

@[simp] theorem ingestVariant_assignments (m : Module) (variant : String) :
    (db.ingestVariant station uid m variant).assignments = db.assignments := by
  unfold ingestVariant
  split
  · rfl
  · split
    · rfl
    · split
      · simp
      · rfl

@[simp] theorem ingestKnown_assignments (m : Module) (identity : Identity) :
    (db.ingestKnown now station uid m identity).assignments = db.assignments := by
  have hset : ∀ (db : Db) (f : Module → Module), (db.setModule uid f).assignments =
      db.assignments := fun _ _ => rfl
  unfold ingestKnown
  simp only
  split <;> simp [hset]

@[simp] theorem accept_assignments (moduleId : Option String) (identity : Identity) :
    (db.accept now station slot moduleId identity).1.assignments = db.assignments := by
  simp only [accept]
  cases identity.uid with
  | none => rfl
  | some uid =>
    simp only
    split
    · rfl
    · split
      · rfl
      · split
        · rfl
        · split <;> simp

@[simp] theorem settle_assignments (cameOnline : Bool) :
    (db.settle now station uid cameOnline).assignments = db.assignments := by
  have hclear : ∀ db : Db, (db.clearDfuStuck uid).assignments = db.assignments := fun _ => rfl
  simp only [settle]
  rw [(reconcileModule_frame ..).assignments]
  cases cameOnline <;> simp [hclear]

@[simp] theorem announceLoss_assignments :
    (db.announceLoss station uid slot).assignments = db.assignments := by
  simp [announceLoss]

end Db

/-! ## the store -/

/-- The database over a stored history: its assignments are the open rows. -/
structure Store where
  db : Db
  history : History
  synced : db.assignments = history.opened

/-- Why `set_lifecycle` raises. -/
inductive LifecycleError
  | doesNotExist
  | valueError (message : String)
deriving DecidableEq, Repr

/-- The choice with a given value. -/
def Lifecycle.ofValue? : String → Option Lifecycle
  | "ready" => some .ready
  | "deployed" => some .deployed
  | "defect" => some .defect
  | "in_lab" => some .inLab
  | "retired" => some .retired
  | _ => none

/-- A value of `OPERATOR_LIFECYCLE_VALUES`: every choice but `deployed`. -/
def Lifecycle.ofOperator? (status : String) : Option Lifecycle :=
  (Lifecycle.ofValue? status).filter fun l => l ≠ .deployed

namespace Store

/-- The store after a write of the history. -/
def withHistory (s : Store) (h : History) : Store :=
  ⟨{ s.db with assignments := h.opened }, h, rfl⟩

/-- The store after a change of the other tables. -/
def update (s : Store) (f : Db → Db) (hf : ∀ db, (f db).assignments = db.assignments) : Store :=
  ⟨f s.db, s.history, (hf s.db).trans s.synced⟩

/-- The source's `_apply_assignment`. -/
def applyAssignment (s : Store) (now : Time) (station : Pk) (slot : String) (uid : Uid)
    (user : Option Pk) : Except IntegrityError Store :=
  let current := s.history.current uid
  if current.map (fun e => e.2.assignment) = some ⟨some station, slot⟩ then .ok s
  else do
    let occupant := s.history.occupant station slot uid
    let h ← s.history.move now station slot uid user
    return (s.withHistory h).update
      (fun db => db.announceMove station slot uid (occupant.map fun e => e.2.module) current.isSome)
      fun _ => Db.announceMove_assignments ..

/-- The source's `ingest_module`: the accepted module, if any. -/
def ingestModule (s : Store) (now : Time) (station : Pk) (slot : String) (moduleId : Option String)
    (identity : Identity) (user : Option Pk) (cameOnline : Bool) :
    Except IntegrityError (Store × Option Uid) :=
  let admitted := s.update (fun db => (db.accept now station slot moduleId identity).1)
    fun _ => Db.accept_assignments ..
  match (s.db.accept now station slot moduleId identity).2 with
  | none => .ok (admitted, none)
  | some uid => do
      let assigned ← admitted.applyAssignment now station slot uid user
      return (assigned.update (fun db => db.settle now station uid cameOnline)
        fun _ => Db.settle_assignments .., some uid)

/-- Close one stale row. -/
def closeAssignment (now : Time) (station : Pk) (s : Store) (e : Pk × HistoryRow) :
    Except IntegrityError Store := do
  let h ← s.history.close e.1 now
  return (s.withHistory h).update (fun db => db.announceLoss station e.2.module e.2.slot)
    fun _ => Db.announceLoss_assignments ..

/-- The source's `reconcile_station`. -/
def reconcileStation (s : Store) (now : Time) (station : Pk) (trackedSlots : List String)
    (reportedUidBySlot : List (String × Uid)) : Except IntegrityError Store :=
  let stale := (openRows s.history.rows).filter fun e =>
    e.2.station = some station ∧ e.2.slot ∉ trackedSlots ∧
      reportedUidBySlot.lookup e.2.slot ≠ some e.2.module
  stale.foldlM (closeAssignment now station) s

/-- The source's `set_lifecycle`. -/
def setLifecycle (s : Store) (uid : Uid) (status auditSuffix : String) :
    Except LifecycleError Store :=
  match Lifecycle.ofOperator? status with
  | none => .error (.valueError
      (reprStr status ++ " is not an operator-settable lifecycle status"))
  | some target => match s.db.modules.get? uid with
      | none => .error .doesNotExist
      | some module =>
        if target = .ready ∧ (s.history.current uid).isSome then
          .error (.valueError "cannot set 'ready' while the module has an open assignment")
        else if module.lifecycleStatus = target then .ok s
        else .ok (s.update (fun db =>
          (db.setModule uid fun m => { m with lifecycleStatus := target }).auditModule none uid
            .moduleLifecycleChanged
            (s!"Lifecycle {module.lifecycleStatus.value} → {target.value} for module {uid}." ++
              auditSuffix)) fun _ => rfl)

/-! ### the open rows are the assignments of the database -/

variable (s : Store) (now : Time) (station : Pk) (slot : String)

theorem get?_assignments (uid : Uid) :
    s.db.assignments.get? uid = (s.history.current uid).map fun e => e.2.assignment := by
  rw [s.synced]
  simp only [Table.get?, History.opened, History.current, List.find?_map, Option.map_map]
  rfl

theorem occupant_eq (uid : Uid) : s.db.occupant station slot uid =
      (s.history.occupant station slot uid).map fun e => e.2.module := by
  rw [Db.occupant, s.synced]
  simp only [History.opened, History.occupant, List.find?_map, Option.map_map]
  rfl

theorem opened_of_moved {h h' : History} {station : Pk} {slot : String} {uid : Uid}
    {e : Pk × HistoryRow} (hrows : openRows h'.rows = h.moved station slot uid ++ [e])
    (hmodule : e.2.module = uid) (hassignment : e.2.assignment = ⟨some station, slot⟩) : h'.opened =
      (vacated h.opened uid ((h.occupant station slot uid).map fun e => e.2.module)).insert uid
        ⟨some station, slot⟩ := by
  have hfilter : ∀ (l : List (Pk × HistoryRow)) (v : Uid),
      (l.filter fun e => e.2.module ≠ v).map (fun e => (e.2.module, e.2.assignment)) =
        (l.map fun e => (e.2.module, e.2.assignment)).filter fun e => e.1 ≠ v := by
    intro l v
    rw [List.filter_map]
    rfl
  have hentries : (vacated h.opened uid
      ((h.occupant station slot uid).map fun e => e.2.module)).entries =
      (h.moved station slot uid).map fun e => (e.2.module, e.2.assignment) := by
    unfold History.moved vacated
    cases h.occupant station slot uid with
    | none => exact (hfilter _ uid).symm
    | some d =>
      simp only [Option.map_some]
      rw [hfilter, hfilter]
      rfl
  generalize vacated h.opened uid _ = closed at hentries ⊢
  have hfresh : uid ∉ closed.entries.map Prod.fst := by
    rw [hentries, List.map_map]
    intro hmem
    obtain ⟨f, hf, heq⟩ := List.mem_map.mp hmem
    exact (h.moved_elsewhere hf).2.1 heq
  rw [Table.insert, dif_neg hfresh]
  simp only [History.opened, hrows, List.map_append, hentries, List.map_cons, List.map_nil, hmodule,
    hassignment]

/-- **Assigning never fails**, and agrees with the database without closed
rows. -/
theorem applyAssignment_ok (uid : Uid) (user : Option Pk) :
    ∃ s', s.applyAssignment now station slot uid user = .ok s' ∧
      s'.db = s.db.applyAssignment station slot uid := by
  rw [Db.applyAssignment_eq, get?_assignments, occupant_eq]
  simp only [applyAssignment]
  split
  · exact ⟨s, rfl, rfl⟩
  · obtain ⟨h, pk, r, hmove, hrows, hmodule, hassignment⟩ :=
      s.history.move_ok now station slot uid user
    rw [hmove]
    refine ⟨_, rfl, ?_⟩
    have hopened := opened_of_moved hrows hmodule hassignment
    simp only [update, withHistory, hopened, s.synced, Option.isSome_map]

theorem ingestModule_ok (moduleId : Option String) (identity : Identity) (user : Option Pk)
    (cameOnline : Bool) :
    ∃ s' accepted, s.ingestModule now station slot moduleId identity user cameOnline =
        .ok (s', accepted) ∧ accepted = (s.db.accept now station slot moduleId identity).2 ∧
      (s'.db, accepted.isSome) =
        s.db.ingestModule now station slot moduleId identity cameOnline := by
  rw [Db.ingestModule_eq]
  simp only [ingestModule]
  cases (s.db.accept now station slot moduleId identity).2 with
  | none => exact ⟨_, none, rfl, rfl, rfl⟩
  | some uid =>
    obtain ⟨assigned, hassign, hdb⟩ := (s.update
      (fun db => (db.accept now station slot moduleId identity).1)
      fun _ => Db.accept_assignments ..).applyAssignment_ok now station slot uid user
    simp only [hassign]
    refine ⟨_, some uid, rfl, rfl, ?_⟩
    simp only [Db.ingestTail_eq, update, hdb, Option.isSome_some]

theorem closeAssignment_ok {e : Pk × HistoryRow} (he : e ∈ openRows s.history.rows) :
    ∃ s', closeAssignment now station s e = .ok s' ∧
      s'.db = Db.closeAssignment station s.db (e.2.module, e.2.assignment) ∧
      openRows s'.history.rows =
        (openRows s.history.rows).filter fun f => f.2.module ≠ e.2.module := by
  obtain ⟨h, hclose, hrows⟩ := s.history.close_ok now he
  have hopened : h.opened = s.history.opened.erase e.2.module := by
    simp only [History.opened, Table.erase, Table.filter, Table.mk.injEq, hrows, List.filter_map]
    rfl
  simp only [closeAssignment, hclose]
  refine ⟨_, rfl, ?_, hrows⟩
  rw [Db.closeAssignment_eq]
  simp only [update, withHistory, hopened, s.synced]
  rfl

/-- **Closing stale rows never fails**, and agrees with the database without
closed rows. -/
theorem reconcileStation_ok (trackedSlots : List String) (reported : List (String × Uid)) :
    ∃ s', s.reconcileStation now station trackedSlots reported = .ok s' ∧
      s'.db = s.db.reconcileStation station trackedSlots reported := by
  have hloop : ∀ (stale : List (Pk × HistoryRow)) (s : Store),
      (∀ e ∈ stale, e ∈ openRows s.history.rows) → (stale.map fun e => e.2.module).Nodup →
      ∃ s', stale.foldlM (closeAssignment now station) s = .ok s' ∧
        s'.db = (stale.map fun e => (e.2.module, e.2.assignment)).foldl
          (Db.closeAssignment station) s.db := by
    intro stale
    induction stale with
    | nil => exact fun s _ _ => ⟨s, rfl, rfl⟩
    | cons e stale ih =>
      intro s hmem hnodup
      obtain ⟨s₁, hclose, hdb, hrows⟩ := s.closeAssignment_ok now station
        (hmem e List.mem_cons_self)
      have hnodup' := List.nodup_cons.mp hnodup
      have hmem' : ∀ f ∈ stale, f ∈ openRows s₁.history.rows := by
        intro f hf
        rw [hrows]
        refine List.mem_filter.mpr ⟨hmem f (List.mem_cons_of_mem _ hf), ?_⟩
        have hne : f.2.module ≠ e.2.module := fun heq =>
          hnodup'.1 (List.mem_map.mpr ⟨f, hf, heq⟩)
        simpa using hne
      obtain ⟨s', hrest, hdb'⟩ := ih s₁ hmem' hnodup'.2
      refine ⟨s', ?_, by rw [hdb', hdb]; rfl⟩
      rw [List.foldlM_cons, hclose]
      exact hrest
  have hstale : s.db.assignments.entries.filter (fun e => e.2.station = some station ∧
      e.2.slot ∉ trackedSlots ∧ reported.lookup e.2.slot ≠ some e.1) =
      ((openRows s.history.rows).filter fun e => e.2.station = some station ∧
        e.2.slot ∉ trackedSlots ∧ reported.lookup e.2.slot ≠ some e.2.module).map
        fun e => (e.2.module, e.2.assignment) := by
    rw [s.synced]
    simp only [History.opened, List.filter_map]
    rfl
  simp only [reconcileStation, Db.reconcileStation, hstale]
  exact hloop _ s (fun e he => (List.mem_filter.mp he).1)
    (s.history.uniqModule.sublist (List.filter_sublist.map _))

end Store

end StationManager.Firmware
