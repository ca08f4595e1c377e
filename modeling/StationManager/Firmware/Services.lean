import StationManager.Firmware.Api

/-!
# StationManager.Firmware.Services

The operator actions of `services.py` on convergence rows: releasing the live
quarantine of a module and retrying a failed update.  Both bring the module up
to date with its current target first, touch one row, and reconcile again.
-/

namespace StationManager.Firmware

/-- What `release_quarantine` writes to the row it picks. -/
def releaseRow (now : Time) (cs : ConvergenceState) : ConvergenceState :=
  { cs with
    state := .updating, attempts := 0, transientFailures := 0, lastErrorMode := none,
    lastErrorMessage := "", stateBeforeNotUpdatable := none, updatedAt := now }

/-- What `retry_failed` writes to the row of the current target. -/
def retryRow (now : Time) (cs : ConvergenceState) : ConvergenceState :=
  { cs.endAttempt with
    state := .updating, transientFailures := 0, reasonCode := none,
    stateBeforeNotUpdatable := none, updatedAt := now }

namespace Db

/-- All quarantined rows of a module, latest first: `updated_at` descending,
then the newer row. -/
def quarantinedStates (db : Db) (uid : Uid) : List (RowKey × ConvergenceState) :=
  ((db.rows.entries.filter fun e => e.1.module = uid ∧ e.2.state = .quarantined).reverse).insertionSort
    fun a b => b.2.updatedAt ≤ a.2.updatedAt

/-- The row is for the version of `target` on this module's type and
variant. -/
def isForTarget (db : Db) (module : Module) (target : Target) (k : RowKey) : Bool :=
  match db.releases.table.get? k.targetRelease with
  | none => false
  | some rel =>
    rel.moduleType = module.moduleType ∧ rel.variant = module.variant ∧
      rel.version = target.version

/-- The single live quarantine of a module: none unless the rollup is
quarantined; the row of the current target if it is quarantined, else the
latest one. -/
def currentQuarantine (db : Db) (uid : Uid) : Option RowKey :=
  match db.modules.get? uid with
  | none => none
  | some module =>
    if module.firmwareConvergence ≠ .quarantined then none
    else
      let states := (db.quarantinedStates uid).map Prod.fst
      match db.targetForModule uid module with
      | none => states.head?
      | some target => (states.find? (db.isForTarget module target)).orElse fun _ => states.head?

/-- The version of a row's release. -/
def targetVersion (db : Db) (k : RowKey) : String :=
  ((db.releases.table.get? k.targetRelease).map (·.version)).getD ""

/-- Audit entry of an operator action, under the module's open assignment. -/
def auditAction (db : Db) (k : RowKey) (event : EventType) (message : String) : Db :=
  db.log [⟨db.openAssignmentStation k.module, k.module, event, message, some k⟩]

/-- The row `release_quarantine` picks, after its first reconcile. -/
def releasePick (db : Db) (now : Time) (uid : Uid) : Option RowKey :=
  (db.reconcileModule now uid).1.currentQuarantine uid

/-- The source's `release_quarantine`; returns the released target versions. -/
def releaseQuarantine (db : Db) (now : Time) (uid : Uid) (auditSuffix : String) :
    Db × List String :=
  let db₁ := (db.reconcileModule now uid).1
  match db₁.currentQuarantine uid with
  | none => (db₁, [])
  | some k =>
    let version := db₁.targetVersion k
    let db₂ := ((db₁.setRow k (releaseRow now)).reconcileModule now uid).1
    (db₂.auditAction k .moduleQuarantineReleased
      s!"Quarantine released for module {uid}: {version}.{auditSuffix}", [version])

/-- The row `retry_failed` retries: the active row, if it is failed. -/
def retryPick (db : Db) (now : Time) (uid : Uid) : Option RowKey :=
  let r := db.reconcileModule now uid
  r.2.filter fun k => (r.1.rows.get? k).map (·.state) = some .failed

/-- The source's `retry_failed`; returns the retried target versions. -/
def retryFailed (db : Db) (now : Time) (uid : Uid) (auditSuffix : String) : Db × List String :=
  let db₁ := (db.reconcileModule now uid).1
  match db.retryPick now uid with
  | none => (db₁, [])
  | some k =>
    let version := db₁.targetVersion k
    let db₂ := ((db₁.setRow k (retryRow now)).reconcileModule now uid).1
    (db₂.auditAction k .moduleFlashRetry
      s!"Update für Modul {uid} wird erneut versucht: {version}.{auditSuffix}", [version])

end Db

/-! ## the picked rows -/

theorem mem_quarantinedStates {db : Db} {uid : Uid} {e : RowKey × ConvergenceState} :
    e ∈ db.quarantinedStates uid ↔
      db.rows.get? e.1 = some e.2 ∧ e.1.module = uid ∧ e.2.state = .quarantined := by
  simp only [Db.quarantinedStates, List.mem_insertionSort, List.mem_reverse, List.mem_filter,
    decide_eq_true_eq]
  rw [← Table.mem_entries_iff]

/-- The live quarantine is a stored, quarantined row of the module. -/
theorem currentQuarantine_spec {db : Db} {uid : Uid} {k : RowKey}
    (h : db.currentQuarantine uid = some k) :
    k.module = uid ∧ ∃ cs, db.rows.get? k = some cs ∧ cs.state = .quarantined := by
  have hmem : k ∈ (db.quarantinedStates uid).map Prod.fst := by
    unfold Db.currentQuarantine at h
    split at h
    · cases h
    · split at h
      · cases h
      · simp only at h
        split at h
        · exact List.mem_of_head? h
        · cases hfind : ((db.quarantinedStates uid).map Prod.fst).find? _ with
          | some j =>
            rw [hfind] at h
            cases h
            exact List.mem_of_find?_eq_some hfind
          | none =>
            rw [hfind] at h
            exact List.mem_of_head? h
  obtain ⟨e, he, rfl⟩ := List.mem_map.mp hmem
  obtain ⟨hrow, hmod, hst⟩ := mem_quarantinedStates.mp he
  exact ⟨hmod, e.2, hrow, hst⟩

/-- The retried row is the active row of the module, and it is failed. -/
theorem retryPick_spec {db : Db} {now : Time} {uid : Uid} {k : RowKey}
    (h : db.retryPick now uid = some k) : (db.reconcileModule now uid).2 = some k ∧
      ∃ cs, (db.reconcileModule now uid).1.rows.get? k = some cs ∧ cs.state = .failed := by
  simp only [Db.retryPick, Option.filter_eq_some_iff, decide_eq_true_eq,
    Option.map_eq_some_iff] at h
  exact h

end StationManager.Firmware
