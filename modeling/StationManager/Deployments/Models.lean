import StationManager.Lib.Table

/-!
# StationManager.Deployments.Models

The tables of `apps.deployments`, with the columns of `apps.stations` and
`apps.images` that its code reads, as one database value.

A result is addressed by the pair (deployment, station) that the schema makes
unique.  The status classes are the source's own sets; every status is in
exactly one of terminal and non-terminal (`isNonTerminal_eq_not`).
-/

namespace StationManager.Deployments

/-! ## enumerations -/

/-- Choices of `Deployment.status`. -/
inductive DeploymentStatus
  | pending
  | inProgress
  | completed
  | failed
  | cancelled
deriving DecidableEq, Repr

/-- The stored choice value. -/
def DeploymentStatus.value : DeploymentStatus → String
  | .pending => "pending"
  | .inProgress => "in_progress"
  | .completed => "completed"
  | .failed => "failed"
  | .cancelled => "cancelled"

/-- Choices of `Deployment.target_type`. -/
inductive TargetType
  | group
  | station
  | all
deriving DecidableEq, Repr

/-- Choices of `DeploymentResult.status`. -/
inductive ResultStatus
  | pending
  | downloading
  | installing
  | rebooting
  | verifying
  | success
  | failed
  | rolledBack
  | cancelled
  | superseded
deriving DecidableEq, Repr

namespace ResultStatus

/-- The stored choice value. -/
def value : ResultStatus → String
  | pending => "pending"
  | downloading => "downloading"
  | installing => "installing"
  | rebooting => "rebooting"
  | verifying => "verifying"
  | success => "success"
  | failed => "failed"
  | rolledBack => "rolled_back"
  | cancelled => "cancelled"
  | superseded => "superseded"

/-- The choice's display label. -/
def label : ResultStatus → String
  | pending => "Pending"
  | downloading => "Downloading"
  | installing => "Installing"
  | rebooting => "Rebooting"
  | verifying => "Verifying"
  | success => "Success"
  | failed => "Failed"
  | rolledBack => "Rolled Back"
  | cancelled => "Cancelled"
  | superseded => "Superseded"

/-- The source's `ACTIVE_STATUSES`: the agent is working the result. -/
def activeStatuses : List ResultStatus := [downloading, installing, rebooting, verifying]

/-- The source's `NON_TERMINAL_STATUSES`. -/
def nonTerminalStatuses : List ResultStatus := pending :: activeStatuses

/-- The source's `TERMINAL_STATUSES`. -/
def terminalStatuses : List ResultStatus := [success, failed, rolledBack, cancelled, superseded]

def isNonTerminal (s : ResultStatus) : Bool := s ∈ nonTerminalStatuses

def isTerminal (s : ResultStatus) : Bool := s ∈ terminalStatuses

/-- The two failure outcomes. -/
def isFailure (s : ResultStatus) : Bool := s ∈ [failed, rolledBack]

theorem isNonTerminal_eq_not (s : ResultStatus) : s.isNonTerminal = !s.isTerminal := by
  cases s <;> rfl

/-- The statuses that `DeploymentCommitView` looks for. -/
def committable (s : ResultStatus) : Bool := s ∈ [rebooting, verifying, installing]

theorem committable_isTerminal {s : ResultStatus} (h : s.committable = true) :
    s.isTerminal = false := by
  cases s <;> first | rfl | cases h

end ResultStatus

/-! ## rows -/

structure RolloutGroup where
  name : String
  channel : String
deriving DecidableEq, Repr

structure ImageRelease where
  tag : String
  machine : String
  channel : String
  rootfsS3Key : String
  rootfsSha256 : String
  rootfsSizeBytes : Option Int
  importedAt : Time
  archived : Bool
deriving DecidableEq, Repr

/-- The rootfs artifact and the metadata of an OTA update exist. -/
def ImageRelease.isOtaReady (r : ImageRelease) : Bool :=
  r.rootfsS3Key ≠ "" ∧ r.rootfsSha256 ≠ "" ∧ r.rootfsSizeBytes.any fun n => 0 < n

structure Station where
  name : String
  currentImageRelease : Option Pk
  rolloutGroup : Option Pk
  currentOsVersion : String
deriving DecidableEq, Repr

/-- An entry of `Deployment.skipped_stations`. -/
structure SkippedStation where
  stationId : Pk
  stationName : String
  reason : String
  message : String
deriving DecidableEq, Repr

structure Deployment where
  imageTag : String
  imageChannel : String
  targetType : TargetType
  targetGroup : Option Pk
  targetStation : Option Pk
  status : DeploymentStatus
  skippedStations : List SkippedStation
  createdAt : Time
deriving DecidableEq, Repr

/-- The unique pair of a result. -/
structure ResultKey where
  deployment : Pk
  station : Pk
deriving DecidableEq, Repr

structure DeploymentResult where
  imageRelease : Pk
  status : ResultStatus := .pending
  startedAt : Option Time := none
  completedAt : Option Time := none
  errorMessage : String := ""
  previousVersion : String := ""
  newVersion : String := ""
deriving DecidableEq, Repr

/-- The tables. -/
structure Db where
  stations : Table Pk Station
  groups : Table Pk RolloutGroup
  images : Table Pk ImageRelease
  deployments : Table Pk Deployment
  results : Table ResultKey DeploymentResult

/-! ## queries and updates -/

namespace Db

/-- `deployment.results.values_list("status")`. -/
def childStatuses (db : Db) (d : Pk) : List ResultStatus :=
  db.results.entries.filterMap fun e => if e.1.deployment = d then some e.2.status else none

theorem mem_childStatuses (db : Db) (d : Pk) (s : ResultStatus) : s ∈ db.childStatuses d ↔
      ∃ station r, db.results.get? ⟨d, station⟩ = some r ∧ r.status = s := by
  simp only [childStatuses, List.mem_filterMap]
  constructor
  · rintro ⟨⟨⟨d', station⟩, r⟩, hmem, hif⟩
    split at hif
    · next hd =>
      cases hd
      exact ⟨station, r, (Table.mem_entries_iff ..).mp hmem, Option.some.inj hif⟩
    · cases hif
  · rintro ⟨station, r, hr, rfl⟩
    exact ⟨(⟨d, station⟩, r), (Table.mem_entries_iff ..).mpr hr, if_pos rfl⟩

/-- The rows of `deployment.results` that are not finished. -/
def openResults (db : Db) (d : Pk) : List ResultKey :=
  (db.results.entries.filter fun e => e.1.deployment = d ∧ e.2.status.isNonTerminal).map Prod.fst

theorem mem_openResults (db : Db) (d : Pk) (k : ResultKey) : k ∈ db.openResults d ↔
      k.deployment = d ∧ ∃ r, db.results.get? k = some r ∧ r.status.isNonTerminal = true := by
  simp only [openResults, List.mem_map, List.mem_filter, decide_eq_true_eq]
  constructor
  · rintro ⟨⟨j, r⟩, ⟨hmem, hd, hopen⟩, rfl⟩
    exact ⟨hd, r, (Table.mem_entries_iff ..).mp hmem, hopen⟩
  · rintro ⟨hd, r, hr, hopen⟩
    exact ⟨(k, r), ⟨(Table.mem_entries_iff ..).mpr hr, hd, hopen⟩, rfl⟩

/-- Rewrite one result. -/
def setResult (db : Db) (k : ResultKey) (f : DeploymentResult → DeploymentResult) : Db :=
  { db with results := db.results.modify k f }

/-- Rewrite one station. -/
def setStation (db : Db) (pk : Pk) (f : Station → Station) : Db :=
  { db with stations := db.stations.modify pk f }

/-- Set the status of a deployment. -/
def setStatus (db : Db) (d : Pk) (status : DeploymentStatus) : Db :=
  { db with deployments := db.deployments.modify d fun dep => { dep with status } }

/-- The status of a deployment. -/
def statusOf (db : Db) (d : Pk) : Option DeploymentStatus := (db.deployments.get? d).map (·.status)

@[simp] theorem setStatus_results (db : Db) (d : Pk) (status : DeploymentStatus) :
    (db.setStatus d status).results = db.results := rfl

theorem setStatus_statusOf (db : Db) (d e : Pk) (status : DeploymentStatus) :
    (db.setStatus d status).statusOf e =
      if e = d then (db.statusOf e).map fun _ => status else db.statusOf e := by
  simp only [statusOf, setStatus, Table.get?_modify]
  split
  · simp [Option.map_map, Function.comp_def]
  · rfl

end Db

/-! ## writes of a result -/

namespace DeploymentResult

/-- An accepted status report. -/
def report (r : DeploymentResult) (now : Time) (status : ResultStatus) (message : String) :
    DeploymentResult :=
  let r := { r with status, startedAt := r.startedAt.or (some now) }
  if status.isFailure then { r with completedAt := some now, errorMessage := message } else r

/-- A commit of the deployed version. -/
def commit (r : DeploymentResult) (now : Time) (version : String) : DeploymentResult :=
  { r with status := .success, completedAt := some now, newVersion := version }

/-- A commit of another version: the bootloader has rolled back. -/
def rollBack (r : DeploymentResult) (now : Time) (version message : String) : DeploymentResult :=
  { r with
    status := .rolledBack, completedAt := some now, newVersion := version, errorMessage := message }

def supersede (r : DeploymentResult) (now : Time) : DeploymentResult :=
  { r with status := .superseded, completedAt := some now }

def cancel (r : DeploymentResult) (now : Time) : DeploymentResult :=
  { r with
    status := .cancelled, completedAt := some now
    errorMessage := "Parent deployment was cancelled." }

@[simp] theorem report_status (r : DeploymentResult) (now : Time) (status : ResultStatus)
    (message : String) : (r.report now status message).status = status := by
  unfold report
  simp only
  split <;> rfl

end DeploymentResult

end StationManager.Deployments
