import StationManager.Firmware.Drain
import StationManager.Lib.Text

/-!
# StationManager.Firmware.Api

The three endpoints of `reconcile_api_views.py` as transactions on the
database: `check` (one instruction or 204), `status` (progress and outcome of
a flash) and `commit` (the version after the flash).
-/

namespace StationManager.Firmware

/-! ## requests and responses -/

/-- The body of an instruction. -/
structure Instruction where
  convergenceId : RowKey
  moduleUid : Uid
  slot : String
  moduleType : String
  variant : String
  targetVersion : String
  artifact : Artifact
  downloadUrl : String
  checksumSha256 : String
  sizeBytes : Option Nat
deriving DecidableEq, Repr

/-- Responses of the endpoints, with the `detail` of an error. -/
inductive Response
  | ok
  | noContent
  | instruction (i : Instruction)
  | notFound (detail : String)
  | conflict (detail : String)
deriving DecidableEq, Repr

/-- Reported statuses that end an attempt. -/
inductive FlashError
  | failed
  | rolledBack
  | rejected
deriving DecidableEq, Repr

/-- The `status` choices of `ReconcileStatusSerializer`. -/
inductive StatusReport
  | progress (phase : Phase)
  | error (e : FlashError)
deriving DecidableEq, Repr

def FlashError.value : FlashError → String
  | .failed => "failed"
  | .rolledBack => "rolled_back"
  | .rejected => "rejected"

def StatusReport.value : StatusReport → String
  | .progress phase => phase.value
  | .error e => e.value

/-- The table `_STATUS_TO_ERROR`. -/
def FlashError.mode : FlashError → ErrorMode
  | .failed => .transient
  | .rolledBack => .rolledBack
  | .rejected => .rejected

/-- The table `_STATUS_TO_AUDIT`. -/
def FlashError.event : FlashError → EventType
  | .failed => .moduleFlashFailed
  | .rolledBack => .moduleFlashRolledBack
  | .rejected => .moduleFlashRejected

def errorMessageMaxLen : Nat := 500

/-- Truncate an agent-supplied error text, never reject it. -/
def validateErrorMessage (value : String) : String :=
  if errorMessageMaxLen < value.length then
    String.ofList (value.toList.take (errorMessageMaxLen - 1)) ++ "…"
  else value

/-- Rows the reconciler has given up on (`_GIVEN_UP`): no callback may mutate
them. -/
def State.givenUp : State → Bool
  | .quarantined | .failed | .notUpdatable => true
  | .ok | .updating => false

def noStationDetail : String := "No station linked to this device key."

/-- Prefix of the agent's DFU-stuck error. -/
def dfuStuckPrefix : String := "Modul hängt im DFU-Modus"

def isDfuStuck (message : String) : Bool := dfuStuckPrefix.toList.isPrefixOf message.toList

def withKeyHint (message : String) (module : Module) (release : Release) (mode : ErrorMode) :
    String :=
  if keyHintApplies module release (some mode) then message ++ s!" {keyUnknownHint}" else message

/-! ## the row updates of the endpoints -/

/-- The conditional UPDATE of `_mark_instructed`; a queryset update leaves
`updated_at` alone. -/
def instructRow (now : Time) (cs : ConvergenceState) : ConvergenceState :=
  { cs with instructedAt := some now, phase := none, phaseAt := none }

/-- A progress report restarts the transient count at `verifying` and drops a
stale DFU-stuck notice. -/
def progressCleanup (phase : Phase) (now : Time) (cs : ConvergenceState) : ConvergenceState :=
  let cs := if phase = .verifying ∧ cs.transientFailures ≠ 0 then
      { cs with transientFailures := 0, updatedAt := now } else cs
  if isDfuStuck cs.lastErrorMessage then { cs with lastErrorMessage := "", updatedAt := now }
  else cs

/-- A progress report on a row; a repeated phase changes no phase. -/
def progressRow (phase : Phase) (now : Time) (cs : ConvergenceState) : ConvergenceState :=
  let cs := progressCleanup phase now cs
  if cs.phase = some phase then cs
  else
    { cs with
      phase := some phase
      phaseAt := some now
      -- the first phase of an attempt marks the row as a resume for `check`
      lastAttemptAt :=
        if cs.phase = none ∧ cs.lastAttemptAt = none then some now else cs.lastAttemptAt
      updatedAt := now }

/-- A progress report touches the phase, the clock columns, the notice and the
transient count, which it can only lower. -/
theorem progressRow_keeps (phase : Phase) (now : Time) (cs : ConvergenceState) :
    (progressRow phase now cs).state = cs.state ∧
      (progressRow phase now cs).attempts = cs.attempts ∧
      (progressRow phase now cs).reasonCode = cs.reasonCode ∧
      (progressRow phase now cs).stateBeforeNotUpdatable = cs.stateBeforeNotUpdatable ∧
      (progressRow phase now cs).transientFailures ≤ cs.transientFailures := by
  have hclean : (progressCleanup phase now cs).state = cs.state ∧
      (progressCleanup phase now cs).attempts = cs.attempts ∧
      (progressCleanup phase now cs).reasonCode = cs.reasonCode ∧
      (progressCleanup phase now cs).stateBeforeNotUpdatable = cs.stateBeforeNotUpdatable ∧
      (progressCleanup phase now cs).transientFailures ≤ cs.transientFailures := by
    unfold progressCleanup
    simp only
    split <;> split <;> simp
  unfold progressRow
  simp only
  split <;> exact hclean

/-- The audit entry of a phase change. -/
def progressAudit (uid : Uid) (release : Release) (phase : Phase) (cs : ConvergenceState) :
    List (EventType × String) :=
  match cs.phase with
  | none => [(.moduleFlashStarted, s!"Module {uid} flash started (target {release.version}).")]
  | some old =>
    if old = phase then []
    else [(.moduleFlashPhase, s!"Modul {uid}: Phase {old.value} → {phase.value}.")]

/-- An accepted commit ends the attempt and resets the transient count. -/
def commitRow (now : Time) (cs : ConvergenceState) : ConvergenceState :=
  { cs.endAttempt with transientFailures := 0, updatedAt := now }

/-! ## check -/

/-- The body of an instruction for row `k`. -/
def makeInstruction (db : Db) (k : RowKey) (module : Module) (slot : String) (release : Release)
    (artifact : Artifact) : Instruction :=
  let url := s!"/api/v1/module-firmware/{k.targetRelease}/download/"
  { convergenceId := k
    moduleUid := k.module
    slot := slot
    moduleType := ((db.moduleTypes.get? module.moduleType).map (·.key)).getD ""
    variant := module.variant
    targetVersion := release.version
    artifact := artifact
    downloadUrl := if artifact = .sim then url ++ "?artifact=sim" else url
    checksumSha256 := if artifact = .sim then release.simSha256 else release.sha256
    sizeBytes := if artifact = .sim then release.simSizeBytes else some release.sizeBytes }

/-- The candidates of the check's loop: a mid-flight instruction and the first
fresh drift. -/
structure Candidates where
  resume : Option Instruction := none
  firstDrift : Option Instruction := none
deriving DecidableEq, Repr

/-- A row is a resume once the agent has started flashing it. -/
def Candidates.offer (c : Candidates) (i : Instruction) (cs : ConvergenceState) : Candidates :=
  if cs.lastAttemptAt.isSome then { c with resume := c.resume.orElse fun _ => some i }
  else { c with firstDrift := c.firstDrift.orElse fun _ => some i }

def Candidates.chosen (c : Candidates) : Option Instruction :=
  c.resume.orElse fun _ => c.firstDrift

namespace Db

/-- Any control lock of the station is held. -/
def lockHeld (db : Db) (station : Pk) : Bool :=
  db.locks.entries.any fun e => e.1.1 = station ∧ e.2.holder.isSome

/-- What the loop offers for one module whose reconcile returned `active`. -/
def offerFor (db : Db) (backends : List Artifact) (slot : String) (active : Option RowKey)
    (c : Candidates) : Candidates :=
  match active with
  | none => c
  | some k => match db.fetchRow k with
      | none => c
      | some (cs, module, release) =>
        if cs.state ≠ .updating then c
        else match executableArtifact module (some release) backends with
          | none => c
          | some artifact => c.offer (makeInstruction db k module slot release artifact) cs

/-- One pass of the check's loop. -/
def checkModule (now : Time) (backends : List Artifact) (s : Db × Candidates)
    (a : Uid × Assignment) : Db × Candidates :=
  let r := s.1.reconcileModule now a.1
  (r.1, r.1.offerFor backends a.2.slot r.2 s.2)

/-- The source's `_mark_instructed`: the conditional UPDATE and whether the
instruction may be handed out. -/
def markInstructed (db : Db) (now : Time) (station : Pk) (i : Instruction) : Db × Bool :=
  match db.rows.get? i.convergenceId with
  | none => (db, false)
  | some cs =>
    if cs.state = .updating then
      if cs.instructedAt = none ∨ cs.phase ≠ none then
        ((db.putRow i.convergenceId (instructRow now cs)).log
          [⟨some station, i.moduleUid, .moduleFlashInstructed,
            s!"Modul {i.moduleUid}: Update-Anweisung auf {i.targetVersion} " ++
              s!"ausgegeben ({i.artifact.value}).", some i.convergenceId⟩], true)
      else (db, true)
    else (db, false)

/-- The loop over the station's open assignments. -/
def checkLoop (db : Db) (now : Time) (station : Pk) (backends : List Artifact) : Db × Candidates :=
  (db.openAssignments station).foldl (checkModule now backends) (db, {})

/-- The end of the check: mark the chosen row, then answer. -/
def answer (db : Db) (now : Time) (station : Pk) (c : Candidates) : Db × Response :=
  match c.chosen with
  | none => (db, .noContent)
  | some i =>
    let r := db.markInstructed now station i
    (r.1, if r.2 then .instruction i else .noContent)

/-- The view `ReconcileCheckView.post`.  The station of a device key exists. -/
def check (db : Db) (now : Time) (station : Option Pk) : Db × Response :=
  match station with
  | none => (db, .notFound noStationDetail)
  | some pk => match db.stations.get? pk with
      | none => (db, .notFound noStationDetail)
      | some st =>
        -- idle gate, before reconciling
        if db.lockHeld pk then (db, .noContent)
        else
          let r := db.checkLoop now pk (moduleOtaBackends st)
          r.1.answer now pk r.2

/-! ## status and commit -/

/-- The module is currently assigned to this station. -/
def boundTo (db : Db) (uid : Uid) (station : Pk) : Bool :=
  ((db.assignments.get? uid).map (·.station)) = some (some station)

/-- Append audit entries for row `k`. -/
def audit (db : Db) (k : RowKey) (station : Pk) (es : List (EventType × String)) : Db :=
  db.log (es.map fun e => ⟨some station, k.module, e.1, e.2, some k⟩)

/-- A callback rejected on a given-up row. -/
def conflictOn (db : Db) (k : RowKey) (station : Pk) (cs : ConvergenceState) (what : String) :
    Db × Response :=
  let label := stateLabel cs.state.value
  (db.audit k station
    [(.moduleFlashConflict, s!"Modul {k.module}: {what} abgelehnt – Zustand {label}.")],
    .conflict s!"Convergence is {cs.state.value}; no updates accepted.")

/-- The outcome audit that precedes `record_error`. -/
def flashErrorMessage (uid : Uid) (module : Module) (release : Release) (e : FlashError)
    (errorMessage : String) : String :=
  let message := s!"Module {uid} flash {e.value} (target {release.version})."
  withKeyHint (if errorMessage ≠ "" then message ++ s!" Error: {errorMessage}" else message)
    module release e.mode

/-- An accepted status report. -/
def applyStatus (db : Db) (now : Time) (pk : Pk) (k : RowKey) (cs : ConvergenceState)
    (module : Module) (release : Release) (status : StatusReport) (errorMessage : String) : Db :=
  match status with
  | .error e =>
    (db.audit k pk [(e.event, flashErrorMessage k.module module release e errorMessage)]).recordError
      now k e.mode errorMessage (some pk)
  | .progress phase =>
    (db.putRow k (progressRow phase now cs)).audit k pk (progressAudit k.module release phase cs)

/-- The view `ReconcileStatusUpdateView.post`. -/
def statusUpdate (db : Db) (now : Time) (station : Option Pk) (k : RowKey) (status : StatusReport)
    (errorMessage : String) : Db × Response :=
  match station with
  | none => (db, .notFound noStationDetail)
  | some pk => match db.fetchRow k with
      | none => (db, .notFound "Convergence not found.")
      | some (cs, module, release) =>
        if ¬db.boundTo k.module pk then (db, .notFound "Convergence not bound to this station.")
        else if cs.state.givenUp then db.conflictOn k pk cs s!"Status '{status.value}'"
        else if cs.state = .ok then
          (db, .conflict "Convergence is terminal; no updates accepted.")
        else
          (db.applyStatus now pk k cs module release status (validateErrorMessage errorMessage),
            .ok)

/-- The events `_FLASH_LIFECYCLE` that bound an attempt. -/
def isFlashLifecycle (e : EventType) : Bool :=
  e ∈ [.moduleFlashInstructed, .moduleFlashStarted, .moduleFlashPhase, .moduleFlashSuccess,
    .moduleFlashFailed, .moduleFlashRolledBack, .moduleFlashRejected, .moduleFlashGaveUp,
    .moduleFlashRetry, .moduleFlashConflict]

/-- The module's newest flash-lifecycle entry is already this success. -/
def isRepeatedCommit (db : Db) (uid : Uid) (message : String) : Bool :=
  ((db.auditLog.reverse.find? fun e => e.module = uid ∧ isFlashLifecycle e.eventType).map
    fun e => (e.eventType, e.message)) = some (.moduleFlashSuccess, message)

/-- A commit that reports another version: `rolled_back`. -/
def commitMismatch (db : Db) (now : Time) (pk : Pk) (k : RowKey) (module : Module)
    (release : Release) (version : String) : Db :=
  (db.audit k pk [(.moduleFlashRolledBack, withKeyHint
    (s!"Module {k.module} commit rejected: reports {reprStr version}, " ++
      s!"target {reprStr release.version}.") module release .rolledBack)]).recordError now k
    .rolledBack s!"Commit version {reprStr version} != target {reprStr release.version}." (some pk)

/-- Audit an accepted commit, once per attempt. -/
def auditCommit (db : Db) (pk : Pk) (k : RowKey) (message : String) : Db :=
  if db.isRepeatedCommit k.module message then db
  else db.audit k pk [(.moduleFlashSuccess, message)]

/-- A commit that reports the target version: log it, end the attempt, then
derive the state from what the module really reports. -/
def commitAccept (db : Db) (now : Time) (pk : Pk) (k : RowKey) (cs : ConvergenceState)
    (version : String) : Db :=
  let logged := db.auditCommit pk k s!"Module {k.module} committed version {version}."
  ((logged.putRow k (commitRow now cs)).reconcileModule now k.module).1

/-- The view `ReconcileCommitView.post`. -/
def commit (db : Db) (now : Time) (station : Option Pk) (k : RowKey) (version : String) :
    Db × Response :=
  match station with
  | none => (db, .notFound noStationDetail)
  | some pk => match db.fetchRow k with
      | none => (db, .notFound "Convergence not found.")
      | some (cs, module, release) =>
        if ¬db.boundTo k.module pk then (db, .notFound "Convergence not bound to this station.")
        else if cs.state.givenUp then db.conflictOn k pk cs s!"Commit '{version}'"
        else if version ≠ release.version then
          (db.commitMismatch now pk k module release version,
            .conflict "Version mismatch — recorded as rolled_back.")
        else (db.commitAccept now pk k cs version, .ok)

/-! ## what the endpoints' audits leave alone -/

theorem auditCommit_rows (db : Db) (pk : Pk) (k : RowKey) (message : String) :
    (db.auditCommit pk k message).rows = db.rows := by
  unfold auditCommit
  split <;> rfl

end Db

end StationManager.Firmware
