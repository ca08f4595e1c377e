import StationManager.Firmware.DrainCheck

/-!
# StationManager.Firmware.UpdateStatus

The display state of a module (`update_status.py`): a pure read that mirrors
the reconciler's decision on the stored row and the gates of the check.
-/

namespace StationManager.Firmware

/-- The display states. -/
inductive UpdateState
  | noTarget
  | current
  | quarantined
  | notUpdatable
  | failed
  | waiting
  | running
  | pending
deriving DecidableEq, Repr

/-- Why a module waits. -/
inductive WaitReason
  | agentNoModuleOta
  | noReleaseForVariant
  | noArtifact
  | stationOffline
  | stationBusy
deriving DecidableEq, Repr

/-- The reason codes of the display: wait reasons, stored row reasons and
quarantine modes (`REASON_CODES`). -/
inductive DisplayReason
  | wait (r : WaitReason)
  | row (r : ReasonCode)
  | rejected
  | rolledBack
deriving DecidableEq, Repr

structure UpdateStatus where
  state : UpdateState
  phase : Option Phase := none
  reasonCode : Option DisplayReason := none
  reasonText : String
  since : Option Time := none
deriving DecidableEq, Repr

/-- The two fields that API clients decide on. -/
def UpdateStatus.verdict (s : UpdateStatus) : UpdateState × Option DisplayReason :=
  (s.state, s.reasonCode)

/-! ## texts -/

def Phase.text : Phase → String
  | .downloading => "Download"
  | .flashing => "Flashen"
  | .verifying => "Prüfen"

def offlineText : String := "Wartet: Station offline"

def noModuleOtaText : String := "Wartet: Station-Agent kann keine Module flashen (Image zu alt)"

def busyText : String := "Wartet: Station belegt (Bedienung aktiv)"

def waitingStatus (reason : WaitReason) (text : String) : UpdateStatus :=
  { state := .waiting, reasonCode := some (.wait reason), reasonText := text }

def notUpdatableStatus (module : Module) (since : Option Time) : UpdateStatus :=
  { state := .notUpdatable, reasonCode := some (.row .bootKeyMismatch),
    reasonText := notUpdatableText module, since := since }

def failedStatus (lastErrorMessage : String) (since : Option Time) : UpdateStatus :=
  let message :=
    if lastErrorMessage = "" then "Update mehrfach fehlgeschlagen" else lastErrorMessage
  { state := .failed, reasonCode := some (.row .transientLimit),
    reasonText := s!"Fehler: {message}", since := since }

/-- The status of a quarantined row; only the two quarantine modes are reason
codes. -/
def quarantineStatus (module : Module) (release : Release) (row : ConvergenceState) :
    UpdateStatus :=
  let detail := s!"Update {row.attempts}× zurückgerollt"
  { state := .quarantined
    reasonCode := match row.lastErrorMode with
      | some .rejected => some .rejected
      | some .rolledBack => some .rolledBack
      | _ => none
    reasonText :=
      if row.lastErrorMode = some .rejected then "Quarantäne (vom Modul abgelehnt)"
      else if keyHintApplies module release row.lastErrorMode then
        s!"Quarantäne ({detail} – {keyUnknownHint})"
      else s!"Quarantäne ({detail})"
    since := some row.updatedAt }

/-! ## the decision -/

/-- What the next reconcile would make of a row whose keys are not known to
differ: the state, and whether it starts over with fresh counters. -/
def mirroredState (module : Module) (release : Release) (row : ConvergenceState) : State × Bool :=
  if row.state = .notUpdatable ∧ keysMatch module release then
    match row.stateBeforeNotUpdatable with
    | some before => (before, false)
    | none => (.updating, true)
  else (row.state, false)

/-- The gates behind the row states: offline, running, backend, release,
artifact, busy. -/
def gates (module : Module) (station : Station) (target : Target) (release : Option Release)
    (row : Option ConvergenceState) (busy : Bool) (now : Time) : UpdateStatus :=
  if ¬isOnline station now then waitingStatus .stationOffline offlineText
  else match row.bind (·.phase) with
    | some phase =>
      { state := .running, phase := some phase, reasonText := s!"Update läuft: {phase.text}",
        since := row.bind (·.phaseAt) }
    | none =>
      if artifactFor module ∉ moduleOtaBackends station then
        waitingStatus .agentNoModuleOta noModuleOtaText
      else match release with
        | none =>
          let variant := if module.variant = "" then "–" else module.variant
          waitingStatus .noReleaseForVariant
            s!"Wartet: Keine Firmware {target.version} für Variante {variant} vorhanden"
        | some r =>
          if executableArtifact module (some r) (moduleOtaBackends station) = none then
            let artifact := (artifactFor module).value
            waitingStatus .noArtifact
              s!"Wartet: Release enthält kein passendes Artefakt ({artifact})"
          else if busy then waitingStatus .stationBusy busyText
          else
            { state := .pending, reasonText := "Update ausstehend",
              since := row.map (·.createdAt) }

/-- The part of the decision that looks at a stored row. -/
def rowStatus (module : Module) (station : Station) (target : Target) (release : Release)
    (row : ConvergenceState) (busy : Bool) (now : Time) : UpdateStatus :=
  let (state, released) := mirroredState module release row
  let atCap := state = .updating ∧ ¬released ∧ drainTransientLimit ≤ row.transientFailures
  if state = .quarantined then quarantineStatus module release row
  else if state = .notUpdatable then notUpdatableStatus module (some row.updatedAt)
  else if state = .failed ∨ atCap then failedStatus row.lastErrorMessage (some row.updatedAt)
  else gates module station target (some release) (some row) busy now

/-- The priority table of `update_status._decide`, first match wins. -/
def updateStatusDecide (module : Module) (station : Option Station) (target : Option Target)
    (release : Option Release) (row : Option ConvergenceState) (busy : Bool) (now : Time) :
    UpdateStatus :=
  match station, target with
  | some st, some t =>
    if module.lastReportedVersion = t.version then { state := .current, reasonText := "Aktuell" }
    else match release with
      | none => gates module st t none none busy now
      | some r =>
        if bootKeyMismatch module r then notUpdatableStatus module (row.map (·.updatedAt))
        else match row with
          | none => gates module st t (some r) none busy now
          | some cs => rowStatus module st t r cs busy now
  | _, _ => { state := .noTarget, reasonText := "Kein Ziel" }

namespace Db

/-- The target lookup of `_resolve`: over all targets of the module type. -/
def displayTarget (db : Db) (pk : Pk) (station : Station) (moduleType : Pk) : Option Target :=
  resolveEffectiveTarget pk station (db.targets.filter fun t => t.moduleType = moduleType)

/-- The source's `module_update_status`, for a stored module. -/
def moduleUpdateStatus (db : Db) (now : Time) (uid : Uid) : Option UpdateStatus :=
  (db.modules.get? uid).map fun module =>
    match db.openStation uid with
    | none => updateStatusDecide module none none none none false now
    | some (pk, st) =>
      let target := db.displayTarget pk st module.moduleType
      let release := target.bind fun t =>
        db.findRelease module.moduleType module.variant t.version
      updateStatusDecide module (some st) target (release.map Prod.snd)
        (release.bind fun r => db.rows.get? ⟨uid, r.1⟩) (db.lockHeld pk) now

end Db

/-! ## the display resolves like the reconciler -/

/-- The targets that cannot apply to the station do not change the choice. -/
theorem displayTarget_eq (db : Db) (pk : Pk) (st : Station) (moduleType : Pk) :
    db.displayTarget pk st moduleType = effectiveTarget db pk st moduleType := by
  unfold Db.displayTarget effectiveTarget resolveEffectiveTarget
  have hfind : ∀ p : Target → Bool, (∀ t, p t = true → applicable pk st t = true) →
      (db.targets.filter fun t => t.moduleType = moduleType).find? p =
        (db.targets.filter fun t => applicable pk st t ∧ t.moduleType = moduleType).find? p := by
    intro p hp
    rw [List.find?_filter, List.find?_filter]
    congr 1
    funext t
    cases hpt : p t with
    | false => simp
    | true => simp [hp t hpt]
  rw [hfind, hfind, hfind]
  all_goals
    intro t ht
    simp_all [applicable]

end StationManager.Firmware
