import StationManager.Agent.Bootloader
import StationManager.Deployments.Check

/-!
# StationManager.Agent.Ota

One OTA check of the agent, statement by statement: `_handle_ota` with
`apply_update`, and `_verify_and_commit` with `commit_boot` and
`_reboot_into_previous_slot`.

The agent stands before its next call to the outside world, and an `Event` says
what that call meets: it works, it fails, or a POST reaches the server as
request `i`.  Whether a status report arrives makes no difference to the agent,
which goes on in either case.  Power can be lost before any statement, also
while an image is being written.
-/

namespace StationManager.Agent

open Deployments

/-! ## health checks -/

structure CheckResult where
  passed : Bool
  message : String
deriving DecidableEq, Repr

/-- What the single checks find. -/
structure Checks where
  network : CheckResult
  disk : CheckResult
  systemd : CheckResult
  boot : CheckResult
deriving DecidableEq, Repr

/-- The source's `run_health_checks`; the boot markers count only during a
trial. -/
def runHealthChecks (c : Checks) (bootGate : Bool) : Bool × List String :=
  let checks := [c.network, c.disk, c.systemd] ++ if bootGate then [c.boot] else []
  (checks.all CheckResult.passed, checks.map CheckResult.message)

/-- The failures that are reported to the server. -/
def failures (messages : List String) : String :=
  "; ".intercalate (messages.filter fun m => occursIn "FAIL" m)

/-- A failed boot marker, which makes the agent roll back itself. -/
def bootFailed (messages : List String) : Bool :=
  messages.any fun m => startsWith m "Boot FAIL"

/-! ## statements -/

/-- The next statement of the agent.  `stopped` is an agent that has been told
to shut down. -/
inductive Pc
  | check
  | report (k : ResultKey) (status : Report) (message : String) (next : Pc)
  | download (o : Offer) (failure : String)
  | findFile (o : Offer)
  | findSlot (o : Offer)
  | findPartition (o : Offer) (target : Slot)
  | openPartition (o : Offer) (target : Slot)
  | writeImage (o : Offer) (target : Slot)
  | labelSlot (o : Offer) (target : Slot)
  | armTrial (o : Offer) (target : Slot)
  | reboot (k : ResultKey)
  | awaitShutdown (k : ResultKey)
  | readVersion (k : ResultKey) (version : String)
  | readUpgrade (k : ResultKey) (version : String)
  | readBootcount (k : ResultKey) (version : String) (upgrade : Option String)
  | checkHealth (k : ResultKey) (version : String) (bootGate : Bool)
  | commitLocal (version : String)
  | commitServer (version : String)
  | armRollback
  | rebootBack
  | awaitBack
  | stopped
deriving DecidableEq, Repr

/-- What a statement meets. -/
inductive Event
  | ok
  | failed (detail : String)
  | timedOut (stderr : String)
  | sent (i : Nat)
  | checked (c : Checks)
deriving DecidableEq, Repr

/-- A final status, after which the OTA check is over. -/
def fail (k : ResultKey) (message : String) : Pc := .report k .failed message .check

def rollBack (k : ResultKey) (message : String) : Pc := .report k .rolledBack message .check

/-! ## `_handle_ota` -/

def verifyAndCommit (o : Offer) : Pc :=
  .report o.result .verifying "" (.readVersion o.result o.targetTag)

def redownload (o : Offer) (failure : String) : Pc :=
  .report o.result .downloading "" (.download o failure)

/-- The resume decision: by the status that the server has. -/
def handleOta : Option Offer → Pc
  | none => .check
  | some o =>
    if o.downloadUrl = "" then .check
    else if o.status = .rebooting ∨ o.status = .verifying then verifyAndCommit o
    else if o.status ≠ .installing then
      redownload o "Firmware download or checksum verification failed"
    else .findFile o

def applyUpdate (o : Offer) : Pc := .report o.result .installing "" (.findSlot o)

def installFailed (o : Offer) : Pc :=
  fail o.result "Failed to write firmware to inactive partition"

def slotUnknown : String :=
  "Cannot determine active A/B slot from /proc/cmdline or / mount. " ++
    "refusing to guess — next install_to_slot could corrupt the running rootfs."

def withStderr (stderr : String) : String := if stderr = "" then "" else " — " ++ stderr

/-! ## `_verify_and_commit` -/

def reprOption : Option String → String
  | none => "None"
  | some text => reprStr text

/-- The running version against the deployed one. -/
def versionRead (k : ResultKey) (version running : String) : Pc :=
  if running = "" then
    rollBack k ("Cannot verify running version (OE5XRX_RELEASE not found " ++
      "in /etc/os-release); refusing to commit.")
  else if running ≠ version then
    rollBack k s!"Bootloader rolled back: running {reprStr running}, expected {reprStr version}"
  else .readUpgrade k version

/-- The trial flags: an open trial, or one that was committed before. -/
def envRead (k : ResultKey) (version : String) (upgrade bootcount : Option String) : Pc :=
  if upgrade = some "1" ∨ (upgrade = some "0" ∧ bootcount = some "0") then
    .checkHealth k version (upgrade = some "1")
  else
    rollBack k (s!"Bootloader upgrade_available={reprOption upgrade}, " ++
      s!"bootcount={reprOption bootcount} — trial boot was rolled back " ++
      "or env read failed; refusing to commit.")

def healthChecked (k : ResultKey) (version : String) (bootGate : Bool) (c : Checks) : Pc :=
  let (passed, messages) := runHealthChecks c bootGate
  if passed then .commitLocal version
  else .report k .rolledBack s!"Health checks failed: {failures messages}"
    (if bootFailed messages then .armRollback else .check)

/-! ## steps -/

/-- The effect of a statement: the next one, what it writes on the device, and
the request it sends. -/
structure Outcome where
  next : Pc
  effect : Effect := .nothing
  request : Option (Nat × Request) := none

/-- Execute the next statement. -/
def statement (station : Pk) (db : Db) (d : Device) : Pc → Event → Option Outcome
  | .check, .ok => some { next := handleOta (checkDeployment db station) }
  | .check, .failed _ => some { next := .check }
  | .report k status message next, .sent i =>
    some { next, request := some (i, .statusUpdate station k status message) }
  | .report _ _ _ next, .failed _ => some { next }
  | .download o _, .ok => some { next := applyUpdate o }
  | .download o failure, .failed _ => some { next := fail o.result failure }
  | .findFile o, .ok => some { next := applyUpdate o }
  | .findFile o, .failed _ =>
    some { next := redownload o "Firmware re-download failed during INSTALLING resume" }
  | .findSlot o, .ok => some { next := .findPartition o d.inactiveSlot }
  | .findSlot o, .failed _ => some { next := fail o.result ("Install aborted: " ++ slotUnknown) }
  | .findPartition o target, .ok => some { next := .openPartition o target }
  | .findPartition o _, .failed _ => some { next := installFailed o }
  -- the first chunk destroys what the slot held
  | .openPartition o target, .ok =>
    some { next := .writeImage o target, effect := .writeSlot target "" }
  | .openPartition o _, .failed _ => some { next := installFailed o }
  | .writeImage o target, .ok =>
    some { next := .labelSlot o target, effect := .writeSlot target o.targetTag }
  | .writeImage o _, .failed _ => some { next := installFailed o }
  | .labelSlot o target, .ok => some { next := .armTrial o target }
  | .labelSlot o target, .failed _ =>
    some { next := if d.backend = .grub then installFailed o else .armTrial o target }
  | .armTrial o target, .ok =>
    some { next := .report o.result .rebooting "" (.reboot o.result)
           effect := .setUpgradePending target }
  | .armTrial o _, .failed _ => some { next := installFailed o }
  | .reboot k, .ok => some { next := .awaitShutdown k }
  | .reboot k, .timedOut stderr =>
    some { next := fail k ("Reboot call timed out after 30s" ++ withStderr stderr) }
  | .reboot k, .failed detail => some { next := fail k ("Reboot call failed: " ++ detail) }
  | .awaitShutdown _, .ok => some { next := .stopped }
  | .awaitShutdown k, .timedOut _ =>
    some { next := fail k ("Reboot queued via systemctl but shutdown signal never " ++
      "arrived within 5 minutes — reboot was likely inhibited.") }
  | .readVersion k version, .ok => some { next := versionRead k version (d.release d.active) }
  | .readVersion k version, .failed _ => some { next := versionRead k version "" }
  | .readUpgrade k version, .ok =>
    some { next := .readBootcount k version (getEnv d.backend d.env .upgradeAvailable) }
  | .readUpgrade k version, .failed _ => some { next := .readBootcount k version none }
  | .readBootcount k version upgrade, .ok =>
    some { next := envRead k version upgrade (getEnv d.backend d.env .bootcount) }
  | .readBootcount k version upgrade, .failed _ => some { next := envRead k version upgrade none }
  | .checkHealth k version bootGate, .checked c =>
    some { next := healthChecked k version bootGate c }
  | .commitLocal version, .ok => some { next := .commitServer version, effect := .commitBoot }
  | .commitLocal _, .failed _ => some { next := .check }
  | .commitServer version, .sent i =>
    some { next := .check, request := some (i, .commit station version) }
  | .commitServer _, .failed _ => some { next := .check }
  | .armRollback, .ok => match armTrialRollback d.backend d.env with
      | .ok (some effect) => some { next := .rebootBack, effect }
      -- `False`, or an exception that the loop of `run` logs
      | _ => some { next := .check }
  | .armRollback, .failed _ => some { next := .check }
  | .rebootBack, .ok => some { next := .awaitBack }
  | .rebootBack, .failed _ => some { next := .check }
  | .awaitBack, .ok => some { next := .stopped }
  | .awaitBack, .timedOut _ => some { next := .check }
  | _, _ => none

/-! ## what a statement can do -/

/-- On the way to a slot write or behind one, before the reboot. -/
def Pc.installs : Pc → Bool
  | .report _ _ _ next => next.installs
  | .download .. | .findFile .. | .findSlot .. | .findPartition .. | .openPartition ..
  | .writeImage .. | .labelSlot .. | .armTrial .. => true
  | _ => false

/-- The slot that the agent has picked to write. -/
def Pc.target : Pc → Option Slot
  | .findPartition _ target | .openPartition _ target | .writeImage _ target
  | .labelSlot _ target | .armTrial _ target => some target
  | .report _ _ _ next => next.target
  | _ => none

theorem installs_of_target {pc : Pc} {t : Slot} (h : pc.target = some t) : pc.installs = true := by
  induction pc with
  | report k status message next ih => exact ih h
  | findPartition | openPartition | writeImage | labelSlot | armTrial => rfl
  | _ => cases h

section Decisions

variable (k : ResultKey) (version : String)

theorem versionRead_installs (running : String) :
    (versionRead k version running).installs = false := by
  unfold versionRead
  split
  · rfl
  · split <;> rfl

theorem envRead_installs (upgrade bootcount : Option String) :
    (envRead k version upgrade bootcount).installs = false := by
  unfold envRead
  split <;> rfl

theorem healthChecked_installs (bootGate : Bool) (c : Checks) :
    (healthChecked k version bootGate c).installs = false := by
  simp only [healthChecked]
  split
  · rfl
  · simp only [Pc.installs]
    split <;> rfl

/-- A resume from a status after the reboot only verifies. -/
theorem handleOta_installs {answer : Option Offer}
    (h : ∀ o, answer = some o → o.status = .rebooting ∨ o.status = .verifying) :
    (handleOta answer).installs = false := by
  cases answer with
  | none => rfl
  | some o =>
    rw [handleOta, if_pos (h o rfl)]
    split <;> rfl

theorem handleOta_target (answer : Option Offer) : (handleOta answer).target = none := by
  cases answer with
  | none => rfl
  | some o =>
    rw [handleOta]
    split
    · rfl
    · split
      · rfl
      · split <;> rfl

end Decisions

section Statements

variable {station : Pk} {db : Db} {d : Device} {pc : Pc} {e : Event} {o : Outcome}

/-- **Only the answer to a check leads to an installation.** -/
theorem statement_installs (h : statement station db d pc e = some o) (hcheck : pc ≠ .check)
    (hno : pc.installs = false) : o.next.installs = false := by
  cases pc with
  | check => exact absurd rfl hcheck
  | report k status message next => cases e <;> cases h <;> exact hno
  | download | findFile | findSlot | findPartition | openPartition | writeImage | labelSlot
  | armTrial => cases hno
  | reboot | awaitShutdown | readUpgrade | commitLocal | commitServer | rebootBack | awaitBack =>
    cases e <;> cases h <;> rfl
  | readVersion k version =>
    cases e <;> cases h
    · exact versionRead_installs k version (d.release d.active)
    · exact versionRead_installs k version ""
  | readBootcount k version => cases e <;> cases h <;> exact envRead_installs k version _ _
  | checkHealth k version bootGate =>
    cases e <;> cases h
    exact healthChecked_installs k version bootGate _
  | armRollback =>
    cases e with
    | ok =>
      simp only [statement] at h
      split at h <;> cases h <;> rfl
    | failed =>
      cases h
      rfl
    | _ => cases h
  | stopped => cases h

/-- The slot to write is picked once: the one that is not running. -/
theorem statement_target {t : Slot} (h : statement station db d pc e = some o)
    (ht : o.next.target = some t) : pc.target = some t ∨ t = d.inactiveSlot := by
  by_cases hno : o.next.installs = true
  · cases pc with
    | check =>
      cases e <;> cases h
      · rw [handleOta_target] at ht
        cases ht
      · cases ht
    | report k status message next => cases e <;> cases h <;> exact .inl ht
    | findSlot =>
      cases e <;> cases h
      · cases ht
        exact .inr rfl
      · cases ht
    | download | findFile | writeImage | armTrial | findPartition | openPartition =>
      cases e <;> cases h <;> first | exact .inl ht | cases ht
    | labelSlot =>
      cases e <;> cases h
      · exact .inl ht
      · split at ht
        · cases ht
        · exact .inl ht
    | _ =>
      have := statement_installs h (by simp) rfl
      rw [this] at hno
      cases hno
  · exact absurd (installs_of_target ht) hno

/-- A statement writes and arms the slot that was picked, or none. -/
theorem statement_slot (h : statement station db d pc e = some o) :
    o.effect.slot = none ∨ o.effect.slot = pc.target := by
  cases pc with
  | openPartition | writeImage | armTrial =>
    cases e <;> cases h <;> first | exact .inl rfl | exact .inr rfl
  | armRollback =>
    cases e with
    | ok =>
      simp only [statement] at h
      split at h
      · next effect harm =>
        cases h
        exact .inl (armTrialRollback_slot harm)
      · cases h
        exact .inl rfl
    | failed =>
      cases h
      exact .inl rfl
    | _ => cases h
  | _ => cases e <;> cases h <;> exact .inl rfl

end Statements

end StationManager.Agent
