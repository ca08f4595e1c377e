import StationManager.Firmware.BootKey
import StationManager.Firmware.Targets

/-!
# StationManager.Firmware.Reconciler

The decisions of `reconciler.py` on one convergence row, and the two
transactions that apply them: `reconcile_module` (compare reported and desired
version, maintain the row of the current target and the rollup) and
`record_error` (apply a reported failure to a row).

Both leave the same kind of trace, an `Outcome`: the saved row, the rollup
value and the audit entries.  The source assigns fields one by one and saves
exactly the fields it assigned, so the row in memory is the row stored.
-/

namespace StationManager.Firmware

/-- What a decision leaves behind. -/
structure Outcome where
  row : ConvergenceState
  rollup : Convergence
  audits : List (EventType × String) := []
deriving DecidableEq, Repr

/-- German short labels of the display states (`_SHORT_LABELS`). -/
def shortLabel : String → Option String
  | "no_target" => some "Kein Ziel"
  | "current" => some "Aktuell"
  | "quarantined" => some "Quarantäne"
  | "not_updatable" => some "Nicht updatebar"
  | "failed" => some "Fehler"
  | "waiting" => some "Wartet"
  | "running" => some "Update läuft"
  | "pending" => some "Update ausstehend"
  | _ => none

/-- Label of a state value; a value without one falls back to `default`, or
to itself. -/
def stateLabel (state : String) (default : Option String := none) : String :=
  (shortLabel state).getD (default.getD state)

/-- Keys of `_STICKY_ROLLUP`: states a heartbeat never resets. -/
def State.isSticky : State → Bool
  | .quarantined | .notUpdatable | .failed => true
  | .ok | .updating => false

namespace ConvergenceState

/-- The state a `not_updatable` detour stands in for. -/
def sticky (cs : ConvergenceState) : Option State :=
  if cs.state = .notUpdatable then cs.stateBeforeNotUpdatable else some cs.state

/-- End the attempt in flight. -/
def endAttempt (cs : ConvergenceState) : ConvergenceState :=
  { cs with phase := none, phaseAt := none, instructedAt := none }

def toOk (now : Time) (cs : ConvergenceState) : ConvergenceState :=
  { cs.endAttempt with
    state := .ok, transientFailures := 0, reasonCode := none,
    stateBeforeNotUpdatable := none, updatedAt := now }

/-- An overridden quarantine or failure is remembered. -/
def toNotUpdatable (now : Time) (cs : ConvergenceState) : ConvergenceState :=
  { cs.endAttempt with
    state := .notUpdatable
    stateBeforeNotUpdatable :=
      if cs.state = .quarantined ∨ cs.state = .failed then some cs.state else none
    reasonCode := some .bootKeyMismatch
    updatedAt := now }

/-- Back from a detour to the state it stood in for. -/
def restore (now : Time) (before : State) (cs : ConvergenceState) : ConvergenceState :=
  { cs with
    state := before
    stateBeforeNotUpdatable := none
    reasonCode := if before = .failed then some .transientLimit else none
    updatedAt := now }

/-- Back from a detour with fresh counters. -/
def releaseKey (cs : ConvergenceState) : ConvergenceState :=
  { cs with state := .updating, attempts := 0, transientFailures := 0, reasonCode := none }

def toFailed (now : Time) (cs : ConvergenceState) : ConvergenceState :=
  { cs.endAttempt with
    state := .failed, reasonCode := some .transientLimit, updatedAt := now }

def toUpdating (now : Time) (cs : ConvergenceState) : ConvergenceState :=
  { cs with state := .updating, updatedAt := now }

end ConvergenceState

/-! ## the steps of `_decide` -/

/-- From `updating` to `failed` at the transient cap. -/
def giveUp (uid : Uid) (release : Release) (now : Time) (cs : ConvergenceState) : Outcome where
  row := cs.toFailed now
  rollup := .failed
  audits :=
    let message := s!"Modul {uid}: Update nach {cs.transientFailures} Fehlversuchen in Folge " ++
      s!"abgebrochen (Ziel {release.version})."
    [(.moduleFlashGaveUp,
      if cs.lastErrorMessage ≠ "" then message ++ s!" Letzte Meldung: {cs.lastErrorMessage}"
      else message)]

/-- Step 1: the desired version is reached. -/
def reached (uid : Uid) (desired : Release) (now : Time) (cs : ConvergenceState) : Outcome where
  row := cs.toOk now
  rollup := .ok
  audits :=
    if cs.state = .notUpdatable then
      [(.moduleUpdatableAgain, s!"Modul {uid}: Zielversion {desired.version} erreicht.")]
    else []

/-- Step 2: both keys known and different. -/
def keyMismatch (module : Module) (now : Time) (cs : ConvergenceState) : Outcome :=
  if cs.state = .notUpdatable then { row := cs, rollup := .notUpdatable }
  else
    { row := cs.toNotUpdatable now
      rollup := .notUpdatable
      audits := [(.moduleNotUpdatable, notUpdatableText module)] }

/-- Step 3: the keys match again.  Only `not_updatable` is released; a detour
from a quarantine or a failure restores that state. -/
def keyFixed (uid : Uid) (module : Module) (desired : Release) (now : Time)
    (cs : ConvergenceState) : ConvergenceState × List (EventType × String) :=
  let keysMatch := keysMatch module desired
  match cs.state, cs.stateBeforeNotUpdatable with
  | .notUpdatable, some before =>
    if keysMatch ∨ module.lastReportedVersion = desired.version then
      let trigger :=
        if keysMatch then
          s!"Bootloader-Schlüssel passt wieder zur Release (Ziel {desired.version})"
        else s!"Zielversion {desired.version} erreicht"
      let label := stateLabel before.value
      (cs.restore now before,
        [(.moduleUpdatableAgain,
          s!"Modul {uid}: {trigger} – Zustand {label} bleibt bestehen.")])
    else (cs, [])
  | .notUpdatable, none =>
    if keysMatch then
      (cs.releaseKey,
        [(.moduleUpdatableAgain,
          s!"Modul {uid}: Bootloader-Schlüssel passt wieder zur Release " ++
            s!"(Ziel {desired.version}) – Update wird wieder versucht.")])
    else (cs, [])
  | _, _ => (cs, [])

/-- Steps 4 to 6: sticky states stay, a row at the transient cap gives up,
anything else keeps trying. -/
def settle (uid : Uid) (desired : Release) (now : Time) (cs : ConvergenceState) : Outcome :=
  if cs.state.isSticky then { row := cs, rollup := cs.state.rollup }
  else if drainTransientLimit ≤ cs.transientFailures then giveUp uid desired now cs
  else { row := cs.toUpdating now, rollup := .updating }

/-- The reconciler's `_decide`: the state decision for a locked row of the
current target.  Reached version > key mismatch > key fixed > sticky >
transient cap > updating. -/
def reconcilerDecide (uid : Uid) (module : Module) (desired : Release) (now : Time)
    (cs : ConvergenceState) : Outcome :=
  if module.lastReportedVersion = desired.version ∧ cs.sticky ≠ some .quarantined then
    reached uid desired now cs
  else if module.lastReportedVersion ≠ desired.version ∧ bootKeyMismatch module desired then
    keyMismatch module now cs
  else
    let fixed := keyFixed uid module desired now cs
    let outcome := settle uid desired now fixed.1
    { outcome with audits := fixed.2 ++ outcome.audits }

/-! ## `record_error` -/

/-- The counters and the state after a reported failure, before the save:
the row and whether the transient cap was reached. -/
def judge (mode : ErrorMode) (cs : ConvergenceState) : ConvergenceState × Bool :=
  match mode with
  | .rejected => ({ cs with state := .quarantined }, false)
  | .rolledBack =>
    let attempts := cs.attempts + 1
    if quarantineAttemptLimit ≤ attempts then
      ({ cs with attempts := attempts, state := .quarantined }, false)
    else ({ cs with attempts := attempts }, false)
  | .transient =>
    let failures := cs.transientFailures + 1
    ({ cs with transientFailures := failures },
      decide (cs.state = .updating ∧ drainTransientLimit ≤ failures))

/-- The error columns; every mode ends the attempt in flight. -/
def ConvergenceState.stamp (mode : ErrorMode) (message : String) (now : Time)
    (cs : ConvergenceState) : ConvergenceState :=
  { cs.endAttempt with
    lastErrorMode := some mode, lastErrorMessage := message, lastAttemptAt := some now,
    updatedAt := now }

/-- The source's `record_error` on the row, given the row's module and
release. -/
def recordErrorOutcome (uid : Uid) (module : Module) (release : Release) (mode : ErrorMode)
    (message : String) (now : Time) (cs : ConvergenceState) : Outcome :=
  let (row, atCap) := judge mode (cs.stamp mode message now)
  if atCap then giveUp uid release now row
  else if row.state = .quarantined then
    { row := row
      rollup := .quarantined
      -- audited only when the rollup was not quarantined yet
      audits :=
        if module.firmwareConvergence = .quarantined then []
        else
          let text := s!"Module {uid} quarantined for target {release.version} ({mode.value})."
          [(.moduleQuarantined,
            if keyHintApplies module release (some mode) then text ++ s!" {keyUnknownHint}"
            else text)] }
  else if row.state.isSticky then { row := row, rollup := row.state.rollup }
  else { row := row, rollup := .updating }

/-! ## transactions -/

namespace Db

/-- Store an outcome for row `k`, audited under `station`. -/
def apply (db : Db) (k : RowKey) (station : Option Pk) (o : Outcome) : Db :=
  ((db.putRow k o.row).setConvergenceRollup k.module o.rollup).log
    (o.audits.map fun e => ⟨station, k.module, e.1, e.2, some k⟩)

/-- Best-effort station of the module's open assignment. -/
def openAssignmentStation (db : Db) (uid : Uid) : Option Pk :=
  (db.openStation uid).map Prod.fst

/-- The source's `reconcile_module`: the new database and the active row. -/
def reconcileModule (db : Db) (now : Time) (uid : Uid) : Db × Option RowKey :=
  match db.modules.get? uid with
  | none => (db, none)
  | some module => match db.targetForModule uid module with
      | none =>
        -- no intent, no drift
        (db.setConvergenceRollup uid
          (if module.firmwareConvergence = .unknown then .unknown else .ok), none)
      | some target =>
        match db.findRelease module.moduleType module.variant target.version with
        | none =>
          -- intent without a release for the variant: the drift stays visible
          (db.setConvergenceRollup uid
            (if module.lastReportedVersion = target.version then .ok else .updating), none)
        | some (pk, desired) =>
          let k : RowKey := ⟨uid, pk⟩
          (db.apply k (db.openAssignmentStation uid)
            (reconcilerDecide uid module desired now (db.rowOrNew now k)), some k)

/-- A stored row together with its module and its release.  Both foreign keys
are enforced, so the join finds every stored row. -/
def fetchRow (db : Db) (k : RowKey) : Option (ConvergenceState × Module × Release) :=
  match db.rows.get? k, db.modules.get? k.module, db.releases.table.get? k.targetRelease with
  | some cs, some module, some release => some (cs, module, release)
  | _, _, _ => none

/-- The source's `record_error` on the stored row `k`. -/
def recordError (db : Db) (now : Time) (k : RowKey) (mode : ErrorMode) (message : String)
    (station : Option Pk) : Db :=
  match db.fetchRow k with
  | none => db
  | some (cs, module, release) =>
    db.apply k (station.orElse fun _ => db.openAssignmentStation k.module)
      (recordErrorOutcome k.module module release mode message now cs)

end Db

/-! ## what a decision can do to the row -/

/-- The steps of `_decide`, by what they do to the row. -/
inductive Decided (module : Module) (desired : Release) (now : Time) (cs : ConvergenceState) :
    ConvergenceState → Prop
  | reached (hv : module.lastReportedVersion = desired.version)
      (hq : cs.sticky ≠ some .quarantined) : Decided module desired now cs (cs.toOk now)
  | mismatch (hv : module.lastReportedVersion ≠ desired.version)
      (hk : bootKeyMismatch module desired = true) (hs : cs.state ≠ .notUpdatable) :
      Decided module desired now cs (cs.toNotUpdatable now)
  | restored (before : State) (hs : cs.state = .notUpdatable)
      (hb : cs.stateBeforeNotUpdatable = some before)
      (hfix : keysMatch module desired = true ∨ module.lastReportedVersion = desired.version)
      (uid : Uid) :
      Decided module desired now cs (settle uid desired now (cs.restore now before)).row
  | released (hs : cs.state = .notUpdatable) (hb : cs.stateBeforeNotUpdatable = none)
      (hfix : keysMatch module desired = true)
      (hv : module.lastReportedVersion ≠ desired.version) :
      Decided module desired now cs (cs.releaseKey.toUpdating now)
  | kept (hs : cs.state.isSticky = true)
      (hk : cs.state = .notUpdatable → keysMatch module desired = false) :
      Decided module desired now cs cs
  | gaveUp (hs : cs.state.isSticky = false) (hcap : drainTransientLimit ≤ cs.transientFailures)
      (hv : module.lastReportedVersion ≠ desired.version)
      (hk : bootKeyMismatch module desired = false) :
      Decided module desired now cs (cs.toFailed now)
  | updating (hs : cs.state.isSticky = false) (hcap : cs.transientFailures < drainTransientLimit)
      (hv : module.lastReportedVersion ≠ desired.version)
      (hk : bootKeyMismatch module desired = false) :
      Decided module desired now cs (cs.toUpdating now)

variable {cs : ConvergenceState} {db db' : Db} {m : Module} {rel : Release} {uid : Uid} (now : Time)

theorem settle_row_of_sticky (uid : Uid) (desired : Release) (now : Time)
    (h : cs.state.isSticky = true) : (settle uid desired now cs).row = cs := by
  unfold settle
  rw [if_pos h]

theorem sticky_of_not_isSticky (h : cs.state.isSticky = false) : cs.sticky = some cs.state := by
  unfold ConvergenceState.sticky
  rw [if_neg]
  intro hs
  rw [hs] at h
  cases h

/-- The third branch of `_decide`: no version reached, no mismatch. -/
theorem keyFixed_settle_decided (uid : Uid) {desired : Release} (now : Time)
    (hreach : ¬(m.lastReportedVersion = desired.version ∧ cs.sticky ≠ some .quarantined))
    (hmis : ¬(m.lastReportedVersion ≠ desired.version ∧ bootKeyMismatch m desired = true)) :
    Decided m desired now cs (settle uid desired now (keyFixed uid m desired now cs).1).row := by
  unfold keyFixed
  simp only
  split
  · next before hs hb =>
    have hsticky : cs.state.isSticky = true := by
      rw [hs]
      rfl
    split
    · next hfix => exact .restored before hs hb hfix uid
    · next hfix =>
      rw [settle_row_of_sticky uid desired now hsticky]
      exact .kept hsticky fun _ => Bool.eq_false_iff.mpr fun h => hfix (.inl h)
  · next hs hb =>
    have hsticky : cs.state.isSticky = true := by
      rw [hs]
      rfl
    split
    · next hfix =>
      refine .released hs hb hfix fun hv => hreach ⟨hv, ?_⟩
      rw [ConvergenceState.sticky, if_pos hs, hb]
      exact Option.some_ne_none _ ∘ Eq.symm
    · next hfix =>
      rw [settle_row_of_sticky uid desired now hsticky]
      exact .kept hsticky fun _ => Bool.eq_false_iff.mpr hfix
  · next hnone hsome =>
    cases hst : cs.state.isSticky with
    | true =>
      rw [settle_row_of_sticky uid desired now hst]
      refine .kept hst fun hnu => ?_
      cases hb : cs.stateBeforeNotUpdatable with
      | none => exact (hsome hnu hb).elim
      | some before => exact (hnone before hnu hb).elim
    | false =>
      -- a plain row: not quarantined, so the version was not reached
      have hne : cs.sticky ≠ some .quarantined := by
        rw [sticky_of_not_isSticky hst]
        intro h
        rw [Option.some.inj h] at hst
        cases hst
      have hv : m.lastReportedVersion ≠ desired.version := fun hv => hreach ⟨hv, hne⟩
      have hk : bootKeyMismatch m desired = false := by
        cases hk : bootKeyMismatch m desired with
        | true => exact absurd ⟨hv, hk⟩ hmis
        | false => rfl
      unfold settle
      rw [if_neg (by simp [hst])]
      split
      · next hcap => exact .gaveUp hst hcap hv hk
      · next hcap => exact .updating hst (Nat.lt_of_not_le hcap) hv hk

/-- Every decision is one of the steps. -/
theorem reconcilerDecide_decided (uid : Uid) (m : Module) (desired : Release) (now : Time)
    (cs : ConvergenceState) :
    Decided m desired now cs (reconcilerDecide uid m desired now cs).row := by
  unfold reconcilerDecide
  split
  · next h => exact .reached h.1 h.2
  · next hreach =>
    split
    · next h =>
      unfold keyMismatch
      split
      · next hs =>
        have hsticky : cs.state.isSticky = true := by
          rw [hs]
          rfl
        refine .kept hsticky fun _ => Bool.eq_false_iff.mpr fun hk => ?_
        rw [bootKeyMismatch_of_keysMatch hk] at h
        exact Bool.false_ne_true h.2
      · next hs => exact .mismatch h.1 h.2 hs
    · next hmis => exact keyFixed_settle_decided uid now hreach hmis

/-- The outcomes of `record_error`, by what they do to the row. -/
inductive Errored (mode : ErrorMode) (message : String) (now : Time) (cs : ConvergenceState) :
    ConvergenceState → Prop
  | rejected (hm : mode = .rejected) :
      Errored mode message now cs { cs.stamp mode message now with state := .quarantined }
  | quarantined (hm : mode = .rolledBack) (h : quarantineAttemptLimit ≤ cs.attempts + 1) :
      Errored mode message now cs
        { cs.stamp mode message now with attempts := cs.attempts + 1, state := .quarantined }
  | counted (hm : mode = .rolledBack) (h : cs.attempts + 1 < quarantineAttemptLimit) :
      Errored mode message now cs
        { cs.stamp mode message now with attempts := cs.attempts + 1 }
  | gaveUp (hm : mode = .transient) (hs : cs.state = .updating)
      (h : drainTransientLimit ≤ cs.transientFailures + 1) :
      Errored mode message now cs
        ({ cs.stamp mode message now with
            transientFailures := cs.transientFailures + 1 }.toFailed now)
  | failure (hm : mode = .transient)
      (h : ¬(cs.state = .updating ∧ drainTransientLimit ≤ cs.transientFailures + 1)) :
      Errored mode message now cs
        { cs.stamp mode message now with transientFailures := cs.transientFailures + 1 }

/-- Below the transient cap the row of `record_error` is the judged one. -/
theorem recordErrorOutcome_row {mode : ErrorMode} {message : String} {now : Time}
    {row : ConvergenceState} (h : judge mode (cs.stamp mode message now) = (row, false)) :
    (recordErrorOutcome uid m rel mode message now cs).row = row := by
  unfold recordErrorOutcome
  simp only [h, Bool.false_eq_true, if_false]
  split
  · rfl
  · split <;> rfl

/-- At the cap it is the judged one, given up. -/
theorem recordErrorOutcome_row_of_cap {mode : ErrorMode} {message : String} {now : Time}
    {row : ConvergenceState} (h : judge mode (cs.stamp mode message now) = (row, true)) :
    (recordErrorOutcome uid m rel mode message now cs).row = row.toFailed now := by
  unfold recordErrorOutcome
  simp only [h, if_true]
  rfl

/-- Every recorded error is one of the outcomes. -/
theorem recordErrorOutcome_errored (uid : Uid) (m : Module) (rel : Release) (mode : ErrorMode)
    (message : String) (now : Time) (cs : ConvergenceState) :
    Errored mode message now cs (recordErrorOutcome uid m rel mode message now cs).row := by
  cases mode with
  | rejected =>
    rw [recordErrorOutcome_row rfl]
    exact .rejected rfl
  | rolledBack =>
    by_cases h : quarantineAttemptLimit ≤ cs.attempts + 1
    · have hj : judge .rolledBack (cs.stamp .rolledBack message now) =
          ({ cs.stamp .rolledBack message now with
              attempts := cs.attempts + 1, state := .quarantined }, false) := if_pos h
      rw [recordErrorOutcome_row hj]
      exact .quarantined rfl h
    · have hj : judge .rolledBack (cs.stamp .rolledBack message now) =
          ({ cs.stamp .rolledBack message now with attempts := cs.attempts + 1 }, false) :=
        if_neg h
      rw [recordErrorOutcome_row hj]
      exact .counted rfl (Nat.lt_of_not_le h)
  | transient =>
    have hj : judge .transient (cs.stamp .transient message now) =
        ({ cs.stamp .transient message now with
            transientFailures := cs.transientFailures + 1 },
          decide (cs.state = .updating ∧ drainTransientLimit ≤ cs.transientFailures + 1)) := rfl
    by_cases h : cs.state = .updating ∧ drainTransientLimit ≤ cs.transientFailures + 1
    · rw [decide_eq_true h] at hj
      rw [recordErrorOutcome_row_of_cap hj]
      exact .gaveUp rfl h.1 h.2
    · rw [decide_eq_false h] at hj
      rw [recordErrorOutcome_row hj]
      exact .failure rfl h

/-! ## the shape of a transaction -/

/-- The rollup a decision writes is the name of the state it leaves. -/
theorem reconcilerDecide_rollup (uid : Uid) (m : Module) (desired : Release) (now : Time)
    (cs : ConvergenceState) : (reconcilerDecide uid m desired now cs).rollup =
      (reconcilerDecide uid m desired now cs).row.state.rollup := by
  unfold reconcilerDecide
  split
  · rfl
  · split
    · unfold keyMismatch
      split
      · next h => simp only [h, State.rollup]
      · rfl
    · unfold settle
      simp only
      split
      · rfl
      · split <;> rfl

/-- With a desired release, `reconcile_module` stores the decision for the row
of that release. -/
theorem reconcileModule_of_desired {p : Pk} (hm : db.modules.get? uid = some m)
    (hd : db.desiredReleaseForModule uid m = some (p, rel)) : db.reconcileModule now uid =
      (db.apply ⟨uid, p⟩ (db.openAssignmentStation uid)
        (reconcilerDecide uid m rel now (db.rowOrNew now ⟨uid, p⟩)), some ⟨uid, p⟩) := by
  unfold Db.desiredReleaseForModule at hd
  unfold Db.reconcileModule
  cases ht : db.targetForModule uid m with
  | none =>
    rw [ht] at hd
    cases hd
  | some t =>
    simp only [ht] at hd
    simp only [hm, ht, hd]

/-- Without one it only touches the rollup of the module. -/
theorem reconcileModule_of_none (hm : db.modules.get? uid = some m)
    (hd : db.desiredReleaseForModule uid m = none) :
    ∃ c, db.reconcileModule now uid = (db.setConvergenceRollup uid c, none) := by
  unfold Db.desiredReleaseForModule at hd
  unfold Db.reconcileModule
  cases ht : db.targetForModule uid m with
  | none => exact ⟨if m.firmwareConvergence = .unknown then .unknown else .ok,
      by simp only [hm, ht]⟩
  | some t =>
    simp only [ht] at hd
    exact ⟨if m.lastReportedVersion = t.version then .ok else .updating,
      by simp only [hm, ht, hd]⟩

theorem reconcileModule_of_missing (hm : db.modules.get? uid = none) :
    db.reconcileModule now uid = (db, none) := by
  unfold Db.reconcileModule
  rw [hm]

/-- What `reconcile_module` can do: nothing, move the rollup, or store a
decision for the row of the desired release. -/
theorem reconcileModule_cases (db : Db) (now : Time) (uid : Uid) :
    (db.modules.get? uid = none ∧ db.reconcileModule now uid = (db, none)) ∨
    (∃ m c, db.modules.get? uid = some m ∧ db.desiredReleaseForModule uid m = none ∧
      db.reconcileModule now uid = (db.setConvergenceRollup uid c, none)) ∨
    (∃ m p rel, db.modules.get? uid = some m ∧ db.desiredReleaseForModule uid m = some (p, rel) ∧
      db.reconcileModule now uid = (db.apply ⟨uid, p⟩ (db.openAssignmentStation uid)
          (reconcilerDecide uid m rel now (db.rowOrNew now ⟨uid, p⟩)), some ⟨uid, p⟩)) := by
  cases hm : db.modules.get? uid with
  | none => exact .inl ⟨rfl, reconcileModule_of_missing now hm⟩
  | some m =>
    cases hd : db.desiredReleaseForModule uid m with
    | none =>
      obtain ⟨c, hc⟩ := reconcileModule_of_none now hm hd
      exact .inr (.inl ⟨m, c, rfl, hd, hc⟩)
    | some e => exact .inr (.inr ⟨m, e.1, e.2, rfl, hd, reconcileModule_of_desired now hm hd⟩)

/-- A module row apart from its rollup. -/
def Module.core (m : Module) : Module := { m with firmwareConvergence := .unknown }

/-- Modules with the same core differ at most in the rollup. -/
theorem Module.eq_of_core {m' : Module} (h : m'.core = m.core) :
    m' = { m with firmwareConvergence := m'.firmwareConvergence } := by
  cases m
  cases m'
  simp only [core, Module.mk.injEq, true_and] at h ⊢
  exact h

/-- Two databases in which every module has the same row up to the rollup. -/
structure SameCores (db db' : Db) : Prop where
  core : ∀ uid, (db'.modules.get? uid).map Module.core = (db.modules.get? uid).map Module.core

theorem SameCores.refl (db : Db) : SameCores db db := ⟨fun _ => rfl⟩

theorem SameCores.trans {a b c : Db} (h : SameCores a b) (h' : SameCores b c) : SameCores a c :=
  ⟨fun uid => (h'.core uid).trans (h.core uid)⟩

theorem SameCores.get? (h : SameCores db db') (hm : db.modules.get? uid = some m) :
    ∃ m', db'.modules.get? uid = some m' ∧ m'.core = m.core := by
  have hc := h.core uid
  rw [hm] at hc
  cases hm' : db'.modules.get? uid with
  | none =>
    rw [hm'] at hc
    cases hc
  | some m' =>
    rw [hm'] at hc
    exact ⟨m', rfl, Option.some.inj hc⟩

theorem SameCores.setConvergenceRollup (db : Db) (uid : Uid) (c : Convergence) :
    SameCores db (db.setConvergenceRollup uid c) := by
  constructor
  intro j
  rw [Db.get?_setConvergenceRollup]
  split
  · rw [Option.map_map]
    rfl
  · rfl

/-- What the firmware transactions leave alone: everything resolution reads,
the locks, and the module rows up to their rollup. -/
structure Frame (db db' : Db) : Prop extends SameInputs db db', SameCores db db' where
  locks : db'.locks = db.locks

theorem Frame.refl (db : Db) : Frame db db := ⟨.refl db, .refl db, rfl⟩

theorem Frame.symm (h : Frame db db') : Frame db' db :=
  ⟨⟨h.assignments.symm, h.stations.symm, h.targets.symm, h.releases.symm⟩,
    ⟨fun uid => (h.core uid).symm⟩, h.locks.symm⟩

theorem Frame.trans {a b c : Db} (h : Frame a b) (h' : Frame b c) : Frame a c :=
  ⟨h.toSameInputs.trans h'.toSameInputs, h.toSameCores.trans h'.toSameCores,
    h'.locks.trans h.locks⟩

theorem Frame.apply (db : Db) (k : RowKey) (st : Option Pk) (o : Outcome) :
    Frame db (db.apply k st o) :=
  ⟨⟨rfl, rfl, rfl, rfl⟩, ⟨(SameCores.setConvergenceRollup db k.module o.rollup).core⟩, rfl⟩

theorem Frame.setConvergenceRollup (db : Db) (uid : Uid) (c : Convergence) :
    Frame db (db.setConvergenceRollup uid c) :=
  ⟨⟨rfl, rfl, rfl, rfl⟩, SameCores.setConvergenceRollup db uid c, rfl⟩

/-- Across a frame a module reports the same version. -/
theorem Frame.version (h : Frame db db') (hm : db.modules.get? uid = some m) :
    (db'.modules.get? uid).map (·.lastReportedVersion) = some m.lastReportedVersion := by
  obtain ⟨m', hm', hcore⟩ := h.get? hm
  rw [hm', Option.map_some]
  rw [Module.eq_of_core hcore]

/-- Across a frame a module has the same desired release. -/
theorem Frame.desired (h : Frame db db') {m' : Module} (hcore : m'.core = m.core) :
    db'.desiredReleaseForModule uid m' = db.desiredReleaseForModule uid m := by
  rw [Module.eq_of_core hcore]
  exact h.desiredReleaseForModule uid rfl rfl

theorem get?_apply_rows (db : Db) (k j : RowKey) (st : Option Pk) (o : Outcome) :
    (db.apply k st o).rows.get? j = if j = k then some o.row else db.rows.get? j :=
  Db.get?_putRow db k j o.row

/-- Reconciling moves rollups and rows only. -/
theorem reconcileModule_frame (db : Db) (now : Time) (uid : Uid) :
    Frame db (db.reconcileModule now uid).1 := by
  rcases reconcileModule_cases db now uid with ⟨_, h⟩ | ⟨_, c, _, _, h⟩ | ⟨_, p, rel, _, _, h⟩
  · rw [h]
    exact .refl db
  · rw [h]
    exact .setConvergenceRollup db uid c
  · rw [h]
    exact .apply ..

/-- It only touches rows of its own module. -/
theorem get?_reconcileModule_rows_ne {k : RowKey} (h : k.module ≠ uid) :
    (db.reconcileModule now uid).1.rows.get? k = db.rows.get? k := by
  rcases reconcileModule_cases db now uid with ⟨_, e⟩ | ⟨_, c, _, _, e⟩ | ⟨_, p, rel, _, _, e⟩
  · rw [e]
  · rw [e]
    rfl
  · rw [e, get?_apply_rows, if_neg]
    rintro rfl
    exact h rfl

/-- A row that `fetchRow` joins is stored with its module and release. -/
theorem fetchRow_eq_some {k : RowKey} : db.fetchRow k = some (cs, m, rel) ↔
      db.rows.get? k = some cs ∧ db.modules.get? k.module = some m ∧
        db.releases.table.get? k.targetRelease = some rel := by
  unfold Db.fetchRow
  cases db.rows.get? k <;> cases db.modules.get? k.module <;>
    cases db.releases.table.get? k.targetRelease <;> simp

end StationManager.Firmware
