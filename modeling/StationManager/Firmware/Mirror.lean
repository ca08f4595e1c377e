import StationManager.Firmware.UpdateStatus

/-!
# StationManager.Firmware.Mirror

The display decides like the reconciler.  On the rows that the endpoints
leave behind (`Settled`), the verdict computed from the stored row is the one
computed after the next reconcile, and an online, idle station shows an update
as pending or running exactly when that reconcile leaves its row `updating`
and the agent can execute it or has already reported a phase.
-/

namespace StationManager.Firmware

open ConvergenceState

variable {cs cs' : ConvergenceState} {db : Db} {m : Module} {op : Op} {pk : Pk} {st : Station}
  {uid : Uid}

/-! ## the status of a row, state by state -/

section row

variable {m : Module} {st : Station} {t : Target} {rel : Release} {cs : ConvergenceState}
  {busy : Bool} {now : Time}

/-- A pending or running update. -/
def UpdateStatus.isActive (s : UpdateStatus) : Bool := s.state = .pending ∨ s.state = .running

/-- The gates look at a row for its phase only. -/
theorem gates_verdict {row row' : Option ConvergenceState} (release : Option Release)
    (h : row'.bind (·.phase) = row.bind (·.phase)) :
    (gates m st t release row' busy now).verdict = (gates m st t release row busy now).verdict := by
  unfold gates
  rw [h]
  split
  · rfl
  · split
    · rfl
    · split
      · rfl
      · split
        · rfl
        · split
          · rfl
          · split <;> rfl

/-- Online and idle, the gates show an update as active when a phase was
reported or the agent can execute it. -/
theorem gates_isActive (row : Option ConvergenceState) (hon : isOnline st now = true) :
    (gates m st t (some rel) row false now).isActive = true ↔
      (executableArtifact m (some rel) (moduleOtaBackends st)).isSome = true ∨
        (row.bind (·.phase)).isSome = true := by
  unfold gates
  rw [if_neg (by simp [hon])]
  cases hp : row.bind (·.phase) with
  | some phase => simp [UpdateStatus.isActive]
  | none =>
    have hx := executableArtifact_some m rel (moduleOtaBackends st)
    by_cases hb : artifactFor m ∈ moduleOtaBackends st
    · cases he : executableArtifact m (some rel) (moduleOtaBackends st) with
      | none => simp [hb, he, UpdateStatus.isActive, waitingStatus]
      | some a => simp [hb, he, UpdateStatus.isActive]
    · have he : executableArtifact m (some rel) (moduleOtaBackends st) = none := by
        rw [← Option.not_isSome_iff_eq_none, hx]
        exact fun h => hb h.1
      simp [hb, he, UpdateStatus.isActive, waitingStatus]

theorem givenUp_eq_isSticky (s : State) : s.givenUp = s.isSticky := by
  cases s <;> rfl

theorem mirroredState_of_ne (h : cs.state ≠ .notUpdatable) :
    mirroredState m rel cs = (cs.state, false) := by
  unfold mirroredState
  rw [if_neg fun hc => h hc.1]

theorem rowStatus_plain (hs : cs.state.isSticky = false)
    (hcap : cs.transientFailures < drainTransientLimit) :
    rowStatus m st t rel cs busy now = gates m st t (some rel) (some cs) busy now := by
  have hne : cs.state ≠ .notUpdatable := by
    intro h
    rw [h] at hs
    cases hs
  simp only [rowStatus, mirroredState_of_ne hne]
  have hcap' : ¬drainTransientLimit ≤ cs.transientFailures := Nat.not_le_of_lt hcap
  cases hst : cs.state <;> simp_all [State.isSticky]

theorem rowStatus_capped (hs : cs.state = .updating)
    (hcap : drainTransientLimit ≤ cs.transientFailures) :
    rowStatus m st t rel cs busy now = failedStatus cs.lastErrorMessage (some cs.updatedAt) := by
  simp [rowStatus, mirroredState, hs, hcap]

theorem rowStatus_quarantined (hs : cs.state = .quarantined) :
    rowStatus m st t rel cs busy now = quarantineStatus m rel cs := by
  simp [rowStatus, mirroredState, hs]

theorem rowStatus_failed (hs : cs.state = .failed) :
    rowStatus m st t rel cs busy now = failedStatus cs.lastErrorMessage (some cs.updatedAt) := by
  simp [rowStatus, mirroredState, hs]

theorem rowStatus_notUpdatable (hs : cs.state = .notUpdatable) (hk : keysMatch m rel = false) :
    rowStatus m st t rel cs busy now = notUpdatableStatus m (some cs.updatedAt) := by
  simp [rowStatus, mirroredState, hs, hk]

/-- A detour whose keys match again shows the state it will be restored to. -/
theorem mirroredState_detour {before : State} (hs : cs.state = .notUpdatable)
    (hk : keysMatch m rel = true) (hb : cs.stateBeforeNotUpdatable = some before) :
    mirroredState m rel cs = (before, false) := by
  simp [mirroredState, hs, hk, hb]

theorem rowStatus_released (hs : cs.state = .notUpdatable) (hk : keysMatch m rel = true)
    (hb : cs.stateBeforeNotUpdatable = none) :
    rowStatus m st t rel cs busy now = gates m st t (some rel) (some cs) busy now := by
  simp [rowStatus, mirroredState, hs, hk, hb]

/-- Of the plain rows only an `updating` one reaches the cap. -/
theorem ConvergenceState.Settled.updating_of_capped (h : cs.Settled)
    (hs : cs.state.isSticky = false) (hcap : drainTransientLimit ≤ cs.transientFailures) :
    cs.state = .updating := by
  rcases givenUp_eq_false.mp ((givenUp_eq_isSticky cs.state).trans hs) with hok | hup
  · exact absurd hcap (Nat.not_le_of_lt (h.okBelowCap hok))
  · exact hup

/-- The verdict on a row that still needs a flash is the verdict on what the
reconciler makes of it. -/
theorem rowStatus_decided {cs' : ConvergenceState} {n : Time} (h : cs.Settled)
    (hd : Decided m rel n cs cs') (hv : m.lastReportedVersion ≠ rel.version)
    (hk : bootKeyMismatch m rel = false) :
    (rowStatus m st t rel cs' busy now).verdict = (rowStatus m st t rel cs busy now).verdict := by
  cases hd with
  | reached hv' => exact absurd hv' hv
  | mismatch _ hk' =>
    rw [hk] at hk'
    cases hk'
  | restored before hs hb hfix uid =>
    have hkeys : keysMatch m rel = true := hfix.resolve_right hv
    obtain ⟨hsticky, _⟩ := h.toRowInv.restore n hs hb
    rw [settle_row_of_sticky uid rel n hsticky]
    rcases h.before_cases hb with rfl | rfl
    · simp only [rowStatus, mirroredState_detour hs hkeys hb]
      simp [restore, mirroredState, quarantineStatus, UpdateStatus.verdict]
    · simp only [rowStatus, mirroredState_detour hs hkeys hb]
      simp [restore, mirroredState, failedStatus, UpdateStatus.verdict]
  | released hs hb hfix =>
    rw [rowStatus_released hs hfix hb, rowStatus_plain rfl zero_lt_transientLimit]
    exact gates_verdict (some rel) rfl
  | kept => rfl
  | gaveUp hs hcap =>
    have hst := h.updating_of_capped hs hcap
    rw [rowStatus_capped hst hcap, rowStatus_failed rfl]
    rfl
  | updating hs hcap =>
    have hcap' : (cs.toUpdating n).transientFailures < drainTransientLimit := hcap
    rw [rowStatus_plain hs hcap, rowStatus_plain rfl hcap']
    exact gates_verdict (some rel) rfl

/-- Online and idle, such a row shows as active exactly when the reconciler
leaves it `updating` and it is executable or already has a phase. -/
theorem rowStatus_isActive {cs' : ConvergenceState} {n : Time} (h : cs.Settled)
    (hd : Decided m rel n cs cs') (hv : m.lastReportedVersion ≠ rel.version)
    (hk : bootKeyMismatch m rel = false) (hon : isOnline st now = true) :
    (rowStatus m st t rel cs false now).isActive = true ↔
      cs'.state = .updating ∧
        ((executableArtifact m (some rel) (moduleOtaBackends st)).isSome = true ∨
          cs'.phase.isSome = true) := by
  cases hd with
  | reached hv' => exact absurd hv' hv
  | mismatch _ hk' =>
    rw [hk] at hk'
    cases hk'
  | restored before hs hb hfix uid =>
    have hkeys : keysMatch m rel = true := hfix.resolve_right hv
    obtain ⟨hsticky, _⟩ := h.toRowInv.restore n hs hb
    rw [settle_row_of_sticky uid rel n hsticky]
    rcases h.before_cases hb with rfl | rfl
    · simp only [rowStatus, mirroredState_detour hs hkeys hb]
      simp [restore, quarantineStatus, UpdateStatus.isActive]
    · simp only [rowStatus, mirroredState_detour hs hkeys hb]
      simp [restore, failedStatus, UpdateStatus.isActive]
  | released hs hb hfix =>
    rw [rowStatus_released hs hfix hb, gates_isActive _ hon]
    exact ⟨fun hx => ⟨rfl, hx⟩, fun hx => hx.2⟩
  | kept hs hnu =>
    cases hst : cs.state with
    | quarantined =>
      rw [rowStatus_quarantined hst]
      simp [quarantineStatus, UpdateStatus.isActive]
    | failed =>
      rw [rowStatus_failed hst]
      simp [failedStatus, UpdateStatus.isActive]
    | notUpdatable =>
      rw [rowStatus_notUpdatable hst (hnu hst)]
      simp [notUpdatableStatus, UpdateStatus.isActive]
    | ok =>
      rw [hst] at hs
      cases hs
    | updating =>
      rw [hst] at hs
      cases hs
  | gaveUp hs hcap =>
    have hst := h.updating_of_capped hs hcap
    rw [rowStatus_capped hst hcap]
    simp [failedStatus, UpdateStatus.isActive, toFailed]
  | updating hs hcap =>
    rw [rowStatus_plain hs hcap, gates_isActive _ hon]
    exact ⟨fun hx => ⟨rfl, hx⟩, fun hx => hx.2⟩

/-- A module without a row shows like one with a fresh row. -/
theorem gates_none_verdict (n : Time) : (gates m st t (some rel) none busy now).verdict =
      (rowStatus m st t rel (freshRow n) busy now).verdict := by
  rw [rowStatus_plain rfl zero_lt_transientLimit]
  exact gates_verdict (some rel) rfl

end row

/-! ## the status of a module -/

/-- The display never reads the rollup. -/
theorem updateStatusDecide_core {m' : Module} (h : m'.core = m.core) (station : Option Station)
    (target : Option Target) (release : Option Release) (row : Option ConvergenceState)
    (busy : Bool) (now : Time) : updateStatusDecide m' station target release row busy now =
      updateStatusDecide m station target release row busy now := by
  rw [Module.eq_of_core h]
  rfl

/-- The status of an assigned module, in the reconciler's terms. -/
theorem moduleUpdateStatus_eq (now : Time) (hm : db.modules.get? uid = some m)
    (hs : db.openStation uid = some (pk, st)) :
    db.moduleUpdateStatus now uid = some (updateStatusDecide m (some st) (db.targetForModule uid m)
        ((db.desiredReleaseForModule uid m).map Prod.snd)
        ((db.desiredReleaseForModule uid m).bind fun r => db.rows.get? ⟨uid, r.1⟩)
        (db.lockHeld pk) now) := by
  have ht : db.targetForModule uid m = db.displayTarget pk st m.moduleType := by
    rw [displayTarget_eq]
    simp only [Db.targetForModule, hs]
  have hd : db.desiredReleaseForModule uid m =
      (db.displayTarget pk st m.moduleType).bind fun t =>
        db.findRelease m.moduleType m.variant t.version := by
    unfold Db.desiredReleaseForModule
    rw [ht]
    cases db.displayTarget pk st m.moduleType <;> rfl
  simp only [Db.moduleUpdateStatus, hm, hs, Option.map_some, ht, hd]

/-- The module's status after a reconcile is the same decision on the new
row. -/
theorem moduleUpdateStatus_reconcileModule (n now : Time) (hm : db.modules.get? uid = some m)
    (hs : db.openStation uid = some (pk, st)) :
    (db.reconcileModule n uid).1.moduleUpdateStatus now uid =
      some (updateStatusDecide m (some st) (db.targetForModule uid m)
        ((db.desiredReleaseForModule uid m).map Prod.snd)
        ((db.desiredReleaseForModule uid m).bind fun r =>
          (db.reconcileModule n uid).1.rows.get? ⟨uid, r.1⟩)
        (db.lockHeld pk) now) := by
  have hf := reconcileModule_frame db n uid
  obtain ⟨m', hm', hcore⟩ := hf.get? hm
  have hs' := (hf.openStation uid).trans hs
  have htarget : (db.reconcileModule n uid).1.targetForModule uid m' =
      db.targetForModule uid m := by
    rw [hf.targetForModule, Module.eq_of_core hcore]
    rfl
  have hlock : (db.reconcileModule n uid).1.lockHeld pk = db.lockHeld pk := by
    unfold Db.lockHeld
    rw [hf.locks]
  rw [moduleUpdateStatus_eq now hm' hs', hf.desired hcore, htarget, hlock,
    updateStatusDecide_core hcore]

/-- The stored row, or the fresh one that stands for a missing row. -/
theorem rowOrNew_settled (h : db.rows.All fun _ => Settled) (n : Time) (k : RowKey) :
    (db.rowOrNew n k).Settled := by
  unfold Db.rowOrNew
  cases hk : db.rows.get? k with
  | none => exact freshRow_settled n
  | some cs => exact h k cs hk

section decision

variable {m : Module} {st : Station} {t : Target} {rel : Release} {busy : Bool} {now : Time}

/-- A module that still needs a flash and has no key mismatch: the verdict of
a missing row is that of a fresh one. -/
theorem updateStatusDecide_row {db : Db} (n : Time) (k : RowKey)
    (hv : m.lastReportedVersion ≠ t.version) (hk : bootKeyMismatch m rel = false) :
    (updateStatusDecide m (some st) (some t) (some rel) (db.rows.get? k) busy now).verdict =
      (rowStatus m st t rel (db.rowOrNew n k) busy now).verdict := by
  unfold updateStatusDecide Db.rowOrNew
  simp only [hv, if_false, hk, Bool.false_eq_true]
  cases db.rows.get? k with
  | none => exact gates_none_verdict n
  | some cs => rfl

end decision

/-- On settled rows a reconcile does not change the verdict. -/
theorem verdict_reconcileModule (h : db.rows.All fun _ => Settled) (n now : Time) (uid : Uid) :
    ((db.reconcileModule n uid).1.moduleUpdateStatus now uid).map UpdateStatus.verdict =
      (db.moduleUpdateStatus now uid).map UpdateStatus.verdict := by
  cases hm : db.modules.get? uid with
  | none => rw [reconcileModule_of_missing n hm]
  | some m =>
    cases hs : db.openStation uid with
    | none =>
      have hf := reconcileModule_frame db n uid
      obtain ⟨m', hm', _⟩ := hf.get? hm
      simp only [Db.moduleUpdateStatus, hm, hm', hs, hf.openStation uid, Option.map_some]
      rfl
    | some e =>
      obtain ⟨pk, st⟩ := e
      rw [moduleUpdateStatus_eq now hm hs, moduleUpdateStatus_reconcileModule n now hm hs]
      simp only [Option.map_some, Option.some.injEq]
      cases hd : db.desiredReleaseForModule uid m with
      | none => rfl
      | some e =>
        obtain ⟨p, rel⟩ := e
        obtain ⟨t, ht, hver, _⟩ := desiredReleaseForModule_spec hd
        simp only [ht, Option.map_some, Option.bind_some]
        by_cases hv : m.lastReportedVersion = t.version
        · simp [updateStatusDecide, hv]
        · cases hk : bootKeyMismatch m rel with
          | true => simp [updateStatusDecide, hv, hk, notUpdatableStatus, UpdateStatus.verdict]
          | false =>
            have hrow : (db.reconcileModule n uid).1.rowOrNew n ⟨uid, p⟩ =
                (reconcilerDecide uid m rel n (db.rowOrNew n ⟨uid, p⟩)).row := by
              rw [reconcileModule_of_desired n hm hd, Db.rowOrNew, get?_apply_rows,
                if_pos rfl, Option.getD_some]
            rw [updateStatusDecide_row n ⟨uid, p⟩ hv hk,
              updateStatusDecide_row n ⟨uid, p⟩ hv hk, hrow]
            exact rowStatus_decided (rowOrNew_settled h n ⟨uid, p⟩)
              (reconcilerDecide_decided ..) (hver ▸ hv) hk

/-! ## pending and running -/

/-- Only a row that needs a flash and has no key mismatch is left
`updating`. -/
theorem Decided.of_updating {desired : Release} {n : Time} (h : cs.RowInv)
    (hd : Decided m desired n cs cs') (hs : cs'.state = .updating) :
    m.lastReportedVersion ≠ desired.version ∧ bootKeyMismatch m desired = false := by
  cases hd with
  | reached => cases hs
  | mismatch => cases hs
  | restored before hst hb _ uid =>
    obtain ⟨hsticky, _⟩ := h.restore n hst hb
    rw [settle_row_of_sticky uid desired n hsticky] at hs
    have hbefore : before = .updating := hs
    rw [hbefore] at hsticky
    cases hsticky
  | released _ _ hfix hv => exact ⟨hv, bootKeyMismatch_of_keysMatch hfix⟩
  | kept hsticky =>
    rw [hs] at hsticky
    cases hsticky
  | gaveUp => cases hs
  | updating _ _ hv hk => exact ⟨hv, hk⟩

/-- What the reconcile of a module with a desired release returns. -/
theorem reconcileModule_fetchRow {p : Pk} {rel : Release} (n : Time)
    (hm : db.modules.get? uid = some m) (hd : db.desiredReleaseForModule uid m = some (p, rel)) :
    (db.reconcileModule n uid).2 = some ⟨uid, p⟩ ∧
      ∃ m', m'.core = m.core ∧ (db.reconcileModule n uid).1.fetchRow ⟨uid, p⟩ =
        some ((reconcilerDecide uid m rel n (db.rowOrNew n ⟨uid, p⟩)).row, m', rel) := by
  obtain ⟨_, _, _, hrel⟩ := desiredReleaseForModule_spec hd
  have hf := reconcileModule_frame db n uid
  obtain ⟨m', hm', hcore⟩ := hf.get? hm
  refine ⟨by rw [reconcileModule_of_desired n hm hd], m', hcore, fetchRow_eq_some.mpr ⟨?_, hm', ?_⟩⟩
  · rw [reconcileModule_of_desired n hm hd, get?_apply_rows, if_pos rfl]
  · rw [hf.releases, hrel]

theorem isActive_of_verdict {s s' : UpdateStatus} (h : s.verdict = s'.verdict) :
    s.isActive = s'.isActive := by
  have hstate : s.state = s'.state := congrArg Prod.fst h
  unfold UpdateStatus.isActive
  rw [hstate]

/-- Without a desired release nothing is shown as active. -/
theorem isActive_of_no_release (m : Module) (st : Station) (target : Option Target) (busy : Bool)
    (now : Time) : (updateStatusDecide m (some st) target none none busy now).isActive = false := by
  cases target with
  | none => rfl
  | some t =>
    simp only [updateStatusDecide]
    split
    · rfl
    · simp only [gates, Option.bind_none]
      split
      · rfl
      · split <;> rfl

/-- The active row of a reconcile is `updating`, and the agent can execute it
or has already reported a phase of it. -/
def Db.leavesActive (db : Db) (active : Option RowKey) (backends : List Artifact) : Bool :=
  match active with
  | none => false
  | some k => match db.fetchRow k with
      | none => false
      | some (cs, module, release) =>
        cs.state = .updating ∧
          ((executableArtifact module (some release) backends).isSome ∨ cs.phase.isSome)

/-- The display shows a module as active exactly when its reconcile leaves the
row active. -/
theorem isActive_iff (h : db.rows.All fun _ => Settled) (n now : Time)
    (hs : db.openStation uid = some (pk, st)) (hon : isOnline st now = true)
    (hidle : db.lockHeld pk = false) :
    (∃ s, db.moduleUpdateStatus now uid = some s ∧ s.isActive = true) ↔
      (db.reconcileModule n uid).1.leavesActive (db.reconcileModule n uid).2
        (moduleOtaBackends st) = true := by
  cases hm : db.modules.get? uid with
  | none =>
    rw [reconcileModule_of_missing n hm]
    simp [Db.moduleUpdateStatus, hm, Db.leavesActive]
  | some m =>
    rw [moduleUpdateStatus_eq now hm hs, hidle]
    simp only [Option.some.injEq, exists_eq_left']
    cases hd : db.desiredReleaseForModule uid m with
    | none =>
      obtain ⟨c, hc⟩ := reconcileModule_of_none n hm hd
      rw [hc]
      simp [isActive_of_no_release, Db.leavesActive]
    | some e =>
      obtain ⟨p, rel⟩ := e
      obtain ⟨t, ht, hver, _⟩ := desiredReleaseForModule_spec hd
      obtain ⟨hkey, m', hcore, hfetch⟩ := reconcileModule_fetchRow n hm hd
      have hdec := reconcilerDecide_decided uid m rel n (db.rowOrNew n ⟨uid, p⟩)
      have hset := rowOrNew_settled h n ⟨uid, p⟩
      simp only [ht, Option.map_some, Option.bind_some, Db.leavesActive, hkey, hfetch,
        executableArtifact_core hcore, decide_eq_true_eq]
      by_cases hv : m.lastReportedVersion = t.version
      · refine iff_of_false ?_ fun hr => ?_
        · simp [updateStatusDecide, hv, UpdateStatus.isActive]
        · exact (hdec.of_updating hset.toRowInv hr.1).1 (hv.trans hver.symm)
      · cases hk : bootKeyMismatch m rel with
        | true =>
          refine iff_of_false ?_ fun hr => ?_
          · simp [updateStatusDecide, hv, hk, UpdateStatus.isActive, notUpdatableStatus]
          · have hk' := (hdec.of_updating hset.toRowInv hr.1).2
            rw [hk] at hk'
            cases hk'
        | false =>
          rw [isActive_of_verdict (updateStatusDecide_row n ⟨uid, p⟩ hv hk)]
          exact rowStatus_isActive hset hdec (hver ▸ hv) hk hon

/-- **The display mirrors the reconciler.**  In every database that the
endpoints reach from one without rows: state and reason code of a module's
status are the same before and after a reconcile of the module; and for an
online station without a held lock the status is pending or running exactly
when that reconcile leaves the current row `updating` and the agent can
execute the update or has already reported a phase of it. -/
theorem update_status_mirrors_reconciler (db₀ db : Db) (n now : Time) (uid : Uid)
    (h₀ : db₀.rows = Table.empty)
    (h : Reachable Db.step (fun _ op => op.isEndpoint = true) db₀ db) :
    ((db.reconcileModule n uid).1.moduleUpdateStatus now uid).map UpdateStatus.verdict =
      (db.moduleUpdateStatus now uid).map UpdateStatus.verdict ∧
    ∀ pk st, db.openStation uid = some (pk, st) → isOnline st now = true → db.lockHeld pk = false →
      ((∃ s, db.moduleUpdateStatus now uid = some s ∧ s.isActive = true) ↔
        (db.reconcileModule n uid).1.leavesActive (db.reconcileModule n uid).2
          (moduleOtaBackends st) = true) := by
  have hset := settled_of_reachable h₀ h
  refine ⟨verdict_reconcileModule hset n now uid, ?_⟩
  intro pk st hs hon hidle
  exact isActive_iff hset n now hs hon hidle

namespace Sample

/-- The sample module after an instruction and a first progress report. -/
def downloading : Db :=
  ((start.check 1 (some 1)).1.statusUpdate 2 (some 1) key (.progress .downloading) "").1

/-- The station whose agent has stopped reporting its DFU backend. -/
def bareStation : Station := { station with backends := some [] }

def withoutBackend : Db :=
  { downloading with stations := Table.empty.insert 1 bareStation }

end Sample

theorem update_status_mirrors_reconciler_sample : Sample.start.rows = Table.empty ∧
      ∃ s, Sample.downloading.moduleUpdateStatus 3 "m" = some s ∧ s.isActive = true := by
  refine ⟨rfl, ((update_status_mirrors_reconciler Sample.start Sample.downloading 3 3 "m" rfl
    (.step (i := .statusUpdate 2 (some 1) Sample.key (.progress .downloading) "")
      (.step (i := .check 1 (some 1)) .init rfl rfl) rfl rfl)).2
        1 Sample.station rfl rfl rfl).mpr ?_⟩
  decide

/-- A reported phase is shown as running although the agent cannot execute the
update any more. -/
theorem running_without_executable_artifact :
    Reachable Db.step (fun _ op => op.isEndpoint = true) Sample.start Sample.withoutBackend ∧
      Sample.withoutBackend.openStation "m" = some (1, Sample.bareStation) ∧
      isOnline Sample.bareStation 3 = true ∧ Sample.withoutBackend.lockHeld 1 = false ∧
      (Sample.withoutBackend.moduleUpdateStatus 3 "m").map (·.state) = some .running ∧
      ((Sample.withoutBackend.reconcileModule 3 "m").1.fetchRow Sample.key).map
        (fun r => executableArtifact r.2.1 (some r.2.2) (moduleOtaBackends Sample.bareStation)) =
          some none := by
  refine ⟨.step (i := .setStations (Table.empty.insert 1 Sample.bareStation))
    (.step (i := .statusUpdate 2 (some 1) Sample.key (.progress .downloading) "")
      (.step (i := .check 1 (some 1)) .init rfl rfl) rfl rfl) rfl rfl, ?_⟩
  decide

end StationManager.Firmware
