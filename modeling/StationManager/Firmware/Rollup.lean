import StationManager.Firmware.WellFormed

/-!
# StationManager.Firmware.Rollup

`Module.firmware_convergence` is a copy of the state of one row: the row of
the module's current desired release.  Operations that end in a reconcile
restore the copy.  `record_error` writes it from the row it was handed, which
need not be the current one, and writes `updating` for a row that stays `ok`;
`rollup_agrees_iff` says exactly when the copy still agrees afterwards.
-/

namespace StationManager.Firmware

namespace Db

/-- The key of the row of the module's current desired release. -/
def currentKey (db : Db) (uid : Uid) : Option RowKey :=
  match db.modules.get? uid with
  | none => none
  | some module => (db.desiredReleaseForModule uid module).map fun e => ⟨uid, e.1⟩

/-- The rollup of a module is the state of its current row, if it has one. -/
def Agrees (db : Db) (uid : Uid) : Prop :=
  ∀ m k cs, db.modules.get? uid = some m → db.currentKey uid = some k → db.rows.get? k = some cs →
    m.firmwareConvergence = cs.state.rollup

end Db

/-- The module an operation acts on. -/
def Op.subject : Op → Option Uid
  | .reconcileModule _ uid | .releaseQuarantine _ uid _ | .retryFailed _ uid _ => some uid
  | .statusUpdate _ _ k _ _ | .commit _ _ k _ | .recordError _ k _ _ _ => some k.module
  | _ => none

/-- The operation is carried out: a status report is accepted, a commit is
accepted or recorded as a mismatch, a row to record an error on exists. -/
def Op.succeeds (db : Db) : Op → Bool
  | .statusUpdate now station k status message =>
    (db.statusUpdate now station k status message).2 = .ok
  | .commit now station k version =>
    (db.commit now station k version).2 = .ok ∨
      (db.commit now station k version).2 =
        .conflict "Version mismatch — recorded as rolled_back."
  | .recordError _ k _ _ _ => (db.fetchRow k).isSome
  | _ => true

/-- The rollup that `record_error` writes for an error on row `cs`. -/
def writtenRollup (mode : ErrorMode) (cs : ConvergenceState) : Convergence :=
  if mode.quarantines cs then .quarantined
  else if mode = .transient ∧ cs.state = .updating ∧
      drainTransientLimit ≤ cs.transientFailures + 1 then .failed
  else if cs.state.isSticky then cs.state.rollup
  else .updating

/-- An error on row `k` leaves the rollup in agreement: there is no current
row; or `k` is the current row and does not stay `ok`; or another row is
current and its state is what the error writes. -/
def Db.errorAgrees (db : Db) (k : RowKey) (mode : ErrorMode) : Bool :=
  match db.currentKey k.module, db.rows.get? k with
  | none, _ | _, none => true
  | some c, some cs =>
    if c = k then ¬(cs.state = .ok ∧ ¬mode.quarantines cs)
    else match db.rows.get? c with
      | none => true
      | some cur => cur.state.rollup = writtenRollup mode cs

/-- When an operation leaves the rollup of its module in agreement with the
current row. -/
def Op.KeepsAgreement (db : Db) : Op → Prop
  | .statusUpdate _ _ k (.error e) _ => db.errorAgrees k e.mode = true
  | .statusUpdate _ _ k (.progress _) _ => db.Agrees k.module
  | .commit _ _ k version => version = db.targetVersion k ∨ db.errorAgrees k .rolledBack = true
  | .recordError _ k mode _ _ => db.errorAgrees k mode = true
  | _ => True

/-! ## the outcome of an error -/

/-- A row that stays `ok` is shown as `updating`. -/
def errorRollup (s : State) : Convergence := if s = .ok then .updating else s.rollup

theorem recordErrorOutcome_rollup (uid : Uid) (m : Module) (rel : Release) (mode : ErrorMode)
    (message : String) (now : Time) (cs : ConvergenceState) :
    (recordErrorOutcome uid m rel mode message now cs).rollup =
      errorRollup (recordErrorOutcome uid m rel mode message now cs).row.state := by
  unfold recordErrorOutcome
  simp only
  split
  · rfl
  · split
    · next hq => simp only [hq, errorRollup, State.rollup, reduceCtorEq, if_false]
    · split
      · next hs =>
        have hne : (judge mode (cs.stamp mode message now)).1.state ≠ .ok := by
          intro h
          rw [h] at hs
          cases hs
        rw [errorRollup, if_neg hne]
      · next hq hs =>
        cases hst : (judge mode (cs.stamp mode message now)).1.state <;>
          simp_all [State.isSticky, errorRollup, State.rollup]

/-- The state an error leaves shows as `writtenRollup`, and is `ok` only when
the row was `ok` and the error does not quarantine. -/
theorem Errored.state_rollup {mode : ErrorMode} {message : String} {now : Time}
    {cs cs' : ConvergenceState} (h : Errored mode message now cs cs') :
    errorRollup cs'.state = writtenRollup mode cs ∧
      (cs'.state = .ok ↔ cs.state = .ok ∧ ¬mode.quarantines cs = true) := by
  cases h with
  | rejected hm =>
    have hq : mode.quarantines cs = true := decide_eq_true (.inl hm)
    simp [writtenRollup, hq, errorRollup, State.rollup]
  | quarantined hm hatt =>
    have hq : mode.quarantines cs = true := decide_eq_true (.inr ⟨hm, hatt⟩)
    simp [writtenRollup, hq, errorRollup, State.rollup]
  | counted hm hatt =>
    subst hm
    have hq : ErrorMode.quarantines .rolledBack cs = false := by
      simp [ErrorMode.quarantines, Nat.not_le_of_lt hatt]
    have hst : (cs.stamp .rolledBack message now).state = cs.state := rfl
    cases hs : cs.state <;>
      simp [writtenRollup, hq, hst, hs, errorRollup, State.rollup, State.isSticky]
  | gaveUp hm hs hcap =>
    subst hm
    simp [writtenRollup, ErrorMode.quarantines, errorRollup, State.rollup, hs, hcap,
      ConvergenceState.toFailed]
  | failure hm hcap =>
    subst hm
    have hst : (cs.stamp .transient message now).state = cs.state := rfl
    have hcap' : ¬(ErrorMode.transient = .transient ∧ cs.state = .updating ∧
        drainTransientLimit ≤ cs.transientFailures + 1) := fun h => hcap h.2
    rw [writtenRollup, if_neg (by simp [ErrorMode.quarantines]), if_neg hcap']
    cases hs : cs.state <;>
      simp [hst, hs, errorRollup, State.rollup, State.isSticky, ErrorMode.quarantines]

/-! ## agreement after a stored outcome -/

variable {db : Db} {k : RowKey}

/-- Across a frame the current row is the same one. -/
theorem Frame.currentKey {db' : Db} (h : Frame db db') (uid : Uid) :
    db'.currentKey uid = db.currentKey uid := by
  unfold Db.currentKey
  cases hm : db.modules.get? uid with
  | none =>
    have hc := h.core uid
    rw [hm] at hc
    have hm' : db'.modules.get? uid = none := by simpa using hc
    rw [hm']
  | some m =>
    obtain ⟨m', hm', hcore⟩ := h.get? hm
    simp only [hm', h.desired hcore]

/-- After an outcome is stored for row `k`: the current row is `k` and shows
the rollup, or another row is current and shows it. -/
theorem agrees_apply {m : Module} (st : Option Pk) (o : Outcome)
    (hm : db.modules.get? k.module = some m) : (db.apply k st o).Agrees k.module ↔
      ∀ c, db.currentKey k.module = some c → (c = k → o.rollup = o.row.state.rollup) ∧
          (c ≠ k → ∀ cur, db.rows.get? c = some cur → o.rollup = cur.state.rollup) := by
  have hkey := (Frame.apply db k st o).currentKey k.module
  have hmod : (db.apply k st o).modules.get? k.module =
      some { m with firmwareConvergence := o.rollup } := by
    have h := Db.get?_setConvergenceRollup db k.module k.module o.rollup
    rw [if_pos rfl, hm] at h
    exact h
  constructor
  · intro h c hc
    refine ⟨?_, ?_⟩
    · rintro rfl
      exact h _ c o.row hmod (hkey.trans hc) (by rw [get?_apply_rows, if_pos rfl])
    · intro hne cur hcur
      exact h _ c cur hmod (hkey.trans hc) (by rw [get?_apply_rows, if_neg hne, hcur])
  · intro h m' c cs hm' hc hcs
    rw [hmod] at hm'
    cases hm'
    obtain ⟨hself, hother⟩ := h c (hkey.symm.trans hc)
    rw [get?_apply_rows] at hcs
    split at hcs
    · next hck =>
      cases hcs
      exact hself hck
    · next hck => exact hother hck cs hcs

/-- **Reconciling restores the agreement.** -/
theorem agrees_reconcileModule (db : Db) (now : Time) (uid : Uid) :
    (db.reconcileModule now uid).1.Agrees uid := by
  rcases reconcileModule_cases db now uid with ⟨hm, h⟩ | ⟨m, c, hm, hd, h⟩ | ⟨m, p, rel, hm, hd, h⟩
  · rw [h]
    intro m' k cs hm'
    rw [hm] at hm'
    cases hm'
  · rw [h]
    intro m' k cs _ hk
    rw [(Frame.setConvergenceRollup db uid c).currentKey] at hk
    simp only [Db.currentKey, hm, hd, Option.map_none] at hk
    cases hk
  · rw [h]
    refine (agrees_apply (k := ⟨uid, p⟩) _ _ hm).mpr ?_
    intro c hc
    simp only [Db.currentKey, hm, hd, Option.map_some, Option.some.injEq] at hc
    refine ⟨fun _ => reconcilerDecide_rollup .., fun hne => absurd hc.symm hne⟩

/-- **An error on row `k` agrees exactly when `errorAgrees` says so.** -/
theorem agrees_recordError (now : Time) (mode : ErrorMode) (message : String) (st : Option Pk)
    (hfetch : (db.fetchRow k).isSome = true) :
    (db.recordError now k mode message st).Agrees k.module ↔ db.errorAgrees k mode = true := by
  obtain ⟨⟨cs, m, rel⟩, hf⟩ := Option.isSome_iff_exists.mp hfetch
  obtain ⟨hrow, hm, _⟩ := fetchRow_eq_some.mp hf
  obtain ⟨hwritten, hok⟩ :=
    (recordErrorOutcome_errored k.module m rel mode message now cs).state_rollup
  have hroll := recordErrorOutcome_rollup k.module m rel mode message now cs
  simp only [Db.recordError, hf]
  rw [agrees_apply _ _ hm]
  unfold Db.errorAgrees
  rw [hrow]
  cases hc : db.currentKey k.module with
  | none => simp
  | some c =>
    simp only [Option.some.injEq, forall_eq']
    by_cases hck : c = k
    · simp only [hck, ne_eq, not_true_eq_false, false_implies, and_true, true_implies, if_true,
        decide_eq_true_eq]
      rw [hroll, ← hok, errorRollup]
      split
      · next hs => simp [hs, State.rollup]
      · next hs => simp [hs]
    · simp only [hck, false_implies, ne_eq, not_false_eq_true, true_implies, true_and, if_false]
      rw [hroll, hwritten]
      cases hcur : db.rows.get? c with
      | none => simp
      | some cur => simp [eq_comm]

/-! ## the operations -/

theorem agrees_log (db : Db) (es : List AuditEntry) (uid : Uid) :
    (db.log es).Agrees uid ↔ db.Agrees uid := Iff.rfl

theorem agrees_releaseQuarantine (db : Db) (now : Time) (uid : Uid) (suffix : String) :
    (db.releaseQuarantine now uid suffix).1.Agrees uid := by
  unfold Db.releaseQuarantine
  simp only
  split
  · exact agrees_reconcileModule db now uid
  · exact (agrees_log ..).mpr (agrees_reconcileModule _ now uid)

theorem agrees_retryFailed (db : Db) (now : Time) (uid : Uid) (suffix : String) :
    (db.retryFailed now uid suffix).1.Agrees uid := by
  unfold Db.retryFailed
  simp only
  split
  · exact agrees_reconcileModule db now uid
  · exact (agrees_log ..).mpr (agrees_reconcileModule _ now uid)

/-- An accepted status report found its row and was applied. -/
theorem statusUpdate_ok {now : Time} {station : Option Pk} {status : StatusReport}
    {message : String} (h : (db.statusUpdate now station k status message).2 = .ok) :
    ∃ pk cs m rel, db.fetchRow k = some (cs, m, rel) ∧
      (db.statusUpdate now station k status message).1 =
        db.applyStatus now pk k cs m rel status (validateErrorMessage message) := by
  unfold Db.statusUpdate at h ⊢
  split at h
  · cases h
  · next pk =>
    split at h
    · cases h
    · next cs m rel hfetch =>
      split at h
      · cases h
      · next hbound =>
        split at h
        · cases h
        · next hgiven =>
          split at h
          · cases h
          · next hst =>
            refine ⟨pk, cs, m, rel, hfetch, ?_⟩
            rw [if_neg hbound, if_neg hgiven, if_neg hst]

/-- A commit that is carried out found its row; it is a mismatch or it is
accepted. -/
theorem commit_carried_out {now : Time} {station : Option Pk} {version : String}
    (h : (db.commit now station k version).2 = .ok ∨
      (db.commit now station k version).2 =
        .conflict "Version mismatch — recorded as rolled_back.") :
    ∃ pk cs m rel, db.fetchRow k = some (cs, m, rel) ∧
      (db.commit now station k version).1 =
        if version ≠ rel.version then db.commitMismatch now pk k m rel version
        else db.commitAccept now pk k cs version := by
  unfold Db.commit at h ⊢
  split at h
  · rcases h with h | h <;> cases h
  · next pk =>
    split at h
    · rcases h with h | h <;> cases h
    · next cs m rel hfetch =>
      split at h
      · rcases h with h | h <;> cases h
      · next hbound =>
        split at h
        · -- a given-up row answers with its state, not with the mismatch
          next hgiven =>
            rcases h with h | h
            · cases h
            · exfalso
              simp only [Db.conflictOn, Response.conflict.injEq] at h
              revert h hgiven
              cases cs.state <;> decide
        · next hgiven =>
          refine ⟨pk, cs, m, rel, hfetch, ?_⟩
          rw [if_neg hbound, if_neg hgiven]
          split <;> rfl

/-- A progress report moves neither the rollup nor the state of the row. -/
theorem agrees_progress {cs : ConvergenceState} (phase : Phase) (now : Time)
    (hrow : db.rows.get? k = some cs) (uid : Uid) :
    (db.putRow k (progressRow phase now cs)).Agrees uid ↔ db.Agrees uid := by
  have hst := (progressRow_keeps phase now cs).1
  have hkey : (db.putRow k (progressRow phase now cs)).currentKey uid = db.currentKey uid := rfl
  constructor
  · intro h m c cur hm hc hcur
    by_cases hck : c = k
    · subst hck
      rw [hrow] at hcur
      cases hcur
      rw [← hst]
      exact h m c _ hm (hkey.trans hc) (by rw [Db.get?_putRow, if_pos rfl])
    · exact h m c cur hm (hkey.trans hc) (by rw [Db.get?_putRow, if_neg hck, hcur])
  · intro h m c cur hm hc hcur
    rw [Db.get?_putRow] at hcur
    split at hcur
    · next hck =>
      cases hcur
      rw [hst]
      exact h m c cs hm (hkey.symm.trans hc) (by rw [hck, hrow])
    · exact h m c cur hm (hkey.symm.trans hc) hcur

theorem errorAgrees_audit (db : Db) (k : RowKey) (pk : Pk) (es : List (EventType × String))
    (mode : ErrorMode) : (db.audit k pk es).errorAgrees k mode = db.errorAgrees k mode := rfl

theorem isSome_fetchRow_audit {r : ConvergenceState × Module × Release} (pk : Pk)
    (es : List (EventType × String)) (h : db.fetchRow k = some r) :
    ((db.audit k pk es).fetchRow k).isSome = true :=
  Option.isSome_iff_exists.mpr ⟨r, h⟩

/-- **When the rollup agrees.**  After an operation on a module has been
carried out, in any database, the module's rollup is the state of its current
row exactly when: the operation reconciles the module (a reconcile, a release,
a retry, an accepted commit); or it is a progress report and they agreed
before; or it records an error and `errorAgrees` holds for the row and the
mode of the error. -/
theorem rollup_agrees_iff (db db' : Db) (op : Op) (uid : Uid) (hstep : db.step op = some db')
    (hsub : op.subject = some uid) (hsucc : op.succeeds db = true) :
    db'.Agrees uid ↔ op.KeepsAgreement db := by
  cases op with
  | reconcileModule now u =>
    cases hsub
    cases hstep
    exact iff_of_true (agrees_reconcileModule db now uid) trivial
  | releaseQuarantine now u suffix =>
    cases hsub
    cases hstep
    exact iff_of_true (agrees_releaseQuarantine db now uid suffix) trivial
  | retryFailed now u suffix =>
    cases hsub
    cases hstep
    exact iff_of_true (agrees_retryFailed db now uid suffix) trivial
  | recordError now k mode message station =>
    cases hsub
    cases hstep
    exact agrees_recordError now mode message station hsucc
  | statusUpdate now station k status message =>
    cases hsub
    cases hstep
    obtain ⟨pk, cs, m, rel, hfetch, hdb⟩ := statusUpdate_ok (of_decide_eq_true hsucc)
    rw [hdb]
    cases status with
    | error e =>
      refine (agrees_recordError now e.mode _ _ (isSome_fetchRow_audit pk _ hfetch)).trans ?_
      rw [errorAgrees_audit]
      rfl
    | progress phase => exact agrees_progress phase now (fetchRow_eq_some.mp hfetch).1 k.module
  | commit now station k version =>
    cases hsub
    cases hstep
    obtain ⟨pk, cs, m, rel, hfetch, hdb⟩ := commit_carried_out (of_decide_eq_true hsucc)
    have htarget : db.targetVersion k = rel.version := by
      rw [Db.targetVersion, (fetchRow_eq_some.mp hfetch).2.2, Option.map_some, Option.getD_some]
    simp only [hdb, Op.KeepsAgreement, htarget]
    split
    · next hne =>
      refine (agrees_recordError now .rolledBack _ _
        (isSome_fetchRow_audit pk _ hfetch)).trans ?_
      rw [errorAgrees_audit]
      exact ⟨.inr, fun h => h.resolve_left hne⟩
    · next heq => exact iff_of_true (agrees_reconcileModule _ now k.module) (.inl (not_not.mp heq))
  | _ => cases hsub

namespace Sample

/-- The module runs the target and its row is `ok`. -/
def converged : Db :=
  fleet { module with lastReportedVersion := "2.0.0", firmwareConvergence := .ok }
    (Table.empty.insert key { state := .ok, createdAt := 0, updatedAt := 0 })

/-- The row of the superseded release 1 is still `updating`, so is the row of
the current release 2. -/
def superseded : Db :=
  fleet { module with lastReportedVersion := "0.9.0", firmwareConvergence := .updating }
    ((Table.empty.insert ⟨"m", 1⟩ (freshRow 0)).insert key (freshRow 0))

end Sample

/-- Rejecting the current row of `superseded` agrees, rejecting the superseded
one does not. -/
theorem rollup_agrees_iff_superseded :
    (Sample.superseded.recordError 1 Sample.key .rejected "" none).Agrees "m" ∧
      ¬(Sample.superseded.recordError 1 ⟨"m", 1⟩ .rejected "" none).Agrees "m" := by
  refine ⟨(rollup_agrees_iff Sample.superseded _ (.recordError 1 Sample.key .rejected "" none) "m"
    rfl rfl rfl).mpr ?_, ?_⟩
  · show Sample.superseded.errorAgrees Sample.key .rejected = true
    decide
  · rw [rollup_agrees_iff Sample.superseded _ (.recordError 1 ⟨"m", 1⟩ .rejected "" none) "m"
      rfl rfl rfl]
    show ¬Sample.superseded.errorAgrees ⟨"m", 1⟩ .rejected = true
    decide

/-- A mismatching commit against a converged module shows it as `updating`
while its row is `ok`; a rejected callback against a row of a superseded
target shows the module as quarantined while its current row is
`updating`. -/
theorem rollup_disagrees :
    ((Sample.converged.commit 1 (some 1) Sample.key "1.0.0").2 =
        .conflict "Version mismatch — recorded as rolled_back." ∧
      ¬(Sample.converged.commit 1 (some 1) Sample.key "1.0.0").1.Agrees "m") ∧
    ((Sample.superseded.statusUpdate 1 (some 1) ⟨"m", 1⟩ (.error .rejected) "").2 = .ok ∧
      ¬(Sample.superseded.statusUpdate 1 (some 1) ⟨"m", 1⟩ (.error .rejected) "").1.Agrees "m") := by
  refine ⟨⟨by decide, ?_⟩, ⟨by decide, ?_⟩⟩
  · intro h
    cases h _ Sample.key _ rfl rfl rfl
  · intro h
    cases h _ Sample.key _ rfl rfl rfl

end StationManager.Firmware
