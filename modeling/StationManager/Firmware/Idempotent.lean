import StationManager.Firmware.WellFormed

/-!
# StationManager.Firmware.Idempotent

A second `reconcile_module` changes nothing but `updated_at`.

One run may take a row through several steps of `_decide`, so the point is that
the row it leaves is stable: deciding on it again keeps it and writes nothing to
the audit log.  The row has to remember only a quarantine or a failure over a
detour, which is all that any operation ever stores (`Remembers`).
-/

namespace StationManager.Firmware

namespace ConvergenceState

/-- The row apart from `updated_at`. -/
def untimed (cs : ConvergenceState) : ConvergenceState := { cs with updatedAt := 0 }

/-- What a detour stands in for is a quarantine or a failure. -/
def Remembers (cs : ConvergenceState) : Prop :=
  cs.stateBeforeNotUpdatable = none ∨ cs.stateBeforeNotUpdatable = some .quarantined ∨
    cs.stateBeforeNotUpdatable = some .failed

/-- A decision on the row keeps it and writes no audit entry. -/
structure Stable (uid : Uid) (m : Module) (desired : Release) (now : Time)
    (cs : ConvergenceState) : Prop where
  row : (reconcilerDecide uid m desired now cs).row.untimed = cs.untimed
  audits : (reconcilerDecide uid m desired now cs).audits = []

theorem Stable.rollup {uid : Uid} {m : Module} {desired : Release} {now : Time}
    {cs : ConvergenceState} (h : cs.Stable uid m desired now) :
    (reconcilerDecide uid m desired now cs).rollup = cs.state.rollup := by
  have hstate : (reconcilerDecide uid m desired now cs).row.untimed.state = cs.untimed.state := by
    rw [h.row]
  rw [reconcilerDecide_rollup]
  exact congrArg State.rollup hstate

end ConvergenceState

/-! ## one decision leaves a stable row -/

section stable

variable {uid : Uid} {m : Module} {desired : Release} {cs : ConvergenceState}

/-- A row that has neither reached the version nor a key mismatch nor a detour. -/
theorem decide_eq_settle (uid : Uid) (now : Time)
    (hreach : ¬(m.lastReportedVersion = desired.version ∧ cs.sticky ≠ some .quarantined))
    (hmis : ¬(m.lastReportedVersion ≠ desired.version ∧ bootKeyMismatch m desired = true))
    (hs : cs.state ≠ .notUpdatable) :
    reconcilerDecide uid m desired now cs = settle uid desired now cs := by
  have hfixed : keyFixed uid m desired now cs = (cs, []) := by
    unfold keyFixed
    simp only
    split
    · next h _ => exact absurd h hs
    · next h _ => exact absurd h hs
    · rfl
  unfold reconcilerDecide
  rw [if_neg hreach, if_neg hmis, hfixed]
  rfl

variable (now now' : Time)

/-- Such a row in a sticky state. -/
theorem stable_of_sticky
    (hreach : ¬(m.lastReportedVersion = desired.version ∧ cs.sticky ≠ some .quarantined))
    (hmis : ¬(m.lastReportedVersion ≠ desired.version ∧ bootKeyMismatch m desired = true))
    (hs : cs.state ≠ .notUpdatable) (hsticky : cs.state.isSticky = true) :
    cs.Stable uid m desired now := by
  have heq := decide_eq_settle uid now hreach hmis hs
  rw [settle, if_pos hsticky] at heq
  constructor
  · rw [heq]
  · rw [heq]

/-- Such a row that is updating, below the transient cap. -/
theorem stable_of_updating (hv : m.lastReportedVersion ≠ desired.version)
    (hmis : ¬(m.lastReportedVersion ≠ desired.version ∧ bootKeyMismatch m desired = true))
    (hs : cs.state = .updating) (hcap : cs.transientFailures < drainTransientLimit) :
    cs.Stable uid m desired now := by
  have heq := decide_eq_settle uid now (fun h => hv h.1) hmis
    (show cs.state ≠ .notUpdatable by simp [hs])
  rw [settle, if_neg (by simp [hs, State.isSticky]), if_neg (Nat.not_le.mpr hcap)] at heq
  constructor
  · rw [heq]
    simp only [ConvergenceState.untimed, ConvergenceState.toUpdating, hs]
  · rw [heq]

/-- A row that a decision leaves alone without a word is stable. -/
theorem stable_of_eq (h : ∀ t, (reconcilerDecide uid m desired t cs).row = cs ∧
      (reconcilerDecide uid m desired t cs).audits = []) :
    (reconcilerDecide uid m desired now cs).row.Stable uid m desired now' := by
  rw [(h now).1]
  constructor
  · rw [(h now').1]
  · exact (h now').2

/-- After the version is reached the row is `ok`. -/
theorem stable_reached (hv : m.lastReportedVersion = desired.version) :
    (cs.toOk now).Stable uid m desired now' := by
  have heq : reconcilerDecide uid m desired now' (cs.toOk now) =
      reached uid desired now' (cs.toOk now) := by
    unfold reconcilerDecide
    rw [if_pos ⟨hv, by simp [ConvergenceState.toOk, ConvergenceState.sticky]⟩]
  constructor
  · rw [heq]
    rfl
  · rw [heq]
    rfl

/-- With different keys the row is, and stays, `not_updatable`. -/
theorem stable_keyMismatch (hv : m.lastReportedVersion ≠ desired.version)
    (hk : bootKeyMismatch m desired = true) (hs : cs.state = .notUpdatable) :
    cs.Stable uid m desired now' := by
  have heq : reconcilerDecide uid m desired now' cs = { row := cs, rollup := .notUpdatable } := by
    unfold reconcilerDecide keyMismatch
    rw [if_neg fun h => hv h.1, if_pos ⟨hv, hk⟩, if_pos hs]
  constructor
  · rw [heq]
  · rw [heq]

/-- The third branch: the row is restored, released, kept, given up or updating. -/
theorem stable_keyFixed (h : cs.Remembers) (now now' : Time)
    (hreach : ¬(m.lastReportedVersion = desired.version ∧ cs.sticky ≠ some .quarantined))
    (hmis : ¬(m.lastReportedVersion ≠ desired.version ∧ bootKeyMismatch m desired = true)) :
    (settle uid desired now (keyFixed uid m desired now cs).1).row.Stable uid m desired now' := by
  have hdecide : ∀ t, reconcilerDecide uid m desired t cs =
      { settle uid desired t (keyFixed uid m desired t cs).1 with
        audits := (keyFixed uid m desired t cs).2 ++
          (settle uid desired t (keyFixed uid m desired t cs).1).audits } := by
    intro t
    unfold reconcilerDecide
    rw [if_neg hreach, if_neg hmis]
  -- a detour that stays
  have hkept : cs.state = .notUpdatable → (∀ t, keyFixed uid m desired t cs = (cs, [])) →
      (settle uid desired now cs).row.Stable uid m desired now' := by
    intro hs hfixed
    have hsettle : ∀ t, settle uid desired t cs = { row := cs, rollup := cs.state.rollup } :=
      fun t => if_pos (by rw [hs]; rfl)
    have heq : ∀ t, (reconcilerDecide uid m desired t cs).row = cs ∧
        (reconcilerDecide uid m desired t cs).audits = [] := by
      intro t
      rw [hdecide t, hfixed t, hsettle t]
      exact ⟨rfl, rfl⟩
    have hrow := stable_of_eq now now' heq
    rwa [(heq now).1, ← show (settle uid desired now cs).row = cs by rw [hsettle]] at hrow
  unfold keyFixed at hkept ⊢
  simp only at hkept ⊢
  split
  · next before hs hb =>
    simp only [hs, hb] at hkept
    split
    · next hfix =>
      -- the state the detour stood in for is sticky
      rcases h with h | h | h
      · rw [h] at hb
        cases hb
      · rw [h] at hb
        cases hb
        rw [settle_row_of_sticky _ _ _ rfl]
        exact stable_of_sticky now' (fun hr => hr.2 rfl) hmis (by simp [ConvergenceState.restore])
          rfl
      · rw [h] at hb
        cases hb
        rw [settle_row_of_sticky _ _ _ rfl]
        have hv : m.lastReportedVersion ≠ desired.version := fun hv =>
          hreach ⟨hv, by simp [ConvergenceState.sticky, hs, h]⟩
        exact stable_of_sticky now' (fun hr => hv hr.1) hmis
          (by simp [ConvergenceState.restore]) rfl
    · next hfix => exact hkept trivial fun _ => if_neg hfix
  · next hs hb =>
    simp only [hs, hb] at hkept
    have hv : m.lastReportedVersion ≠ desired.version := fun hv =>
      hreach ⟨hv, by simp [ConvergenceState.sticky, hs, hb]⟩
    split
    · next hfix => exact stable_of_updating now' hv hmis rfl zero_lt_transientLimit
    · next hfix => exact hkept trivial fun _ => if_neg hfix
  · next hnone hsome =>
    have hs : cs.state ≠ .notUpdatable := by
      intro hs
      cases hb : cs.stateBeforeNotUpdatable with
      | none => exact hsome hs hb
      | some before => exact hnone before hs hb
    cases hsticky : cs.state.isSticky with
    | true =>
      rw [settle_row_of_sticky uid desired now hsticky]
      exact stable_of_sticky now' hreach hmis hs hsticky
    | false =>
      have hv : m.lastReportedVersion ≠ desired.version := fun hv =>
        hreach ⟨hv, by
          rw [sticky_of_not_isSticky hsticky]
          intro hq
          rw [Option.some.inj hq] at hsticky
          cases hsticky⟩
      unfold settle
      rw [if_neg (by simp [hsticky])]
      split
      · exact stable_of_sticky now' (fun hr => hv hr.1) hmis (by simp [giveUp,
          ConvergenceState.toFailed]) rfl
      · next hcap => exact stable_of_updating now' hv hmis rfl (Nat.lt_of_not_le hcap)

/-- **One decision leaves a stable row.** -/
theorem stable_decide (h : cs.Remembers) (now now' : Time) :
    (reconcilerDecide uid m desired now cs).row.Stable uid m desired now' := by
  by_cases hreach : m.lastReportedVersion = desired.version ∧ cs.sticky ≠ some .quarantined
  · have heq : reconcilerDecide uid m desired now cs = reached uid desired now cs := if_pos hreach
    rw [heq]
    exact stable_reached now now' hreach.1
  · by_cases hmis : m.lastReportedVersion ≠ desired.version ∧ bootKeyMismatch m desired = true
    · have heq : reconcilerDecide uid m desired now cs = keyMismatch m now cs := by
        unfold reconcilerDecide
        rw [if_neg hreach, if_pos hmis]
      rw [heq]
      unfold keyMismatch
      split
      · next hs => exact stable_keyMismatch now' hmis.1 hmis.2 hs
      · exact stable_keyMismatch now' hmis.1 hmis.2 rfl
    · have heq : (reconcilerDecide uid m desired now cs).row =
          (settle uid desired now (keyFixed uid m desired now cs).1).row := by
        unfold reconcilerDecide
        rw [if_neg hreach, if_neg hmis]
      rw [heq]
      exact stable_keyFixed h now now' hreach hmis

end stable

/-! ## every stored row remembers -/

variable {cs : ConvergenceState} {db : Db} {m : Module}

theorem remembers_decided {desired : Release} {now : Time} {cs' : ConvergenceState}
    (hd : Decided m desired now cs cs') (h : cs.Remembers) : cs'.Remembers := by
  cases hd with
  | reached => exact .inl rfl
  | mismatch =>
    unfold ConvergenceState.Remembers ConvergenceState.toNotUpdatable
    simp only
    split
    · next hs =>
      rcases hs with hs | hs
      · exact .inr (.inl (by rw [hs]))
      · exact .inr (.inr (by rw [hs]))
    · exact .inl rfl
  | restored before _ _ _ uid =>
    refine .inl ?_
    unfold settle
    split
    · rfl
    · split
      · rfl
      · rfl
  | released _ hb => exact .inl hb
  | kept | gaveUp | updating => exact h

theorem remembers_errored {mode : ErrorMode} {message : String} {now : Time}
    {cs' : ConvergenceState} (he : Errored mode message now cs cs') (h : cs.Remembers) :
    cs'.Remembers := by
  cases he with
  | _ => exact h

theorem remembers_apply (rop : RowOp) (h : cs.Remembers) : (rop.apply cs).Remembers := by
  cases rop with
  | decide uid m desired now =>
    exact remembers_decided (reconcilerDecide_decided uid m desired now cs) h
  | error uid m rel mode message now =>
    exact remembers_errored (recordErrorOutcome_errored uid m rel mode message now cs) h
  | instruct | commit | clearNotice => exact h
  | progress phase now =>
    obtain ⟨-, -, -, hbefore, -⟩ := progressRow_keeps phase now cs
    simpa only [ConvergenceState.Remembers, RowOp.apply, hbefore] using h
  | release | retry => exact .inl rfl

/-- In every database that any operations reach from one without rows. -/
theorem remembers_of_reachable {db₀ : Db} (h₀ : db₀.rows = Table.empty)
    (h : Reachable Db.step (fun _ _ => True) db₀ db) :
    db.rows.All fun _ => ConvergenceState.Remembers :=
  all_rows_reachable h₀ h (fun _ => .inl rfl) fun _ _ _ _ rop _ _ hcs _ => remembers_apply rop hcs

/-! ## the second reconcile -/

/-- The database apart from `updated_at` of its convergence rows. -/
def Db.untimed (db : Db) : Db := { db with rows := db.rows.map fun _ cs => cs.untimed }

/-- Setting the rollup that is set. -/
theorem setConvergenceRollup_of_eq (db : Db) {uid : Uid} (hm : db.modules.get? uid = some m) :
    db.setConvergenceRollup uid m.firmwareConvergence = db := by
  have hfix : db.modules.modify uid (fun m' =>
      if m'.firmwareConvergence ≠ m.firmwareConvergence then
        { m' with firmwareConvergence := m.firmwareConvergence } else m') = db.modules := by
    refine Table.modify_of_fixed _ _ fun m' hm' => ?_
    rw [hm] at hm'
    cases hm'
    rw [if_neg (fun h => h rfl)]
  unfold Db.setConvergenceRollup Db.setModule
  rw [hfix]

/-- A decision that keeps the row, its rollup and the log. -/
theorem apply_untimed {k : RowKey} {st : Option Pk} {o : Outcome} (hrow : db.rows.get? k = some cs)
    (hm : db.modules.get? k.module = some m) (ho : o.row.untimed = cs.untimed)
    (hr : o.rollup = m.firmwareConvergence) (ha : o.audits = []) :
    (db.apply k st o).untimed = db.untimed := by
  have hrows : ((db.rows.insert k o.row).modify k fun _ => o.row).map (fun _ cs => cs.untimed) =
      db.rows.map fun _ cs => cs.untimed := by
    rw [Table.insert_of_get? _ _ hrow]
    refine Table.map_modify _ _ _ fun cs' hcs' => ?_
    rw [hrow] at hcs'
    cases hcs'
    exact ho
  have hrollup := setConvergenceRollup_of_eq (db.putRow k o.row) hm
  unfold Db.apply Db.untimed
  rw [ha, hr, hrollup]
  simp only [Db.log, Db.putRow, List.map_nil, List.append_nil, hrows]

/-- Without a desired release the rollup that the first run sets is the one the second
sets. -/
theorem reconcileModule_twice_of_none {uid : Uid} (now now' : Time)
    (hm : db.modules.get? uid = some m) (hd : db.desiredReleaseForModule uid m = none) :
    ((db.reconcileModule now uid).1.reconcileModule now' uid).1 =
      (db.reconcileModule now uid).1 := by
  have hm₁ : ∀ c, (db.setConvergenceRollup uid c).modules.get? uid =
      some { m with firmwareConvergence := c } := by
    intro c
    rw [Db.get?_setConvergenceRollup, if_pos rfl, hm]
    rfl
  have ht₁ : ∀ c, (db.setConvergenceRollup uid c).targetForModule uid
      { m with firmwareConvergence := c } = db.targetForModule uid m :=
    fun c => (Frame.setConvergenceRollup db uid c).targetForModule uid _
  -- the rollup is the one set by the first run, so setting it again does nothing
  have hagain : ∀ c c', c' = c → (db.setConvergenceRollup uid c).setConvergenceRollup uid c' =
      db.setConvergenceRollup uid c := by
    intro c c' hc
    rw [hc]
    exact setConvergenceRollup_of_eq _ (hm₁ c)
  unfold Db.desiredReleaseForModule at hd
  cases ht : db.targetForModule uid m with
  | none =>
    have hrun : ∀ (d : Db) (m : Module) (t : Time), d.modules.get? uid = some m →
        d.targetForModule uid m = none → (d.reconcileModule t uid).1 =
          d.setConvergenceRollup uid
            (if m.firmwareConvergence = .unknown then .unknown else .ok) := by
      intro d m t hm ht
      simp only [Db.reconcileModule, hm, ht]
    rw [hrun db m now hm ht, hrun _ _ now' (hm₁ _) ((ht₁ _).trans ht)]
    refine hagain _ _ ?_
    by_cases hu : m.firmwareConvergence = .unknown
    · simp [hu]
    · simp [hu]
  | some t =>
    simp only [ht] at hd
    have hrun : ∀ (d : Db) (m : Module) (time : Time), d.modules.get? uid = some m →
        d.targetForModule uid m = some t →
        d.findRelease m.moduleType m.variant t.version = none →
        (d.reconcileModule time uid).1 = d.setConvergenceRollup uid
          (if m.lastReportedVersion = t.version then .ok else .updating) := by
      intro d m time hm ht hd
      simp only [Db.reconcileModule, hm, ht, hd]
    rw [hrun db m now hm ht hd, hrun _ _ now' (hm₁ _) ((ht₁ _).trans ht) (by exact hd)]
    exact hagain _ _ rfl

/-- **A second reconcile changes nothing** in a database whose rows remember. -/
theorem reconcileModule_twice (h : db.rows.All fun _ => ConvergenceState.Remembers)
    (now now' : Time) (uid : Uid) :
    ((db.reconcileModule now uid).1.reconcileModule now' uid).1.untimed =
      (db.reconcileModule now uid).1.untimed := by
  rcases reconcileModule_cases db now uid with ⟨hm, e⟩ | ⟨m, c, hm, hd, e⟩ | ⟨m, p, rel, hm, hd, e⟩
  · rw [e, reconcileModule_of_missing now' hm]
  · rw [reconcileModule_twice_of_none now now' hm hd]
  · have hremembers : (db.rowOrNew now ⟨uid, p⟩).Remembers := by
      unfold Db.rowOrNew
      cases hrow : db.rows.get? ⟨uid, p⟩ with
      | none => exact .inl rfl
      | some cs => exact h _ cs hrow
    rw [e]
    generalize ho : reconcilerDecide uid m rel now (db.rowOrNew now ⟨uid, p⟩) = o
    have hstable : o.row.Stable uid m rel now' := by
      rw [← ho]
      exact stable_decide hremembers now now'
    have hrollup : o.rollup = o.row.state.rollup := by
      rw [← ho]
      exact reconcilerDecide_rollup ..
    have hf := Frame.apply db ⟨uid, p⟩ (db.openAssignmentStation uid) o
    have hm' : (db.apply ⟨uid, p⟩ (db.openAssignmentStation uid) o).modules.get? uid =
        some { m with firmwareConvergence := o.rollup } := by
      have hget := Db.get?_setConvergenceRollup (db.putRow ⟨uid, p⟩ o.row) uid uid o.rollup
      rw [if_pos rfl] at hget
      exact hget.trans (congrArg (Option.map _) hm)
    have hrow := get?_apply_rows db ⟨uid, p⟩ ⟨uid, p⟩ (db.openAssignmentStation uid) o
    rw [if_pos rfl] at hrow
    have hcore : ({ m with firmwareConvergence := o.rollup } : Module).core = m.core := rfl
    have hd' := (hf.desired hcore).trans hd
    rw [reconcileModule_of_desired now' hm' hd', Db.rowOrNew, hrow, Option.getD_some]
    -- a decision does not look at the rollup
    exact apply_untimed hrow hm' hstable.row (hstable.rollup.trans hrollup.symm) hstable.audits

/-- **Reconciling is idempotent.**  In every database that any operations reach from one
without convergence rows, running `reconcile_module` twice leaves after the second run the
whole database as after the first, `updated_at` of the rows apart. -/
theorem reconcile_idempotent (db₀ db : Db) (h₀ : db₀.rows = Table.empty)
    (h : Reachable Db.step (fun _ _ => True) db₀ db) (now now' : Time) (uid : Uid) :
    ((db.reconcileModule now uid).1.reconcileModule now' uid).1.untimed =
      (db.reconcileModule now uid).1.untimed :=
  reconcileModule_twice (remembers_of_reachable h₀ h) now now' uid

/-- The first run creates the row and reports the key mismatch; the second adds nothing. -/
theorem reconcile_idempotent_mismatch :
    (Sample.foreignKey.reconcileModule 1 "m").1.trail Sample.key = [.moduleNotUpdatable] ∧
      ((Sample.foreignKey.reconcileModule 1 "m").1.reconcileModule 2 "m").1.untimed =
        (Sample.foreignKey.reconcileModule 1 "m").1.untimed :=
  ⟨by decide +kernel, reconcile_idempotent Sample.foreignKey Sample.foreignKey rfl .init 1 2 "m"⟩

end StationManager.Firmware
