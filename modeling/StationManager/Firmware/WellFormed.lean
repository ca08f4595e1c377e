import StationManager.Firmware.Sticky

/-!
# StationManager.Firmware.WellFormed

The columns of a convergence row agree with its state in every reachable
database.  The invariant carried along is a little stronger than the property
(`RowInv`): a row that is not held in quarantine is below the attempt limit,
whatever its state, since every such row can come back to `updating` with its
attempts.

The views never hand a given-up row to `record_error`.  A direct caller that
does so with a quarantining outcome leaves the old reason code behind
(`Op.rejudges`).  Rows that only the endpoints touch are `Settled`: while they are
`ok`, they are below the transient cap.
-/

namespace StationManager.Firmware

/-- The columns of a row agree with its state. -/
structure ConvergenceState.WellFormed (cs : ConvergenceState) : Prop where
  updating : cs.state = .updating →
    cs.attempts < quarantineAttemptLimit ∧ cs.transientFailures < drainTransientLimit ∧
      cs.reasonCode = none
  idle : cs.state ≠ .updating → cs.phase = none ∧ cs.phaseAt = none ∧ cs.instructedAt = none
  before : cs.stateBeforeNotUpdatable ≠ none →
    cs.state = .notUpdatable ∧ (cs.stateBeforeNotUpdatable = some .quarantined ∨
      cs.stateBeforeNotUpdatable = some .failed)
  notUpdatable : cs.state = .notUpdatable ↔ cs.reasonCode = some .bootKeyMismatch
  failed : cs.state = .failed ↔ cs.reasonCode = some .transientLimit

/-- A well-formed row that is not held in quarantine is below the attempt
limit. -/
structure ConvergenceState.RowInv (cs : ConvergenceState) : Prop extends cs.WellFormed where
  attempts : cs.sticky ≠ some .quarantined → cs.attempts < quarantineAttemptLimit

/-- The outcome quarantines the row. -/
def ErrorMode.quarantines (mode : ErrorMode) (cs : ConvergenceState) : Bool :=
  mode = .rejected ∨ (mode = .rolledBack ∧ quarantineAttemptLimit ≤ cs.attempts + 1)

/-- A direct `record_error` that quarantines a failed or `not_updatable`
row. -/
def Op.rejudges (db : Db) : Op → Bool
  | .recordError _ k mode _ _ => match db.rows.get? k with
      | none => false
      | some cs => (cs.state = .failed ∨ cs.state = .notUpdatable) ∧ mode.quarantines cs
  | _ => false

theorem zero_lt_attemptLimit : 0 < quarantineAttemptLimit := by decide

theorem zero_lt_transientLimit : 0 < drainTransientLimit := by decide

theorem freshRow_rowInv (now : Time) : (freshRow now).RowInv where
  updating _ := ⟨zero_lt_attemptLimit, zero_lt_transientLimit, rfl⟩
  idle h := absurd rfl h
  before h := absurd rfl h
  notUpdatable := by simp [freshRow]
  failed := by simp [freshRow]
  attempts _ := zero_lt_attemptLimit

namespace ConvergenceState

variable {cs : ConvergenceState}

theorem RowInv.toOk (h : cs.RowInv) (now : Time) (hq : cs.sticky ≠ some .quarantined) :
    (cs.toOk now).RowInv where
  updating hs := by cases hs
  idle _ := ⟨rfl, rfl, rfl⟩
  before hb := absurd rfl hb
  notUpdatable := by simp [ConvergenceState.toOk]
  failed := by simp [ConvergenceState.toOk]
  attempts _ := h.attempts hq

theorem RowInv.toNotUpdatable (h : cs.RowInv) (now : Time) (hs : cs.state ≠ .notUpdatable) :
    (cs.toNotUpdatable now).RowInv where
  updating hst := by cases hst
  idle _ := ⟨rfl, rfl, rfl⟩
  before hb := by
    refine ⟨rfl, ?_⟩
    simp only [ConvergenceState.toNotUpdatable] at hb ⊢
    split at hb
    · next hq =>
      rw [if_pos hq]
      rcases hq with hq | hq
      · exact .inl (congrArg some hq)
      · exact .inr (congrArg some hq)
    · exact absurd rfl hb
  notUpdatable := by simp [ConvergenceState.toNotUpdatable]
  failed := by simp [ConvergenceState.toNotUpdatable]
  attempts hq := by
    refine h.attempts fun hsticky => hq ?_
    -- the detour hides exactly the quarantine it overrides
    have hst : cs.state = .quarantined := by
      rw [ConvergenceState.sticky, if_neg hs] at hsticky
      exact Option.some.inj hsticky
    simp [ConvergenceState.sticky, ConvergenceState.toNotUpdatable, hst]

/-- A detour hides a state that only an operator ends. -/
theorem RowInv.before_cases (h : cs.RowInv) {before : State}
    (hb : cs.stateBeforeNotUpdatable = some before) : before = .quarantined ∨ before = .failed := by
  have hsome : cs.stateBeforeNotUpdatable ≠ none := by simp [hb]
  have hcases := (h.before hsome).2
  rw [hb] at hcases
  exact hcases.imp Option.some.inj Option.some.inj

theorem RowInv.restore (h : cs.RowInv) (now : Time) {before : State}
    (hs : cs.state = .notUpdatable) (hb : cs.stateBeforeNotUpdatable = some before) :
    before.isSticky = true ∧ (cs.restore now before).RowInv := by
  have hidle := h.idle (by simp [hs])
  have hsticky : cs.sticky = some before := by rw [ConvergenceState.sticky, if_pos hs, hb]
  have hcases := h.before_cases hb
  rcases hcases with rfl | rfl
  · refine ⟨rfl, ⟨⟨fun hst => (by cases hst), fun _ => hidle, fun hn => absurd rfl hn, ?_, ?_⟩, ?_⟩⟩
    · simp [ConvergenceState.restore]
    · simp [ConvergenceState.restore]
    · exact fun hq => absurd rfl hq
  · refine ⟨rfl, ⟨⟨fun hst => (by cases hst), fun _ => hidle, fun hn => absurd rfl hn, ?_, ?_⟩, ?_⟩⟩
    · simp [ConvergenceState.restore]
    · simp [ConvergenceState.restore]
    · have hne : cs.sticky ≠ some .quarantined := by simp [hsticky]
      exact fun _ => h.attempts hne

theorem rowInv_releaseKey (now : Time) (hb : cs.stateBeforeNotUpdatable = none) :
    (cs.releaseKey.toUpdating now).RowInv where
  updating _ := ⟨zero_lt_attemptLimit, zero_lt_transientLimit, rfl⟩
  idle hst := absurd rfl hst
  before hn := absurd hb hn
  notUpdatable := by simp [ConvergenceState.toUpdating, ConvergenceState.releaseKey]
  failed := by simp [ConvergenceState.toUpdating, ConvergenceState.releaseKey]
  attempts _ := zero_lt_attemptLimit

/-- A plain row has no reason code and remembers nothing. -/
theorem WellFormed.plain (h : cs.WellFormed) (hs : cs.state.isSticky = false) :
    cs.reasonCode = none ∧ cs.stateBeforeNotUpdatable = none := by
  have hnu : cs.state ≠ .notUpdatable := by
    intro hst
    rw [hst] at hs
    cases hs
  have hfa : cs.state ≠ .failed := by
    intro hst
    rw [hst] at hs
    cases hs
  refine ⟨?_, ?_⟩
  · cases hr : cs.reasonCode with
    | none => rfl
    | some r =>
      cases r with
      | transientLimit => exact absurd (h.failed.mpr hr) hfa
      | bootKeyMismatch => exact absurd (h.notUpdatable.mpr hr) hnu
  · by_contra hb
    exact hnu (h.before hb).1

theorem RowInv.toFailed (h : cs.RowInv) (now : Time) (hs : cs.state.isSticky = false) :
    (cs.toFailed now).RowInv where
  updating hst := by cases hst
  idle _ := ⟨rfl, rfl, rfl⟩
  before hb := absurd (h.toWellFormed.plain hs).2 hb
  notUpdatable := by simp [ConvergenceState.toFailed]
  failed := by simp [ConvergenceState.toFailed]
  attempts _ := by
    refine h.attempts ?_
    rw [sticky_of_not_isSticky hs]
    intro hq
    rw [Option.some.inj hq] at hs
    cases hs

theorem RowInv.toUpdating (h : cs.RowInv) (now : Time) (hs : cs.state.isSticky = false)
    (hcap : cs.transientFailures < drainTransientLimit) : (cs.toUpdating now).RowInv := by
  have hplain := h.toWellFormed.plain hs
  have hatt : cs.attempts < quarantineAttemptLimit := by
    refine h.attempts ?_
    rw [sticky_of_not_isSticky hs]
    intro hq
    rw [Option.some.inj hq] at hs
    cases hs
  refine ⟨⟨fun _ => ⟨hatt, hcap, hplain.1⟩, fun hst => absurd rfl hst,
    fun hb => absurd hplain.2 hb, ?_, ?_⟩, fun _ => hatt⟩
  · simp [ConvergenceState.toUpdating, hplain.1]
  · simp [ConvergenceState.toUpdating, hplain.1]

variable {cs' : ConvergenceState}

/-- A decision keeps the invariant. -/
theorem RowInv.decided (h : cs.RowInv) {m : Module} {desired : Release} {now : Time}
    (hd : Decided m desired now cs cs') : cs'.RowInv := by
  cases hd with
  | reached hv hq => exact RowInv.toOk h now hq
  | mismatch hv hk hs => exact RowInv.toNotUpdatable h now hs
  | restored before hs hb hfix uid =>
    obtain ⟨hsticky, hinv⟩ := RowInv.restore h now hs hb
    rw [settle_row_of_sticky uid desired now hsticky]
    exact hinv
  | released hs hb hfix => exact rowInv_releaseKey now hb
  | kept hs => exact h
  | gaveUp hs => exact RowInv.toFailed h now hs
  | updating hs hcap => exact RowInv.toUpdating h now hs hcap

/-- An update that keeps the state and its reason, and the counters below
their limits. -/
theorem RowInv.sameState (h : cs.RowInv) (hst : cs'.state = cs.state)
    (hr : cs'.reasonCode = cs.reasonCode)
    (hb : cs'.stateBeforeNotUpdatable = cs.stateBeforeNotUpdatable) (hidle : cs.state ≠ .updating →
      cs'.phase = none ∧ cs'.phaseAt = none ∧ cs'.instructedAt = none)
    (hatt : cs.sticky ≠ some .quarantined → cs'.attempts < quarantineAttemptLimit)
    (htf : cs.state = .updating → cs'.transientFailures < drainTransientLimit) : cs'.RowInv := by
  have hsticky : cs'.sticky = cs.sticky := by
    unfold ConvergenceState.sticky
    rw [hst, hb]
  refine ⟨⟨?_, ?_, ?_, ?_, ?_⟩, ?_⟩
  · intro hu
    rw [hst] at hu
    have hplain : cs.state.isSticky = false := by
      rw [hu]
      rfl
    have hne : cs.sticky ≠ some .quarantined := by simp [sticky_of_not_isSticky hplain, hu]
    exact ⟨hatt hne, htf hu, hr.trans (h.updating hu).2.2⟩
  · rw [hst]
    exact hidle
  · rw [hst, hb]
    exact h.before
  · rw [hst, hr]
    exact h.notUpdatable
  · rw [hst, hr]
    exact h.failed
  · rw [hsticky]
    exact hatt

/-- Quarantining a row that is neither failed nor `not_updatable`. -/
theorem RowInv.quarantine (h : cs.RowInv) (hst : cs'.state = .quarantined)
    (hr : cs'.reasonCode = cs.reasonCode)
    (hb : cs'.stateBeforeNotUpdatable = cs.stateBeforeNotUpdatable)
    (hidle : cs'.phase = none ∧ cs'.phaseAt = none ∧ cs'.instructedAt = none)
    (hne : ¬(cs.state = .failed ∨ cs.state = .notUpdatable)) : cs'.RowInv := by
  refine ⟨⟨?_, fun _ => hidle, ?_, ?_, ?_⟩, ?_⟩
  · intro hu
    rw [hst] at hu
    cases hu
  · intro hn
    rw [hb] at hn
    exact absurd (.inr (h.before hn).1) hne
  · rw [hst, hr, ← h.notUpdatable]
    exact ⟨fun h => (by cases h), fun h => absurd (.inr h) hne⟩
  · rw [hst, hr, ← h.failed]
    exact ⟨fun h => (by cases h), fun h => absurd (.inl h) hne⟩
  · have hq : cs'.sticky = some .quarantined := by simp [ConvergenceState.sticky, hst]
    exact absurd hq

/-- A recorded error keeps the invariant, unless it quarantines a failed or
`not_updatable` row. -/
theorem RowInv.errored (h : cs.RowInv) {mode : ErrorMode} {message : String} {now : Time}
    (he : Errored mode message now cs cs')
    (hne : ¬((cs.state = .failed ∨ cs.state = .notUpdatable) ∧ mode.quarantines cs = true)) :
    cs'.RowInv := by
  cases he with
  | rejected hm =>
    refine h.quarantine rfl rfl rfl ⟨rfl, rfl, rfl⟩ fun hs => hne ⟨hs, ?_⟩
    exact decide_eq_true (.inl hm)
  | quarantined hm hatt =>
    refine h.quarantine rfl rfl rfl ⟨rfl, rfl, rfl⟩ fun hs => hne ⟨hs, ?_⟩
    exact decide_eq_true (.inr ⟨hm, hatt⟩)
  | counted hm hatt =>
    exact h.sameState rfl rfl rfl (fun _ => ⟨rfl, rfl, rfl⟩) (fun _ => hatt)
      fun hu => (h.updating hu).2.1
  | gaveUp hm hs hcap =>
    have hu := h.updating hs
    refine ⟨⟨fun hst => (by cases hst), fun _ => ⟨rfl, rfl, rfl⟩, ?_, ?_, ?_⟩, fun _ => hu.1⟩
    · intro hn
      have hnu := (h.before hn).1
      rw [hs] at hnu
      cases hnu
    · simp [ConvergenceState.toFailed]
    · simp [ConvergenceState.toFailed]
  | failure hm hcap =>
    refine h.sameState rfl rfl rfl (fun _ => ⟨rfl, rfl, rfl⟩) h.attempts fun hu => ?_
    exact Nat.lt_of_not_le fun hle => hcap ⟨hu, hle⟩

theorem RowInv.progress (h : cs.RowInv) (phase : Phase) (now : Time) (hs : cs.state = .updating) :
    (progressRow phase now cs).RowInv := by
  obtain ⟨hst, hatt, hr, hb, htf⟩ := progressRow_keeps phase now cs
  refine h.sameState hst hr hb (fun hne => absurd hs hne) ?_ ?_
  · rw [hatt]
    exact h.attempts
  · exact fun hu => Nat.lt_of_le_of_lt htf (h.updating hu).2.1

/-- Releasing a quarantine and retrying a failure both start over. -/
theorem RowInv.restart (hst : cs'.state = .updating) (hr : cs'.reasonCode = none)
    (hb : cs'.stateBeforeNotUpdatable = none) (hatt : cs'.attempts < quarantineAttemptLimit)
    (htf : cs'.transientFailures < drainTransientLimit) : cs'.RowInv := by
  refine ⟨⟨fun _ => ⟨hatt, htf, hr⟩, fun hne => absurd hst hne, fun hn => absurd hb hn, ?_, ?_⟩,
    fun _ => hatt⟩
  · rw [hst, hr]
    exact ⟨fun h => (by cases h), fun h => (by cases h)⟩
  · rw [hst, hr]
    exact ⟨fun h => (by cases h), fun h => (by cases h)⟩

end ConvergenceState

open ConvergenceState

variable {op : Op}

/-- **Row step**: every permitted update keeps the invariant. -/
theorem rowInv_apply {d d' : Db} {k : RowKey} {rop : RowOp} {cs : ConvergenceState} (h : cs.RowInv)
    (hp : Permitted d op d' k rop cs) (hok : op.rejudges d = false) : (rop.apply cs).RowInv := by
  cases rop with
  | decide uid m desired now => exact h.decided (reconcilerDecide_decided uid m desired now cs)
  | error uid m rel mode message now =>
    refine h.errored (recordErrorOutcome_errored uid m rel mode message now cs) ?_
    rintro ⟨hst, hq⟩
    rcases hp with hs | ⟨hs, _⟩ | ⟨hrow, _, _, _, rfl⟩
    · rw [hs] at hst
      rcases hst with hst | hst <;> cases hst
    · rw [hs] at hst
      rcases hst with hst | hst <;> cases hst
    · simp only [Op.rejudges, hrow, hst, hq, and_self, decide_true] at hok
      cases hok
  | instruct now =>
    have hs : cs.state = .updating := hp
    exact h.sameState rfl rfl rfl (fun hne => absurd hs hne) h.attempts
      fun hu => (h.updating hu).2.1
  | progress phase now => exact h.progress phase now hp
  | commit now =>
    exact h.sameState rfl rfl rfl (fun _ => ⟨rfl, rfl, rfl⟩) h.attempts
      fun _ => zero_lt_transientLimit
  | release now =>
    have hs : cs.state = .quarantined := hp.1
    have hr : cs.reasonCode = none := by
      cases hr : cs.reasonCode with
      | none => rfl
      | some r =>
        cases r with
        | transientLimit =>
          have hf := h.failed.mpr hr
          rw [hs] at hf
          cases hf
        | bootKeyMismatch =>
          have hnu := h.notUpdatable.mpr hr
          rw [hs] at hnu
          cases hnu
    exact RowInv.restart rfl hr rfl zero_lt_attemptLimit zero_lt_transientLimit
  | retry now =>
    have hatt : cs.attempts < quarantineAttemptLimit := by
      refine h.attempts ?_
      rw [ConvergenceState.sticky, hp.1]
      exact fun h => by cases h
    exact RowInv.restart rfl rfl rfl hatt zero_lt_transientLimit
  | clearNotice => exact h.sameState rfl rfl rfl h.idle h.attempts fun hu => (h.updating hu).2.1

/-- What a fresh row meets and every permitted update keeps, an operation keeps. -/
theorem all_rows_step {P : ConvergenceState → Prop} {db db' : Db} (h : db.rows.All fun _ => P)
    (hstep : db.step op = some db') (hfresh : ∀ now, P (freshRow now))
    (happly : ∀ k rop cs, P cs → Permitted db op db' k rop cs → P (rop.apply cs)) :
    db'.rows.All fun _ => P := by
  intro k cs' hk'
  have hev := step_evolves hstep
  cases hk : db.rows.get? k with
  | none =>
    obtain ⟨now, hpath⟩ := hev.created k cs' hk hk'
    exact hpath.invariant (hfresh now) (happly k)
  | some cs =>
    obtain ⟨cs₁, hk₁, hpath⟩ := hev.kept k cs hk
    rw [hk'] at hk₁
    cases hk₁
    exact hpath.invariant (h k cs hk) (happly k)

/-- And so do all operations from a database without rows. -/
theorem all_rows_reachable {P : ConvergenceState → Prop} {ok : Db → Op → Prop} {db₀ db : Db}
    (h₀ : db₀.rows = Table.empty) (h : Reachable Db.step ok db₀ db)
    (hfresh : ∀ now, P (freshRow now))
    (happly : ∀ s op s' k rop cs, ok s op → P cs → Permitted s op s' k rop cs → P (rop.apply cs)) :
    db.rows.All fun _ => P := by
  refine h.invariant (P := fun s => s.rows.All fun _ => P) (h₀ ▸ Table.all_empty) ?_
  intro s op s' hs hok hstep
  exact all_rows_step hs hstep hfresh fun k rop cs => happly s op s' k rop cs hok

/-- **Rows stay well formed.**  Starting without convergence rows, every
database reached by any operations, direct calls of `record_error` included
unless they quarantine a failed or `not_updatable` row, has only well-formed
rows. -/
theorem rows_well_formed (db₀ db : Db) (h₀ : db₀.rows = Table.empty)
    (h : Reachable Db.step (fun s op => op.rejudges s = false) db₀ db) :
    db.rows.All fun _ => WellFormed := by
  have hinv : db.rows.All fun _ => RowInv :=
    all_rows_reachable h₀ h freshRow_rowInv fun _ _ _ _ _ _ hok hcs hp => rowInv_apply hcs hp hok
  exact fun k cs hk => (hinv k cs hk).toWellFormed

namespace Sample

/-- The fleet before any reconcile. -/
def start : Db := fleet module Table.empty

/-- The same fleet, with a module that reports a foreign boot key. -/
def foreignKey : Db := fleet { module with reportedBootKey := "2222222222222222" } Table.empty

/-- A flash that the module rejects. -/
def rejectedFlash : Db :=
  ((start.check 1 (some 1)).1.statusUpdate 2 (some 1) key (.error .rejected) "bad image").1

end Sample

theorem rows_well_formed_rejectedFlash :
    Sample.rejectedFlash.rows.All fun _ => WellFormed :=
  rows_well_formed Sample.start _ rfl
    (.step (i := .statusUpdate 2 (some 1) Sample.key (.error .rejected) "bad image")
      (.step (i := .check 1 (some 1)) .init rfl rfl) rfl rfl)

/-- A direct `record_error` on a `not_updatable` row: the quarantined row
keeps the reason code of the key mismatch. -/
theorem rejudged_row_not_well_formed : Sample.foreignKey.rows = Table.empty ∧
      ∃ db, Reachable Db.step (fun _ _ => True) Sample.foreignKey db ∧
        ¬db.rows.All fun _ => WellFormed := by
  refine ⟨rfl, _, .step (i := .recordError 2 Sample.key .rejected "" none)
    (.step (i := .reconcileModule 1 "m") .init trivial rfl) trivial rfl, ?_⟩
  intro h
  have hrow := (h Sample.key _ rfl).notUpdatable
  cases hrow.mpr rfl

/-! ## settled rows -/

/-- Rows as the endpoints keep them: the row invariant, and an `ok` row is
below the transient cap. -/
structure ConvergenceState.Settled (cs : ConvergenceState) : Prop extends cs.RowInv where
  okBelowCap : cs.state = .ok → cs.transientFailures < drainTransientLimit

variable {cs cs' : ConvergenceState}

/-- A decision leaves no row at the transient cap but one that is given up. -/
theorem Decided.below_cap {m : Module} {desired : Release} {now : Time}
    (h : Decided m desired now cs cs') (hs : cs'.state.isSticky = false) :
    cs'.transientFailures < drainTransientLimit := by
  cases h with
  | reached => exact zero_lt_transientLimit
  | mismatch => cases hs
  | restored before _ _ _ uid =>
    unfold settle at hs ⊢
    split at hs
    · next hsticky => cases hsticky.symm.trans hs
    · split at hs
      · cases hs
      · next hsticky hcap =>
        rw [if_neg hsticky, if_neg hcap]
        exact Nat.lt_of_not_le hcap
  | released => exact zero_lt_transientLimit
  | kept hsticky => cases hsticky.symm.trans hs
  | gaveUp => cases hs
  | updating _ hcap => exact hcap

/-- An error that is recorded on an `updating` row, or as a roll-back, does not
push an `ok` row to the cap. -/
theorem Errored.ok_below_cap {mode : ErrorMode} {message : String} {now : Time}
    (h : Errored mode message now cs cs')
    (hp : cs.state = .updating ∨ (cs.state = .ok ∧ mode = .rolledBack))
    (hcs : cs.state = .ok → cs.transientFailures < drainTransientLimit) (hs : cs'.state = .ok) :
    cs'.transientFailures < drainTransientLimit := by
  cases h with
  | rejected => cases hs
  | quarantined => cases hs
  | counted => exact hcs hs
  | gaveUp => cases hs
  | failure hm =>
    have hok : cs.state = .ok := hs
    rcases hp with hst | ⟨_, hmode⟩
    · rw [hst] at hok
      cases hok
    · rw [hm] at hmode
      cases hmode

theorem rejudges_of_isEndpoint (db : Db) (h : op.isEndpoint = true) : op.rejudges db = false := by
  cases op with
  | recordError => cases h
  | _ => rfl

/-- **Row step** for settled rows. -/
theorem settled_apply {d d' : Db} {k : RowKey} {rop : RowOp} (h : cs.Settled)
    (hp : Permitted d op d' k rop cs) (hend : op.isEndpoint = true) : (rop.apply cs).Settled := by
  refine ⟨rowInv_apply h.toRowInv hp (rejudges_of_isEndpoint d hend), ?_⟩
  cases rop with
  | decide uid m desired now =>
    intro hs
    have hok : (reconcilerDecide uid m desired now cs).row.state = .ok := hs
    exact (reconcilerDecide_decided uid m desired now cs).below_cap (by rw [hok]; rfl)
  | error uid m rel mode message now =>
    -- the views record errors on updating rows, and roll-backs on ok rows
    refine (recordErrorOutcome_errored uid m rel mode message now cs).ok_below_cap ?_ h.okBelowCap
    rcases hp with hst | hst | ⟨_, _, _, _, hop⟩
    · exact .inl hst
    · exact .inr hst
    · rw [hop] at hend
      cases hend
  | instruct now =>
    intro hs
    have hst : cs.state = .updating := hp
    cases hst.symm.trans hs
  | progress phase now =>
    intro hs
    have hst : cs.state = .updating := hp
    cases hst.symm.trans ((progressRow_keeps phase now cs).1.symm.trans hs)
  | commit now => exact fun _ => zero_lt_transientLimit
  | release now => exact fun _ => zero_lt_transientLimit
  | retry now => exact fun _ => zero_lt_transientLimit
  | clearNotice => exact h.okBelowCap

theorem freshRow_settled (now : Time) : (freshRow now).Settled :=
  ⟨freshRow_rowInv now, fun h => by cases h⟩

/-- In every database the endpoints reach from one without rows, all rows are
settled. -/
theorem settled_of_reachable {db₀ db : Db} (h₀ : db₀.rows = Table.empty)
    (h : Reachable Db.step (fun _ op => op.isEndpoint = true) db₀ db) :
    db.rows.All fun _ => Settled :=
  all_rows_reachable h₀ h freshRow_settled fun _ _ _ _ _ _ hend hcs hp => settled_apply hcs hp hend

end StationManager.Firmware
