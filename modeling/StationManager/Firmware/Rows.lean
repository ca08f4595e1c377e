import StationManager.Firmware.System

/-!
# StationManager.Firmware.Rows

One convergence row as a machine of its own.  `RowOp` lists the updates that
the code ever makes to a row; a `RowPath` is a sequence of them, each allowed
in the row it is applied to.

`step_traced` is the bridge to the database: whatever operation runs, every
row moves by allowed updates, and the row's part of the audit log grows by what
these updates write.  `Permitted` says when each update is allowed (which states
a view accepts, which row an operator action picks, which version the module
reports).  The row results are proved on paths and runs of updates and carried
over by this theorem; `step_evolves` is its part about the rows.
-/

namespace StationManager.Firmware

/-- The updates made to a row. -/
inductive RowOp
  | decide (uid : Uid) (module : Module) (desired : Release) (now : Time)
  | error (uid : Uid) (module : Module) (release : Release) (mode : ErrorMode) (message : String)
      (now : Time)
  | instruct (now : Time)
  | progress (phase : Phase) (now : Time)
  | commit (now : Time)
  | release (now : Time)
  | retry (now : Time)
  | clearNotice

/-- The row after an update. -/
def RowOp.apply : RowOp → ConvergenceState → ConvergenceState
  | .decide uid module desired now, cs => (reconcilerDecide uid module desired now cs).row
  | .error uid module rel mode message now, cs =>
    (recordErrorOutcome uid module rel mode message now cs).row
  | .instruct now, cs => instructRow now cs
  | .progress phase now, cs => progressRow phase now cs
  | .commit now, cs => commitRow now cs
  | .release now, cs => releaseRow now cs
  | .retry now, cs => retryRow now cs
  | .clearNotice, cs => { cs with lastErrorMessage := "" }

/-- The audit events that belong to updates of a row.  The other events of the log
stand for requests, which need not change the row. -/
def EventType.isTrail : EventType → Bool
  | .moduleNotUpdatable | .moduleUpdatableAgain | .moduleFlashGaveUp
  | .moduleFlashInstructed => true
  | _ => false

/-- The events an update writes. -/
def RowOp.trail : RowOp → ConvergenceState → List EventType
  | .decide uid module desired now, cs =>
    ((reconcilerDecide uid module desired now cs).audits.map Prod.fst).filter EventType.isTrail
  | .error uid module rel mode message now, cs =>
    ((recordErrorOutcome uid module rel mode message now cs).audits.map Prod.fst).filter
      EventType.isTrail
  | .instruct _, _ => [.moduleFlashInstructed]
  | _, _ => []

/-- Sequences of updates, each allowed where it is applied. -/
inductive RowPath (ok : RowOp → ConvergenceState → Prop) (cs : ConvergenceState) :
    ConvergenceState → Prop
  | refl : RowPath ok cs cs
  | tail {cs' : ConvergenceState} {op : RowOp} :
      RowPath ok cs cs' → ok op cs' → RowPath ok cs (op.apply cs')

variable {cs : ConvergenceState} {ok : RowOp → ConvergenceState → Prop} (db : Db)

theorem RowPath.single (op : RowOp) (h : ok op cs) : RowPath ok cs (op.apply cs) := .tail .refl h

/-- What every allowed update keeps holds along a path. -/
theorem RowPath.invariant {cs' : ConvergenceState} {P : ConvergenceState → Prop}
    (h : RowPath ok cs cs') (hcs : P cs) (hop : ∀ op cs, P cs → ok op cs → P (op.apply cs)) :
    P cs' := by
  induction h with
  | refl => exact hcs
  | tail _ ho ih => exact hop _ _ ih ho

/-- The updates of a row in order, each with the row it was applied to. -/
abbrev Updates := List (RowOp × ConvergenceState)

/-- What updates write to the log. -/
def Updates.trail (us : Updates) : List EventType := us.flatMap fun u => u.1.trail u.2

/-- Updates of a row that may not be stored yet: the first update of such a row is
made to a fresh one. -/
inductive RowRun (ok : RowOp → ConvergenceState → Prop) (o : Option ConvergenceState) :
    Updates → Option ConvergenceState → Prop
  | refl : RowRun ok o [] o
  | update {us : Updates} {cs : ConvergenceState} {op : RowOp} :
      RowRun ok o us (some cs) → ok op cs → RowRun ok o (us ++ [(op, cs)]) (some (op.apply cs))
  | create {us : Updates} {op : RowOp} (now : Time) :
      RowRun ok o us none → ok op (freshRow now) →
        RowRun ok o (us ++ [(op, freshRow now)]) (some (op.apply (freshRow now)))

variable {us : Updates}

/-- One run after the other. -/
theorem RowRun.trans {a b c : Option ConvergenceState} {vs : Updates} (h : RowRun ok a us b)
    (h' : RowRun ok b vs c) : RowRun ok a (us ++ vs) c := by
  induction h' with
  | refl =>
    rw [List.append_nil]
    exact h
  | update _ hop ih =>
    rw [← List.append_assoc]
    exact ih.update hop
  | create now _ hop ih =>
    rw [← List.append_assoc]
    exact ih.create now hop

/-- A weaker condition admits more runs. -/
theorem RowRun.mono {ok' : RowOp → ConvergenceState → Prop} {a b : Option ConvergenceState}
    (h : RowRun ok a us b) (hok : ∀ op cs, ok op cs → ok' op cs) : RowRun ok' a us b := by
  induction h with
  | refl => exact .refl
  | update _ hop ih => exact ih.update (hok _ _ hop)
  | create now _ hop ih => exact ih.create now (hok _ _ hop)

/-- A stored row stays stored, and moves along a path. -/
theorem RowRun.path {o : Option ConvergenceState} (h : RowRun ok (some cs) us o) :
    ∃ cs', o = some cs' ∧ RowPath ok cs cs' := by
  induction h with
  | refl => exact ⟨cs, rfl, .refl⟩
  | update _ hop ih =>
    obtain ⟨_, heq, hpath⟩ := ih
    cases heq
    exact ⟨_, rfl, hpath.tail hop⟩
  | create _ _ _ ih =>
    obtain ⟨_, heq, _⟩ := ih
    cases heq

/-- A new row comes from a fresh one. -/
theorem RowRun.created {o : Option ConvergenceState} (h : RowRun ok none us o) :
    ∀ cs', o = some cs' → ∃ now, RowPath ok (freshRow now) cs' := by
  induction h with
  | refl => exact fun _ heq => (by cases heq)
  | update _ hop ih =>
    rintro _ ⟨⟩
    obtain ⟨now, hpath⟩ := ih _ rfl
    exact ⟨now, hpath.tail hop⟩
  | create now _ hop _ =>
    rintro _ ⟨⟩
    exact ⟨now, .single _ hop⟩

/-! ## databases whose rows move by updates -/

/-- The part of the audit log about updates of row `k`. -/
def Db.trail (db : Db) (k : RowKey) : List EventType :=
  (db.auditLog.filter fun e => e.row = some k ∧ e.eventType.isTrail = true).map (·.eventType)

/-- Every row of `db` is kept and moves along an allowed path; every new row
comes from a fresh one along such a path. -/
structure Evolves (ok : RowKey → RowOp → ConvergenceState → Prop) (db db' : Db) : Prop where
  kept : ∀ k cs, db.rows.get? k = some cs →
    ∃ cs', db'.rows.get? k = some cs' ∧ RowPath (ok k) cs cs'
  created : ∀ k cs', db.rows.get? k = none → db'.rows.get? k = some cs' →
    ∃ now, RowPath (ok k) (freshRow now) cs'

/-- Every row moves by allowed updates, and the log grows by what they write. -/
structure Traced (ok : RowKey → RowOp → ConvergenceState → Prop) (db db' : Db) : Prop where
  run : ∀ k, ∃ us, RowRun (ok k) (db.rows.get? k) us (db'.rows.get? k) ∧
    db'.trail k = db.trail k ++ us.trail

/-- Rows move by allowed updates, and the locks stay. -/
structure Moved (ok : RowKey → RowOp → ConvergenceState → Prop) (db db' : Db) : Prop
    extends Traced ok db db' where
  locks : db'.locks = db.locks

/-- No row is touched, no lock, and nothing is logged about an update. -/
structure Quiet (db db' : Db) : Prop where
  rows : db'.rows = db.rows
  locks : db'.locks = db.locks
  trail : ∀ k, db'.trail k = db.trail k

theorem Db.trail_log (es : List AuditEntry) (k : RowKey) : (db.log es).trail k = db.trail k ++
      (es.filter fun e => e.row = some k ∧ e.eventType.isTrail = true).map (·.eventType) := by
  simp only [Db.trail, Db.log, List.filter_append, List.map_append]

/-- Entries that belong to no update. -/
theorem Db.trail_log_of_request {es : List AuditEntry} (h : ∀ e ∈ es, e.eventType.isTrail = false)
    (k : RowKey) : (db.log es).trail k = db.trail k := by
  rw [Db.trail_log, List.filter_eq_nil_iff.mpr, List.map_nil, List.append_nil]
  intro e he
  simp [h e he]

/-- An outcome is logged for its own row. -/
theorem Db.trail_apply (k j : RowKey) (st : Option Pk) (o : Outcome) : (db.apply k st o).trail j =
      if j = k then db.trail j ++ (o.audits.map Prod.fst).filter EventType.isTrail
      else db.trail j := by
  have hbase : ((db.putRow k o.row).setConvergenceRollup k.module o.rollup).trail j = db.trail j :=
    rfl
  rw [Db.apply, Db.trail_log, hbase]
  by_cases hj : j = k
  · subst hj
    rw [if_pos rfl, List.filter_map, List.filter_map, List.map_map]
    simp [Function.comp_def]
  · rw [if_neg hj, List.filter_eq_nil_iff.mpr, List.map_nil, List.append_nil]
    intro e he
    obtain ⟨x, -, rfl⟩ := List.mem_map.mp he
    simp [Ne.symm hj]

variable {ok : RowKey → RowOp → ConvergenceState → Prop} {db db' : Db}

/-- The part about the rows. -/
theorem Traced.evolves (h : Traced ok db db') : Evolves ok db db' where
  kept k cs hk := by
    obtain ⟨us, hrun, _⟩ := h.run k
    rw [hk] at hrun
    exact hrun.path
  created k cs' hk hk' := by
    obtain ⟨us, hrun, _⟩ := h.run k
    rw [hk] at hrun
    exact hrun.created cs' hk'

namespace Quiet

theorem refl (db : Db) : Quiet db db := ⟨rfl, rfl, fun _ => rfl⟩

theorem trans {a b c : Db} (h : Quiet a b) (h' : Quiet b c) : Quiet a c where
  rows := h'.rows.trans h.rows
  locks := h'.locks.trans h.locks
  trail k := (h'.trail k).trans (h.trail k)

theorem auditModule (h : Quiet db db') (station : Option Pk) (uid : Uid) (event : EventType)
    (message : String) : Quiet db (db'.auditModule station uid event message) where
  rows := h.rows
  locks := h.locks
  trail k := by
    rw [Db.auditModule, Db.trail_log, h.trail k]
    simp

theorem setModule (h : Quiet db db') (uid : Uid) (f : Module → Module) :
    Quiet db (db'.setModule uid f) := ⟨h.rows, h.locks, h.trail⟩

theorem assign (h : Quiet db db') (assignments : Table Uid Assignment) :
    Quiet db { db' with assignments } := ⟨h.rows, h.locks, h.trail⟩

/-- Entries about a request. -/
theorem audit (db : Db) (k : RowKey) (station : Pk) {es : List (EventType × String)}
    (h : ∀ e ∈ es, e.1.isTrail = false) : Quiet db (db.audit k station es) where
  rows := rfl
  locks := rfl
  trail := Db.trail_log_of_request db fun e he => by
    obtain ⟨x, hx, rfl⟩ := List.mem_map.mp he
    exact h x hx

end Quiet

namespace Moved

/-- Nothing has happened to the rows. -/
theorem of_quiet (h : Quiet db db') : Moved ok db db' where
  run k := ⟨[], by rw [h.rows]; exact .refl, by rw [h.trail k]; exact (List.append_nil _).symm⟩
  locks := h.locks

theorem refl (db : Db) : Moved ok db db := of_quiet (.refl db)

theorem trans {a b c : Db} (h : Moved ok a b) (h' : Moved ok b c) : Moved ok a c where
  run k := by
    obtain ⟨us, hrun, ht⟩ := h.run k
    obtain ⟨vs, hrun', ht'⟩ := h'.run k
    refine ⟨us ++ vs, hrun.trans hrun', ?_⟩
    rw [ht', ht, List.append_assoc, Updates.trail, Updates.trail, ← List.flatMap_append]
    rfl
  locks := h'.locks.trans h.locks

/-- One allowed update of one row, which may be new. -/
theorem put (k : RowKey) (op : RowOp) (now : Time) (hok : ok k op (db.rowOrNew now k))
    (h : ∀ j, db'.rows.get? j =
      if j = k then some (op.apply (db.rowOrNew now k)) else db.rows.get? j)
    (ht : ∀ j, db'.trail j =
      if j = k then db.trail j ++ op.trail (db.rowOrNew now k) else db.trail j)
    (hlocks : db'.locks = db.locks) : Moved ok db db' where
  locks := hlocks
  run j := by
    by_cases hj : j = k
    · subst hj
      refine ⟨[(op, db.rowOrNew now j)], ?_, ?_⟩
      · rw [h j, if_pos rfl]
        cases hrow : db.rows.get? j with
        | none =>
          have hnew : db.rowOrNew now j = freshRow now := by
            rw [Db.rowOrNew, hrow, Option.getD_none]
          rw [hnew] at hok ⊢
          exact .create now .refl hok
        | some cs =>
          have hold : db.rowOrNew now j = cs := by rw [Db.rowOrNew, hrow, Option.getD_some]
          rw [hold] at hok ⊢
          exact .update .refl hok
      · rw [ht j, if_pos rfl]
        simp [Updates.trail]
    · refine ⟨[], ?_, ?_⟩
      · rw [h j, if_neg hj]
        exact .refl
      · rw [ht j, if_neg hj]
        exact (List.append_nil _).symm

/-- One allowed update of a stored row. -/
theorem update {k : RowKey} {cs : ConvergenceState} (op : RowOp) (hrow : db.rows.get? k = some cs)
    (hok : ok k op cs)
    (h : ∀ j, db'.rows.get? j = if j = k then some (op.apply cs) else db.rows.get? j)
    (ht : ∀ j, db'.trail j = if j = k then db.trail j ++ op.trail cs else db.trail j)
    (hlocks : db'.locks = db.locks) : Moved ok db db' := by
  have hnew : db.rowOrNew 0 k = cs := by rw [Db.rowOrNew, hrow, Option.getD_some]
  refine put k op 0 ?_ ?_ ?_ hlocks
  · rw [hnew]
    exact hok
  · rw [hnew]
    exact h
  · rw [hnew]
    exact ht

/-- An update that writes nothing to the log. -/
theorem update_silent {k : RowKey} {cs : ConvergenceState} (op : RowOp)
    (hrow : db.rows.get? k = some cs) (hok : ok k op cs)
    (h : ∀ j, db'.rows.get? j = if j = k then some (op.apply cs) else db.rows.get? j)
    (hop : op.trail cs = []) (ht : ∀ j, db'.trail j = db.trail j)
    (hlocks : db'.locks = db.locks) : Moved ok db db' := by
  refine update op hrow hok h (fun j => ?_) hlocks
  rw [hop, List.append_nil, ite_self]
  exact ht j

end Moved

/-! ## which updates an operation makes -/

/-- The operation releases row `k` from quarantine. -/
def Op.releases (db : Db) (k : RowKey) : Op → Bool
  | .releaseQuarantine now uid _ => db.releasePick now uid = some k
  | _ => false

/-- The operation retries the failed row `k`. -/
def Op.retries (db : Db) (k : RowKey) : Op → Bool
  | .retryFailed now uid _ => db.retryPick now uid = some k
  | _ => false

/-- The poll of a station agent. -/
def Op.isCheck : Op → Bool
  | .check .. => true
  | _ => false

/-- A status report of a station agent. -/
def Op.isStatus : Op → Bool
  | .statusUpdate .. => true
  | _ => false

/-- The update of a check that hands out an instruction. -/
def RowOp.instructs : RowOp → Bool
  | .instruct _ => true
  | _ => false

/-- When an update of row `k` can be part of operation `op`, run from `db` to
`db'`.  A decision uses the version the module reports and the release as both
stand afterwards. -/
def Permitted (db : Db) (op : Op) (db' : Db) (k : RowKey) : RowOp → ConvergenceState → Prop
  | .decide uid module desired _, _ =>
    uid = k.module ∧
      (db'.modules.get? uid).map (·.lastReportedVersion) = some module.lastReportedVersion ∧
      db'.releases.table.get? k.targetRelease = some desired
  | .error _ _ _ mode _ _, cs =>
    cs.state = .updating ∨ (cs.state = .ok ∧ mode = .rolledBack) ∨
      (db.rows.get? k = some cs ∧
        ∃ now message station, op = .recordError now k mode message station)
  | .instruct _, cs => cs.state = .updating
  | .progress _ _, cs => cs.state = .updating
  | .commit _, cs => cs.state.givenUp = false
  | .release _, cs => cs.state = .quarantined ∧ op.releases db k = true
  | .retry _, cs => cs.state = .failed ∧ op.retries db k = true
  | .clearNotice, _ => True

/-- Which updates are whose: only a check instructs, a status report makes progress or an
error and nothing else, and a commit only the error of a rollback. -/
def Op.makes (op : Op) : RowOp → Bool
  | .instruct _ => op.isCheck
  | .progress .. => op.isStatus
  | .error _ _ _ mode _ _ => op.isStatus || mode = .rolledBack || !op.isEndpoint
  | _ => !op.isStatus

/-- Only a check instructs. -/
theorem Op.isCheck_of_makes {op : Op} {rop : RowOp} (h : op.makes rop = true)
    (hrop : rop.instructs = true) : op.isCheck = true := by
  cases rop <;> first | exact h | cases hrop

/-- An update that an operation makes. -/
def Makes (db : Db) (op : Op) (db' : Db) (k : RowKey) (rop : RowOp) (cs : ConvergenceState) :
    Prop :=
  Permitted db op db' k rop cs ∧ op.makes rop = true

section evolution

variable {d d' : Db} {op : Op}

/-- `db'` follows `db` inside an operation on `d`, by updates the operation can make
when what it still does changes rows and rollups only. -/
def Goes (d : Db) (op : Op) (db db' : Db) : Prop :=
  ∀ d', Frame db' d' → Moved (Makes d op d') db db'

theorem Goes.of_quiet {db db' : Db} (h : Quiet db db') : Goes d op db db' :=
  fun _ _ => .of_quiet h

theorem Goes.refl (db : Db) : Goes d op db db :=
  .of_quiet (.refl db)

/-- One part of an operation after the other. -/
theorem Goes.trans {a b c : Db} (h : Goes d op a b) (h' : Goes d op b c) (hf : Frame b c) :
    Goes d op a c :=
  fun d' hd => (h d' (hf.trans hd)).trans (h' d' hd)

variable {cs : ConvergenceState} (db : Db) (now : Time) (pk station : Pk) (uid : Uid)
  (slot : String) (m : Module) (k : RowKey)

/-- A reconcile is a decision on the row of the desired release, which may be new. -/
theorem reconcileModule_goes (hop : op.isStatus = false) :
    Goes d op db (db.reconcileModule now uid).1 := by
  intro d' hd
  have hf := (reconcileModule_frame db now uid).trans hd
  rcases reconcileModule_cases db now uid with ⟨_, h⟩ | ⟨_, c, _, _, h⟩ | ⟨m, p, rel, hm, hd, h⟩
  · rw [h]
    exact .refl db
  · rw [h]
    exact .of_quiet ⟨rfl, rfl, fun _ => rfl⟩
  · rw [h]
    obtain ⟨_, _, _, hrel⟩ := desiredReleaseForModule_spec hd
    refine Moved.put ⟨uid, p⟩ (.decide uid m rel now) now ?_ (get?_apply_rows db ⟨uid, p⟩ · _ _)
      (Db.trail_apply db ⟨uid, p⟩ · _ _) rfl
    exact ⟨⟨rfl, hf.version hm, by rw [hf.releases, hrel]⟩, by simp [Op.makes, hop]⟩

/-- A reconcile ends most of the operations. -/
theorem Goes.reconcile {db₀ db : Db} (hop : op.isStatus = false) (h : Goes d op db₀ db) :
    Goes d op db₀ (db.reconcileModule now uid).1 :=
  h.trans (reconcileModule_goes db now uid hop) (reconcileModule_frame db now uid)

/-- An error recorded in `db`, where nothing has happened since `db₀` but an entry. -/
theorem recordError_moved {db₀ db : Db} {k : RowKey} {mode : ErrorMode} (message : String)
    (station : Option Pk) (hquiet : Quiet db₀ db) (hrow : db₀.rows.get? k = some cs)
    (hok : ∀ uid m rel, Makes d op d' k (.error uid m rel mode message now) cs) :
    Moved (Makes d op d') db₀ (db.recordError now k mode message station) := by
  rw [← hquiet.rows] at hrow
  refine (Moved.of_quiet hquiet).trans ?_
  unfold Db.recordError
  split
  · exact .refl db
  · next cs' m rel hfetch =>
    have hrow' := (fetchRow_eq_some.mp hfetch).1
    rw [hrow] at hrow'
    cases hrow'
    exact Moved.update (.error k.module m rel mode message now) hrow
      (hok k.module m rel) (get?_apply_rows db k · _ _) (Db.trail_apply db k · _ _)
      rfl

/-- The mark of a check is an update of its row. -/
theorem markInstructed_moved (hop : op.isCheck = true) (i : Instruction) :
    Moved (Makes d op d') db (db.markInstructed now station i).1 := by
  unfold Db.markInstructed
  split
  · exact .refl db
  · next cs hcs =>
    split
    · next hst =>
      split
      · refine Moved.update (.instruct now) hcs ⟨hst, hop⟩
          (Db.get?_putRow db i.convergenceId · _) (fun j => ?_) rfl
        rw [Db.trail_log]
        by_cases hj : j = i.convergenceId
        · subst hj
          rw [if_pos rfl]
          simp [EventType.isTrail, RowOp.trail, Db.trail, Db.putRow]
        · rw [if_neg hj]
          simp [Ne.symm hj, Db.trail, Db.putRow]
      · exact .refl db
    · exact .refl db

/-! ### check -/

theorem markInstructed_frame (i : Instruction) : Frame db (db.markInstructed now station i).1 := by
  unfold Db.markInstructed
  split
  · exact .refl db
  · split
    · split
      · exact ⟨⟨rfl, rfl, rfl, rfl⟩, ⟨fun _ => rfl⟩, rfl⟩
      · exact .refl db
    · exact .refl db

theorem foldl_checkModule_frame (backends : List Artifact) (as : List (Uid × Assignment))
    (s : Db × Candidates) : Frame s.1 (as.foldl (Db.checkModule now backends) s).1 := by
  induction as generalizing s with
  | nil => exact .refl s.1
  | cons a as ih =>
    exact (reconcileModule_frame s.1 now a.1).trans (ih (Db.checkModule now backends s a))

/-- A check reconciles one module after the other. -/
theorem foldl_checkModule_goes (hop : op.isStatus = false) (backends : List Artifact)
    (as : List (Uid × Assignment)) (s : Db × Candidates) : Goes d op s.1 (as.foldl (Db.checkModule now backends) s).1 := by
  induction as generalizing s with
  | nil => exact .refl s.1
  | cons a as ih =>
    exact (reconcileModule_goes s.1 now a.1 hop).trans (ih (Db.checkModule now backends s a))
      (foldl_checkModule_frame now backends as (Db.checkModule now backends s a))

theorem answer_frame (c : Candidates) : Frame db (db.answer now station c).1 := by
  unfold Db.answer
  split
  · exact .refl db
  · exact markInstructed_frame ..

theorem answer_moved (hop : op.isCheck = true) (c : Candidates) :
    Moved (Makes d op d') db (db.answer now station c).1 := by
  unfold Db.answer
  split
  · exact .refl db
  · exact markInstructed_moved db now station hop _

theorem check_frame (station : Option Pk) : Frame db (db.check now station).1 := by
  unfold Db.check
  split
  · exact .refl db
  · split
    · exact .refl db
    · split
      · exact .refl db
      · exact (foldl_checkModule_frame now _ _ (db, {})).trans (answer_frame ..)

/-- A check: the decisions, and the mark. -/
theorem check_goes (hop : op.isCheck = true) (station : Option Pk) :
    Goes d op db (db.check now station).1 := by
  unfold Db.check
  split
  · exact .refl db
  · split
    · exact .refl db
    · split
      · exact .refl db
      · have hstatus : op.isStatus = false := by
          cases op <;> first | rfl | cases hop
        exact (foldl_checkModule_goes now hstatus _ _ (db, {})).trans
          (fun _ _ => answer_moved _ now _ hop _) (answer_frame ..)

/-! ### status and commit -/

theorem givenUp_eq_false {s : State} : s.givenUp = false ↔ s = .ok ∨ s = .updating := by
  cases s <;> simp [State.givenUp]

/-- A conflict is logged and touches no row. -/
theorem conflictOn_moved (pk : Pk) (cs : ConvergenceState) (what : String) :
    Moved (Makes d op d') db (db.conflictOn k pk cs what).1 :=
  .of_quiet (.audit db k pk (by simp [EventType.isTrail]))

/-- The entry about a phase is not in the trail. -/
theorem isTrail_progressAudit {uid : Uid} {rel : Release} {phase : Phase} :
    ∀ e ∈ progressAudit uid rel phase cs, e.1.isTrail = false := by
  unfold progressAudit
  cases cs.phase with
  | none => simp [EventType.isTrail]
  | some old =>
    simp only
    split <;> simp [EventType.isTrail]

theorem applyStatus_moved {db : Db} {k : RowKey} (hop : op.isStatus = true) (rel : Release)
    (status : StatusReport) (errorMessage : String) (hrow : db.rows.get? k = some cs) (hst : cs.state = .updating) :
    Moved (Makes d op d') db (db.applyStatus now pk k cs m rel status errorMessage) := by
  cases status with
  | error e =>
    refine recordError_moved now _ _ (.audit db k pk ?_) hrow fun _ _ _ =>
      ⟨.inl hst, by simp [Op.makes, hop]⟩
    cases e <;> simp [FlashError.event, EventType.isTrail]
  | progress phase =>
    exact Moved.update_silent (.progress phase now) hrow ⟨hst, hop⟩ (Db.get?_putRow db k · _) rfl
      (Quiet.audit (db.putRow k (progressRow phase now cs)) k pk isTrail_progressAudit).trail rfl

/-- A status report is progress or an error on its row. -/
theorem statusUpdate_moved (hop : op.isStatus = true) (station : Option Pk) (k : RowKey)
    (status : StatusReport) (errorMessage : String) :
    Moved (Makes d op d') db (db.statusUpdate now station k status errorMessage).1 := by
  unfold Db.statusUpdate
  split
  · exact .refl db
  · split
    · exact .refl db
    · next cs m rel hfetch =>
      obtain ⟨hrow, _, _⟩ := fetchRow_eq_some.mp hfetch
      split
      · exact .refl db
      · split
        · exact conflictOn_moved ..
        · next hgiven =>
          split
          · exact .refl db
          · next hok =>
            have hst : cs.state = .updating :=
              (givenUp_eq_false.mp (Bool.eq_false_iff.mpr hgiven)).resolve_left hok
            exact applyStatus_moved now _ m hop rel status _ hrow hst

theorem Quiet.auditCommit (message : String) : Quiet db (db.auditCommit pk k message) := by
  unfold Db.auditCommit
  split
  · exact .refl db
  · exact .audit db k pk (by simp [EventType.isTrail])

/-- An accepted commit, and the decision after it. -/
theorem commitAccept_goes (hop : op.isStatus = false) (version : String)
    (hrow : db.rows.get? k = some cs) (hst : cs.state.givenUp = false) :
    Goes d op db (db.commitAccept now pk k cs version) := by
  have hquiet := Quiet.auditCommit db pk k
  refine Goes.reconcile now k.module hop fun d' _ => ?_
  refine Moved.update_silent (.commit now) hrow ⟨hst, by simp [Op.makes, hop]⟩ (fun j => ?_) rfl
    (hquiet _).trail (hquiet _).locks
  rw [Db.get?_putRow, (hquiet _).rows]
  rfl

/-- A commit of another version counts as a rollback. -/
theorem commit_goes (hop : op.isStatus = false) (station : Option Pk) (k : RowKey)
    (version : String) : Goes d op db (db.commit now station k version).1 := by
  unfold Db.commit
  split
  · exact .refl db
  · next pk =>
    split
    · exact .refl db
    · next cs m rel hfetch =>
      obtain ⟨hrow, _, _⟩ := fetchRow_eq_some.mp hfetch
      split
      · exact .refl db
      · split
        · exact fun _ _ => conflictOn_moved ..
        · next hgiven =>
          have hfalse := Bool.eq_false_iff.mpr hgiven
          split
          · intro d' _
            refine recordError_moved now _ _
              (.audit db k pk (by simp [EventType.isTrail])) hrow fun _ _ _ => ?_
            refine ⟨?_, by simp [Op.makes]⟩
            rcases givenUp_eq_false.mp hfalse with h | h
            · exact .inr (.inl ⟨h, rfl⟩)
            · exact .inl h
          · exact commitAccept_goes db now pk k hop version hrow hfalse

/-! ### operator actions -/

theorem get?_setRow {db : Db} {k : RowKey} (f : ConvergenceState → ConvergenceState)
    (hrow : db.rows.get? k = some cs) (j : RowKey) :
    (db.setRow k f).rows.get? j = if j = k then some (f cs) else db.rows.get? j := by
  rw [Db.setRow_rows, Table.get?_modify]
  split
  · next h =>
    subst h
    rw [hrow, Option.map_some]
  · rfl

/-- Both operator actions: reconcile, update one stored row, reconcile, log. -/
theorem operatorAction_goes {db : Db} {k : RowKey} (hop : op.isStatus = false) (rop : RowOp)
    (event : EventType) (message : String) (hrow : (db.reconcileModule now uid).1.rows.get? k = some cs)
    (hok : ∀ d', Makes d op d' k rop cs) (hsilent : rop.trail cs = [])
    (hevent : event.isTrail = false) : Goes d op db
      ((((db.reconcileModule now uid).1.setRow k rop.apply).reconcileModule now uid).1.auditAction
        k event message) := by
  have hset : Goes d op (db.reconcileModule now uid).1
      ((db.reconcileModule now uid).1.setRow k rop.apply) := fun d' _ =>
    Moved.update_silent rop hrow (hok d') (get?_setRow rop.apply hrow) hsilent (fun _ => rfl) rfl
  have hreset : Goes d op db ((db.reconcileModule now uid).1.setRow k rop.apply) :=
    (reconcileModule_goes db now uid hop).trans hset ⟨⟨rfl, rfl, rfl, rfl⟩, ⟨fun _ => rfl⟩, rfl⟩
  exact (hreset.reconcile now uid hop).trans
    (.of_quiet ⟨rfl, rfl, Db.trail_log_of_request _ (by simpa using hevent)⟩)
    ⟨⟨rfl, rfl, rfl, rfl⟩, ⟨fun _ => rfl⟩, rfl⟩

/-- The operator's release, between two decisions. -/
theorem releaseQuarantine_goes (suffix : String) :
    Goes db (.releaseQuarantine now uid suffix) db (db.releaseQuarantine now uid suffix).1 := by
  unfold Db.releaseQuarantine
  simp only
  split
  · exact reconcileModule_goes db now uid rfl
  · next k hpick =>
    obtain ⟨_, cs, hrow, hst⟩ := currentQuarantine_spec hpick
    exact operatorAction_goes now uid rfl (.release now) _ _ hrow
      (fun _ => ⟨⟨hst, decide_eq_true hpick⟩, rfl⟩) rfl rfl

/-- The operator's retry, between two decisions. -/
theorem retryFailed_goes (suffix : String) :
    Goes db (.retryFailed now uid suffix) db (db.retryFailed now uid suffix).1 := by
  unfold Db.retryFailed
  simp only
  split
  · exact reconcileModule_goes db now uid rfl
  · next k hpick =>
    obtain ⟨_, cs, hrow, hst⟩ := retryPick_spec hpick
    exact operatorAction_goes now uid rfl (.retry now) _ _ hrow
      (fun _ => ⟨⟨hst, decide_eq_true hpick⟩, rfl⟩) rfl rfl

/-! ### ingestion -/

/-- The notices of a module that came online are cleared. -/
theorem clearDfuStuck_moved (hop : op.isStatus = false) :
    Moved (Makes d op d') db (db.clearDfuStuck uid) where
  locks := rfl
  run k := by
    have hget : (db.clearDfuStuck uid).rows.get? k = (db.rows.get? k).map fun cs =>
        if k.module = uid ∧ isDfuStuck cs.lastErrorMessage then { cs with lastErrorMessage := "" }
        else cs := Table.get?_map ..
    rw [hget]
    cases db.rows.get? k with
    | none => exact ⟨[], .refl, (List.append_nil _).symm⟩
    | some cs =>
      rw [Option.map_some]
      by_cases h : k.module = uid ∧ isDfuStuck cs.lastErrorMessage
      · rw [if_pos h]
        exact ⟨[(.clearNotice, cs)], .update .refl ⟨trivial, by simp [Op.makes, hop]⟩,
          (List.append_nil _).symm⟩
      · rw [if_neg h]
        exact ⟨[], .refl, (List.append_nil _).symm⟩

/-! The steps of ingestion before its reconcile are quiet. -/

theorem deriveLifecycle_quiet : Quiet db (db.deriveLifecycle station uid) := by
  unfold Db.deriveLifecycle
  split
  · exact .refl db
  · split
    · exact .refl db
    · simp only
      split
      · exact .refl db
      · exact ((Quiet.refl db).setModule ..).auditModule ..

theorem auditOnce_quiet (message : String) : Quiet db (db.auditOnce station uid message) := by
  unfold Db.auditOnce
  split
  · exact .refl db
  · exact (Quiet.refl db).auditModule ..

theorem applyAssignment_quiet (uid : Uid) : Quiet db (db.applyAssignment station slot uid) := by
  unfold Db.applyAssignment
  simp only
  split
  · exact .refl db
  · refine Quiet.auditModule ?_ ..
    have hassigned := (Quiet.refl db).assign
    cases db.occupant station slot uid with
    | some d => exact ((hassigned _).auditModule ..).trans (deriveLifecycle_quiet ..)
    | none =>
      simp only
      split
      · exact (hassigned _).auditModule ..
      · exact hassigned _

theorem ingestVariant_quiet (variant : String) :
    Quiet db (db.ingestVariant station uid m variant) := by
  unfold Db.ingestVariant
  split
  · exact .refl db
  · split
    · exact (Quiet.refl db).setModule ..
    · split
      · exact auditOnce_quiet ..
      · exact .refl db

theorem ingestKnown_quiet (identity : Identity) :
    Quiet db (db.ingestKnown now station uid m identity) := by
  have hvariant := ingestVariant_quiet db station uid m (identity.variant.getD "")
  unfold Db.ingestKnown
  simp only
  split
  · exact (hvariant.setModule ..).auditModule ..
  · exact hvariant.setModule ..

theorem ingestNew_quiet (moduleType : Pk) (identity : Identity) :
    Quiet db (db.ingestNew now station slot uid moduleType identity) := by
  refine Quiet.auditModule ?_ ..
  exact ⟨rfl, rfl, fun _ => rfl⟩

theorem reconcileStation_quiet (trackedSlots : List String) (reported : List (String × Uid)) :
    Quiet db (db.reconcileStation station trackedSlots reported) := by
  unfold Db.reconcileStation
  simp only
  generalize db.assignments.entries.filter _ = stale
  induction stale generalizing db with
  | nil => exact .refl db
  | cons a as ih =>
    exact ((((Quiet.refl db).assign _).auditModule ..).trans (deriveLifecycle_quiet ..)).trans (ih _)

/-- The end of an ingestion, on a record that is already stored. -/
theorem ingestTail_goes {db₀ db : Db} (hop : op.isStatus = false) (uid : Uid) (cameOnline : Bool)
    (h : Quiet db₀ db) : Goes d op db₀ (db.ingestTail now station slot uid cameOnline) := by
  refine Goes.reconcile now uid hop fun d' _ => ?_
  refine (Moved.of_quiet h).trans ?_
  have hassigned : Moved (Makes d op d') db
      ((db.applyAssignment station slot uid).deriveLifecycle station uid) :=
    .of_quiet ((applyAssignment_quiet ..).trans (deriveLifecycle_quiet ..))
  split
  · exact hassigned.trans (clearDfuStuck_moved _ uid hop)
  · exact hassigned

/-- An ingest, which ends with a decision. -/
theorem ingestModule_goes (hop : op.isStatus = false) (moduleId : Option String)
    (identity : Identity) (cameOnline : Bool) :
    Goes d op db (db.ingestModule now station slot moduleId identity cameOnline).1 := by
  unfold Db.ingestModule
  split
  · exact .refl db
  · split
    · exact .refl db
    · simp only
      split
      · exact .refl db
      · split
        · exact ingestTail_goes now station slot hop _ cameOnline (ingestNew_quiet ..)
        · split
          · exact .of_quiet (auditOnce_quiet ..)
          · exact ingestTail_goes now station slot hop _ cameOnline (ingestKnown_quiet ..)

end evolution

/-- **Every operation moves every row by updates it can make**, logs what they write,
and keeps the locks. -/
theorem step_moved {db db' : Db} {op : Op} (h : db.step op = some db')
    (hop : ∀ locks, op ≠ .setLocks locks) : Moved (Makes db op db') db db' := by
  cases op with
  | setLocks locks => exact absurd rfl (hop locks)
  | setReleases releases =>
    simp only [Db.step] at h
    split at h
    · cases h
      exact .of_quiet ⟨rfl, rfl, fun _ => rfl⟩
    · cases h
  | ingestModule => cases h; exact ingestModule_goes _ _ _ _ rfl _ _ _ _ (.refl _)
  | reconcileStation => cases h; exact .of_quiet (reconcileStation_quiet ..)
  | reconcileModule now uid => cases h; exact reconcileModule_goes db now uid rfl _ (.refl _)
  | check now station => cases h; exact check_goes db now rfl station _ (.refl _)
  | statusUpdate => cases h; exact statusUpdate_moved _ _ rfl ..
  | commit => cases h; exact commit_goes _ _ rfl _ _ _ _ (.refl _)
  | releaseQuarantine => cases h; exact releaseQuarantine_goes _ _ _ _ _ (.refl _)
  | retryFailed => cases h; exact retryFailed_goes _ _ _ _ _ (.refl _)
  | recordError now k mode message station =>
    cases h
    cases hrow : db.rows.get? k with
    | some cs =>
      exact recordError_moved now message station (.refl db) hrow fun _ _ _ =>
        ⟨.inr (.inr ⟨hrow, now, message, station, rfl⟩), by simp [Op.makes, Op.isEndpoint]⟩
    | none =>
      have hsame : db.recordError now k mode message station = db := by
        unfold Db.recordError Db.fetchRow
        rw [hrow]
      rw [hsame]
      exact .refl db
  | setTargets | setStations | setAssignments | setModuleTypes | setLifecycle =>
    cases h
    exact .of_quiet ⟨rfl, rfl, fun _ => rfl⟩

/-- The same with the change of the locks. -/
theorem step_makes {db db' : Db} {op : Op} (h : db.step op = some db') :
    Traced (Makes db op db') db db' := by
  by_cases hop : ∀ locks, op ≠ .setLocks locks
  · exact (step_moved h hop).toTraced
  · simp only [not_forall, not_not] at hop
    obtain ⟨locks, rfl⟩ := hop
    cases h
    exact ⟨fun k => ⟨[], .refl, (List.append_nil _).symm⟩⟩

theorem step_traced {db db' : Db} {op : Op} (h : db.step op = some db') :
    Traced (Permitted db op db') db db' where
  run k := by
    obtain ⟨us, hrun, htrail⟩ := (step_makes h).run k
    exact ⟨us, hrun.mono fun _ _ => And.left, htrail⟩

/-- **Every operation evolves the rows by permitted updates.** -/
theorem step_evolves {db db' : Db} {op : Op} (h : db.step op = some db') :
    Evolves (Permitted db op db') db db' :=
  (step_traced h).evolves

end StationManager.Firmware
