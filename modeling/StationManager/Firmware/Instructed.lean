import Mathlib.Data.List.Chain
import StationManager.Firmware.Rows

/-!
# StationManager.Firmware.Instructed

Concurrent requests on convergence rows.  Every other request is one transaction,
which holds the locks of the module and of the row; a check is not: it reconciles
one module after the other, marks the chosen row by one conditional UPDATE, and
writes its audit entry, or reads the row again, in a statement of its own.

The `journal` notes, row by row, the marks and what ends an attempt: one instruction per
attempt means that no two marks follow each other.
-/

namespace StationManager.Firmware

/-- What happens to a row. -/
inductive Deed
  /-- the UPDATE of a check has matched -/
  | instructed
  /-- an accepted status report -/
  | progress
  | terminal
  /-- a commit, accepted or recorded as a mismatch -/
  | committed
  | mismatched
  | released
  | retried
  /-- a reconcile has moved the row out of `updating` -/
  | departed
deriving DecidableEq, Repr

abbrev Journal := List (RowKey × Deed)

namespace Concurrent

/-- Rows that leave `updating` between two databases. -/
def departures (db db' : Db) : Journal :=
  db.rows.entries.filterMap fun e =>
    if e.2.state = .updating ∧ (db'.rows.get? e.1).map (·.state) ≠ some .updating then
      some (e.1, .departed)
    else none

/-- What an operator action does to the row it picks, and its two reconciles. -/
def actionDeeds (db : Db) (now : Time) (uid : Uid) (pick : Option RowKey) (deed : Deed)
    (f : ConvergenceState → ConvergenceState) : Journal :=
  let db₁ := (db.reconcileModule now uid).1
  departures db db₁ ++ match pick with
    | none => []
    | some k =>
      let db₂ := db₁.setRow k f
      (k, deed) :: departures db₂ (db₂.reconcileModule now uid).1

/-- What a transaction from `db` to `db'` does to rows. -/
def deeds (db : Db) (op : Op) (db' : Db) : Journal :=
  match op with
  | .statusUpdate now station k status message =>
    if (db.statusUpdate now station k status message).2 = .ok then
      [(k, match status with
        | .progress _ => .progress
        | .error _ => .terminal)]
    else []
  | .commit now station k version =>
    let response := (db.commit now station k version).2
    (if response = .ok then [(k, .committed)]
      else if response = .conflict "Version mismatch — recorded as rolled_back." then
        [(k, .mismatched)]
      else []) ++ departures db db'
  | .releaseQuarantine now uid _ =>
    actionDeeds db now uid (db.releasePick now uid) .released (releaseRow now)
  | .retryFailed now uid _ => actionDeeds db now uid (db.retryPick now uid) .retried (retryRow now)
  | _ => departures db db'

/-- The database, the journal, and the rows that instructions were handed out for with
the state each had in the statement that decided it. -/
structure Shared where
  db : Db
  journal : Journal
  handed : List (RowKey × Option State)

/-- Requests: a check, or any operation that is one transaction. -/
inductive Request
  | check (station : Option Pk)
  | txn (op : Op)

/-- Everything but a check, and but a direct call of `record_error`. -/
def isTransaction : Op → Bool
  | .check .. | .recordError .. => false
  | _ => true

/-- Where a request stands. -/
inductive Pc
  | txn (op : Op)
  | gate (station : Option Pk)
  | loop (station : Pk) (backends : List Artifact) (rest : List (Uid × Assignment))
      (c : Candidates)
  /-- the UPDATE comes next -/
  | mark (station : Pk) (i : Instruction)
  /-- it has matched a row in this state -/
  | audit (station : Pk) (i : Instruction) (state : State)
  /-- it has not -/
  | reread (i : Instruction)

def start (_ : Shared) : Request → Option Pc
  | .check station => some (.gate station)
  | .txn op => if isTransaction op then some (.txn op) else none

/-- The conditional UPDATE of `_mark_instructed` matches. -/
def marksRow (cs : ConvergenceState) : Bool :=
  cs.state = .updating ∧ (cs.instructedAt = none ∨ cs.phase ≠ none)

/-- The audit entry of an instruction. -/
def instructedEntry (station : Pk) (i : Instruction) : AuditEntry :=
  ⟨some station, i.moduleUid, .moduleFlashInstructed,
    s!"Modul {i.moduleUid}: Update-Anweisung auf {i.targetVersion} " ++
      s!"ausgegeben ({i.artifact.value}).", some i.convergenceId⟩

/-- One statement or transaction at time `now`; without a next point the request is
answered. -/
def act (_ : Nat) (s : Shared) (p : Pc) (now : Time) : Option (Shared × Option Pc) :=
  match p with
  | .txn op => (s.db.step op).map fun db' =>
    ({ s with db := db', journal := s.journal ++ deeds s.db op db' }, none)
  | .gate none => some (s, none)
  | .gate (some pk) => match s.db.stations.get? pk with
      | none => some (s, none)
      | some st =>
        if s.db.lockHeld pk then some (s, none)
        else some (s, some (.loop pk (moduleOtaBackends st) (s.db.openAssignments pk) {}))
  | .loop pk _ [] c => some (s, c.chosen.map (.mark pk))
  | .loop pk backends (a :: rest) c =>
    let r := Db.checkModule now backends (s.db, c) a
    some ({ s with db := r.1, journal := s.journal ++ departures s.db r.1 },
      some (.loop pk backends rest r.2))
  | .mark pk i => match s.db.rows.get? i.convergenceId with
      | none => some (s, some (.reread i))
      | some cs =>
        if marksRow cs then
          some ({ s with
              db := s.db.putRow i.convergenceId (instructRow now cs)
              journal := s.journal ++ [(i.convergenceId, .instructed)] },
            some (.audit pk i cs.state))
        else some (s, some (.reread i))
  | .audit pk i state =>
    some ({ s with
        db := s.db.log [instructedEntry pk i]
        handed := s.handed ++ [(i.convergenceId, some state)] }, none)
  | .reread i =>
    let state := (s.db.rows.get? i.convergenceId).map (·.state)
    some (if state = some .updating then
      { s with handed := s.handed ++ [(i.convergenceId, state)] } else s, none)

/-- Checks and transactions in any order of their statements. -/
def step : Pool Shared Pc → Sched Request Time → Option (Pool Shared Pc) := Pool.step start act

/-- Nothing in progress yet. -/
def idle (db : Db) : Pool Shared Pc := ⟨⟨db, [], []⟩, .empty⟩

variable {cs : ConvergenceState} {db db' : Db} {ds : Journal} {q : Option Pc} {p : Pc} {k : RowKey}
  {s : Shared} {now : Time}

/-! ## an open instruction -/

/-- An instruction is open on the row: a mark would not match. -/
def Open (db : Db) (k : RowKey) : Prop :=
  ∃ cs, db.rows.get? k = some cs ∧ cs.state = .updating ∧ cs.instructedAt ≠ none ∧ cs.phase = none

/-- The row has left `updating`. -/
def Left (db : Db) (k : RowKey) : Prop := (db.rows.get? k).map (·.state) ≠ some .updating

/-- From `db` to `db'` an open instruction stays open, or the journal says why not. -/
structure Keeps (db db' : Db) (ds : Journal) : Prop where
  isOpen : ∀ k, Open db k → Open db' k ∨ ∃ d, (k, d) ∈ ds
  other : ∀ e ∈ ds, e.2 ≠ .instructed

theorem Keeps.trans {a b c : Db} {ds' : Journal} (h : Keeps a b ds) (h' : Keeps b c ds') :
    Keeps a c (ds ++ ds') where
  isOpen k hk := by
    rcases h.isOpen k hk with hb | ⟨d, hd⟩
    · rcases h'.isOpen k hb with hc | ⟨d, hd⟩
      · exact .inl hc
      · exact .inr ⟨d, List.mem_append_right _ hd⟩
    · exact .inr ⟨d, List.mem_append_left _ hd⟩
  other e he := (List.mem_append.mp he).elim (h.other e) (h'.other e)

theorem Keeps.of_rows (h : db'.rows = db.rows) : Keeps db db' [] where
  isOpen k hk := .inl (by rw [Open, h]; exact hk)
  other _ he := by cases he

/-- Only row `k` is touched, and the journal notes it. -/
theorem Keeps.of_row {d : Deed} (hd : d ≠ .instructed)
    (h : ∀ j, j ≠ k → db'.rows.get? j = db.rows.get? j) : Keeps db db' [(k, d)] where
  isOpen j hj := by
    by_cases hjk : j = k
    · subst hjk
      exact .inr ⟨d, List.mem_singleton_self _⟩
    · exact .inl (by rw [Open, h j hjk]; exact hj)
  other e he := by
    cases List.mem_singleton.mp he
    exact hd

theorem mem_departures (hrow : db.rows.get? k = some cs) (hs : cs.state = .updating)
    (hleft : Left db' k) : (k, .departed) ∈ departures db db' := by
  refine List.mem_filterMap.mpr ⟨(k, cs), (Table.mem_entries_iff _ _ _).mpr hrow, ?_⟩
  exact if_pos ⟨hs, hleft⟩

theorem departures_other : ∀ e ∈ departures db db', e.2 ≠ .instructed := by
  intro e he
  obtain ⟨x, -, hx⟩ := List.mem_filterMap.mp he
  split at hx
  · cases hx
    simp
  · cases hx

/-- A row that is no longer open has left `updating`, so it has departed. -/
theorem Keeps.of_left (h : ∀ k, Open db k → Open db' k ∨ Left db' k) :
    Keeps db db' (departures db db') where
  isOpen k hk := by
    rcases h k hk with h | h
    · exact .inl h
    · obtain ⟨cs, hrow, hs, -⟩ := hk
      exact .inr ⟨.departed, mem_departures hrow hs h⟩
  other := departures_other

/-! ### transactions -/

/-- A decision keeps an open instruction or moves the row out of `updating`. -/
theorem decided_open {m : Module} {desired : Release} {cs' : ConvergenceState}
    (h : Decided m desired now cs cs') (hs : cs.state = .updating) :
    (cs'.state = .updating ∧ cs'.instructedAt = cs.instructedAt ∧ cs'.phase = cs.phase) ∨
      cs'.state ≠ .updating := by
  cases h with
  | reached => exact .inr (by simp [ConvergenceState.toOk])
  | mismatch => exact .inr (by simp [ConvergenceState.toNotUpdatable])
  | restored before hn => rw [hn] at hs; cases hs
  | released hn => rw [hn] at hs; cases hs
  | kept hsticky => rw [hs] at hsticky; cases hsticky
  | gaveUp => exact .inr (by simp [ConvergenceState.toFailed])
  | updating => exact .inl ⟨rfl, rfl, rfl⟩

theorem reconcileModule_open (now : Time) (uid : Uid) (k : RowKey) (h : Open db k) :
    Open (db.reconcileModule now uid).1 k ∨ Left (db.reconcileModule now uid).1 k := by
  rcases reconcileModule_cases db now uid with ⟨_, e⟩ | ⟨_, c, _, _, e⟩ | ⟨m, p, rel, hm, hd, e⟩
  · rw [e]
    exact .inl h
  · rw [e]
    exact .inl h
  · rw [e]
    obtain ⟨cs, hrow, hs, hi, hp⟩ := h
    by_cases hk : k = ⟨uid, p⟩
    · subst hk
      have hnew : db.rowOrNew now ⟨uid, p⟩ = cs := by rw [Db.rowOrNew, hrow, Option.getD_some]
      have hget := get?_apply_rows db ⟨uid, p⟩ ⟨uid, p⟩ (db.openAssignmentStation uid)
        (reconcilerDecide uid m rel now cs)
      rw [if_pos rfl] at hget
      rw [hnew]
      rcases decided_open (reconcilerDecide_decided uid m rel now cs) hs with ⟨hs', hi', hp'⟩ | hs'
      · exact .inl ⟨_, hget, hs', hi' ▸ hi, hp' ▸ hp⟩
      · exact .inr (by simpa [Left, hget] using hs')
    · refine .inl ⟨cs, ?_, hs, hi, hp⟩
      rw [get?_apply_rows, if_neg hk]
      exact hrow

theorem reconcileModule_keeps (db : Db) (now : Time) (uid : Uid) :
    Keeps db (db.reconcileModule now uid).1 (departures db (db.reconcileModule now uid).1) :=
  .of_left (reconcileModule_open now uid)

/-- An operator action: its reconciles, and the row it picks. -/
theorem actionDeeds_keeps (now : Time) (uid : Uid) (pick : Option RowKey) {deed : Deed}
    (hdeed : deed ≠ .instructed) (f : ConvergenceState → ConvergenceState)
    (hnone : pick = none → db'.rows = (db.reconcileModule now uid).1.rows)
    (hsome : ∀ k, pick = some k →
      db'.rows = (((db.reconcileModule now uid).1.setRow k f).reconcileModule now uid).1.rows) :
    Keeps db db' (actionDeeds db now uid pick deed f) := by
  have hfirst := reconcileModule_keeps db now uid
  unfold actionDeeds
  simp only
  cases pick with
  | none => exact hfirst.trans (.of_rows (hnone rfl))
  | some k =>
    have hrow : Keeps (db.reconcileModule now uid).1 ((db.reconcileModule now uid).1.setRow k f)
        [(k, deed)] :=
      .of_row hdeed fun j hj => by rw [Db.setRow_rows, Table.get?_modify_ne _ _ hj]
    have hlast := reconcileModule_keeps ((db.reconcileModule now uid).1.setRow k f) now uid
    have hall := hfirst.trans ((hrow.trans hlast).trans (.of_rows (hsome k rfl)))
    simpa using hall

theorem get?_recordError_ne {j : RowKey} {mode : ErrorMode} {message : String} {station : Option Pk}
    (h : j ≠ k) : (db.recordError now k mode message station).rows.get? j = db.rows.get? j := by
  unfold Db.recordError
  split
  · rfl
  · rw [get?_apply_rows, if_neg h]

/-- A status report that is not accepted touches no row, one that is touches its own. -/
theorem statusUpdate_rows (db : Db) (now : Time) (station : Option Pk) (k : RowKey)
    (status : StatusReport) (message : String) :
    ((db.statusUpdate now station k status message).2 ≠ .ok ∧
      (db.statusUpdate now station k status message).1.rows = db.rows) ∨
    ((db.statusUpdate now station k status message).2 = .ok ∧ ∀ j, j ≠ k →
        (db.statusUpdate now station k status message).1.rows.get? j = db.rows.get? j) := by
  unfold Db.statusUpdate
  split
  · exact .inl ⟨by simp, rfl⟩
  · split
    · exact .inl ⟨by simp, rfl⟩
    · next cs m rel hfetch =>
      split
      · exact .inl ⟨by simp, rfl⟩
      · split
        · exact .inl ⟨by simp [Db.conflictOn], rfl⟩
        · split
          · exact .inl ⟨by simp, rfl⟩
          · refine .inr ⟨rfl, fun j hj => ?_⟩
            cases status with
            | progress phase => exact (Db.get?_putRow db k j _).trans (if_neg hj)
            | error e => exact get?_recordError_ne hj

theorem statusUpdate_keeps (db : Db) (now : Time) (station : Option Pk) (k : RowKey)
    (status : StatusReport) (message : String) :
    Keeps db (db.statusUpdate now station k status message).1
      (deeds db (.statusUpdate now station k status message)
        (db.statusUpdate now station k status message).1) := by
  unfold deeds
  simp only
  rcases statusUpdate_rows db now station k status message with ⟨hr, hrows⟩ | ⟨hr, hrows⟩
  · rw [if_neg hr]
    exact .of_rows hrows
  · rw [if_pos hr]
    refine .of_row ?_ hrows
    cases status <;> simp

/-- The responses of a commit, with the rows it touches. -/
theorem commit_rows (db : Db) (now : Time) (station : Option Pk) (k : RowKey) (version : String) :
    ((db.commit now station k version).2 = .ok ∧
      ∀ j, j ≠ k → Open db j →
        Open (db.commit now station k version).1 j ∨ Left (db.commit now station k version).1 j) ∨
    ((db.commit now station k version).2 =
        .conflict "Version mismatch — recorded as rolled_back." ∧
      ∀ j, j ≠ k → (db.commit now station k version).1.rows.get? j = db.rows.get? j) ∨
    (db.commit now station k version).1.rows = db.rows := by
  unfold Db.commit
  split
  · exact .inr (.inr rfl)
  · split
    · exact .inr (.inr rfl)
    · next pk _ cs m rel hfetch =>
      split
      · exact .inr (.inr rfl)
      · split
        · exact .inr (.inr rfl)
        · split
          · exact .inr (.inl ⟨rfl, fun j hj => get?_recordError_ne hj⟩)
          · refine .inl ⟨rfl, fun j hj hopen => ?_⟩
            unfold Db.commitAccept
            simp only
            refine reconcileModule_open now k.module j ?_
            obtain ⟨cs', hrow, hcs'⟩ := hopen
            refine ⟨cs', ?_, hcs'⟩
            rw [Db.get?_putRow, if_neg hj, Db.auditCommit_rows]
            exact hrow

theorem commit_keeps (db : Db) (now : Time) (station : Option Pk) (k : RowKey) (version : String) :
    Keeps db (db.commit now station k version).1
      (deeds db (.commit now station k version) (db.commit now station k version).1) := by
  unfold deeds
  simp only
  have hnoted : ∀ (d : Deed) (db' : Db), d ≠ .instructed →
      (∀ j, j ≠ k → Open db j → Open db' j ∨ Left db' j) →
      Keeps db db' ([(k, d)] ++ departures db db') := by
    intro d db' hd h
    refine ⟨fun j hj => ?_, fun e he => ?_⟩
    · by_cases hjk : j = k
      · subst hjk
        exact .inr ⟨d, List.mem_append_left _ (List.mem_singleton_self _)⟩
      · rcases h j hjk hj with hopen | hleft
        · exact .inl hopen
        · obtain ⟨cs, hrow, hs, -⟩ := hj
          exact .inr ⟨.departed, List.mem_append_right _ (mem_departures hrow hs hleft)⟩
    · rcases List.mem_append.mp he with he | he
      · cases List.mem_singleton.mp he
        exact hd
      · exact departures_other e he
  rcases commit_rows db now station k version with ⟨hr, h⟩ | ⟨hr, h⟩ | hrows
  · rw [if_pos hr]
    exact hnoted .committed _ (by simp) h
  · rw [if_neg (by rw [hr]; simp), if_pos hr]
    exact hnoted .mismatched _ (by simp) fun j hj hopen => .inl (by rw [Open, h j hj]; exact hopen)
  · refine ⟨fun j hj => .inl (by rw [Open, hrows]; exact hj), fun e he => ?_⟩
    rcases List.mem_append.mp he with he | he
    · split at he
      · cases List.mem_singleton.mp he
        simp
      · split at he
        · cases List.mem_singleton.mp he
          simp
        · cases he
    · exact departures_other e he

theorem ingestTail_open (now : Time) (station : Pk) (slot : String) (uid : Uid) (cameOnline : Bool)
    (k : RowKey) (h : Open db k) : Open (db.ingestTail now station slot uid cameOnline) k ∨
      Left (db.ingestTail now station slot uid cameOnline) k := by
  unfold Db.ingestTail
  simp only
  refine reconcileModule_open now uid k ?_
  obtain ⟨cs, hrow, hs⟩ := h
  have hrow' : ((db.applyAssignment station slot uid).deriveLifecycle station uid).rows.get? k =
      some cs := by
    rw [(deriveLifecycle_quiet ..).rows, (applyAssignment_quiet ..).rows]
    exact hrow
  cases cameOnline with
  | false => exact ⟨cs, hrow', hs⟩
  | true =>
    simp only [if_true, Open, Db.clearDfuStuck, Table.get?_map, hrow', Option.map_some,
      Option.some.injEq, exists_eq_left']
    split
    · exact hs
    · exact hs

theorem ingestModule_open (now : Time) (station : Pk) (slot : String) (moduleId : Option String)
    (identity : Identity) (cameOnline : Bool) (k : RowKey) (h : Open db k) :
    Open (db.ingestModule now station slot moduleId identity cameOnline).1 k ∨
      Left (db.ingestModule now station slot moduleId identity cameOnline).1 k := by
  unfold Db.ingestModule
  split
  · exact .inl h
  · split
    · exact .inl h
    · simp only
      split
      · exact .inl h
      · split
        · refine ingestTail_open now station slot _ cameOnline k ?_
          rw [Open, (ingestNew_quiet ..).rows]
          exact h
        · split
          · exact .inl (by rw [Open, (auditOnce_quiet ..).rows]; exact h)
          · refine ingestTail_open now station slot _ cameOnline k ?_
            rw [Open, (ingestKnown_quiet ..).rows]
            exact h

/-- Every transaction keeps what the journal does not account for. -/
theorem txn_keeps {op : Op} (h : db.step op = some db') (hop : isTransaction op = true) :
    Keeps db db' (deeds db op db') := by
  have hsame : db'.rows = db.rows → Keeps db db' (departures db db') := fun hrows =>
    .of_left fun k hk => .inl (by rw [Open, hrows]; exact hk)
  cases op with
  | ingestModule now station slot moduleId identity cameOnline =>
    cases h
    exact .of_left (ingestModule_open now station slot moduleId identity cameOnline)
  | reconcileStation => cases h; exact hsame (reconcileStation_quiet ..).rows
  | reconcileModule now uid => cases h; exact reconcileModule_keeps db now uid
  | check => cases hop
  | statusUpdate now station k status message => cases h; exact statusUpdate_keeps ..
  | commit now station k version => cases h; exact commit_keeps ..
  | releaseQuarantine now uid suffix =>
    cases h
    refine actionDeeds_keeps now uid _ (by simp) _ (fun hpick => ?_) fun k hpick => ?_
    · simp only [Db.releasePick] at hpick
      simp only [Db.releaseQuarantine, hpick]
    · simp only [Db.releasePick] at hpick
      simp only [Db.releaseQuarantine, hpick]
      rfl
  | retryFailed now uid suffix =>
    cases h
    refine actionDeeds_keeps now uid _ (by simp) _ (fun hpick => ?_) fun k hpick => ?_
    · simp only [Db.retryFailed, hpick]
    · simp only [Db.retryFailed, hpick]
      rfl
  | recordError => cases hop
  | setReleases releases =>
    simp only [Db.step] at h
    split at h
    · cases h
      exact hsame rfl
    · cases h
  | setTargets | setStations | setAssignments | setLocks | setModuleTypes | setLifecycle =>
    cases h
    exact hsame rfl

/-! ## audit entries of instructions -/

/-- The entries that report an instruction for row `k`. -/
def instructions (db : Db) (k : RowKey) : Nat :=
  db.auditLog.countP fun e => e.row = some k ∧ e.eventType = .moduleFlashInstructed

theorem instructions_eq (db : Db) (k : RowKey) :
    instructions db k = (db.trail k).count .moduleFlashInstructed := by
  simp only [instructions, Db.trail, List.count, List.countP_map, List.countP_filter]
  refine List.countP_congr fun e _ => ?_
  simp only [Function.comp_apply, Bool.and_eq_true, decide_eq_true_eq, beq_iff_eq]
  constructor
  · rintro ⟨hrow, hevent⟩
    exact ⟨hevent, hrow, by rw [hevent]; rfl⟩
  · exact fun h => ⟨h.2.1, h.1⟩

theorem settle_audits (uid : Uid) (desired : Release) (now : Time) (cs : ConvergenceState) :
    ∀ e ∈ (settle uid desired now cs).audits, e.1 ≠ .moduleFlashInstructed := by
  unfold settle
  split
  · simp
  · split
    · simp [giveUp]
    · simp

theorem keyFixed_audits (uid : Uid) (m : Module) (desired : Release) (now : Time)
    (cs : ConvergenceState) :
    ∀ e ∈ (keyFixed uid m desired now cs).2, e.1 ≠ .moduleFlashInstructed := by
  unfold keyFixed
  simp only
  split
  · split
    · simp
    · simp
  · split
    · simp
    · simp
  · simp

theorem decide_audits (uid : Uid) (m : Module) (desired : Release) (now : Time)
    (cs : ConvergenceState) :
    ∀ e ∈ (reconcilerDecide uid m desired now cs).audits, e.1 ≠ .moduleFlashInstructed := by
  unfold reconcilerDecide
  split
  · unfold reached
    simp only
    split
    · simp
    · simp
  · split
    · unfold keyMismatch
      split
      · simp
      · simp
    · intro e he
      rcases List.mem_append.mp he with he | he
      · exact keyFixed_audits uid m desired now cs e he
      · exact settle_audits uid desired now _ e he

theorem recordErrorOutcome_audits (uid : Uid) (m : Module) (rel : Release) (mode : ErrorMode)
    (message : String) (now : Time) (cs : ConvergenceState) :
    ∀ e ∈ (recordErrorOutcome uid m rel mode message now cs).audits,
      e.1 ≠ .moduleFlashInstructed := by
  unfold recordErrorOutcome
  simp only
  split
  · simp [giveUp]
  · split
    · simp only
      split
      · simp
      · simp
    · split
      · simp
      · simp

/-- Only the update of a check reports an instruction. -/
theorem trail_other {rop : RowOp} (h : rop.instructs = false) (cs : ConvergenceState) :
    ∀ e ∈ rop.trail cs, e ≠ .moduleFlashInstructed := by
  intro e he
  cases rop with
  | decide uid m desired now =>
    obtain ⟨x, hx, rfl⟩ := List.mem_map.mp (List.mem_filter.mp he).1
    exact decide_audits uid m desired now cs x hx
  | error uid m rel mode message now =>
    obtain ⟨x, hx, rfl⟩ := List.mem_map.mp (List.mem_filter.mp he).1
    exact recordErrorOutcome_audits uid m rel mode message now cs x hx
  | instruct => cases h
  | _ => cases he

/-- No transaction reports an instruction. -/
theorem txn_instructions {op : Op} (h : db.step op = some db') (hop : op.isCheck = false)
    (k : RowKey) : instructions db' k = instructions db k := by
  obtain ⟨us, hrun, htrail⟩ := (step_makes h).run k
  have hmade : ∀ u ∈ us, u.1.instructs = false := by
    generalize db.rows.get? k = o, db'.rows.get? k = o' at hrun
    clear htrail
    induction hrun with
    | refl => simp
    | update _ hok ih | create _ _ hok ih =>
      intro u hu
      rcases List.mem_append.mp hu with hu | hu
      · exact ih u hu
      · cases List.mem_singleton.mp hu
        exact Bool.eq_false_iff.mpr fun hrop => by
          simp [Op.isCheck_of_makes hok.2 hrop] at hop
  have hnone : us.trail.count .moduleFlashInstructed = 0 := by
    rw [List.count_eq_zero]
    intro hmem
    obtain ⟨u, hu, he⟩ := List.mem_flatMap.mp hmem
    exact trail_other (hmade u hu) u.2 _ he rfl
  rw [instructions_eq, instructions_eq, htrail, List.count_append, hnone, Nat.add_zero]

/-! ## every interleaving -/

/-- What has happened to row `k`, in order. -/
def rowDeeds (journal : Journal) (k : RowKey) : List Deed :=
  (journal.filter (·.1 = k)).map (·.2)

theorem rowDeeds_append (j ds : Journal) (k : RowKey) :
    rowDeeds (j ++ ds) k = rowDeeds j k ++ rowDeeds ds k := by
  simp [rowDeeds]

theorem mem_rowDeeds {j : Journal} {d : Deed} : d ∈ rowDeeds j k ↔ (k, d) ∈ j := by
  simp [rowDeeds]

/-- No two marks follow each other. -/
def Separated (ds : List Deed) : Prop :=
  ds.IsChain fun a b => ¬(a = .instructed ∧ b = .instructed)

/-- The marks of a row are apart, the last deed of a row is a mark only as long as its
instruction is open, and what is handed out was updating. -/
structure Sound (s : Shared) : Prop where
  separated : ∀ k, Separated (rowDeeds s.journal k)
  last : ∀ k, (rowDeeds s.journal k).getLast? = some .instructed → Open s.db k
  handed : ∀ e ∈ s.handed, e.2 = some .updating

theorem separated_of_other {ds : List Deed} (h : ∀ d ∈ ds, d ≠ .instructed) : Separated ds := by
  induction ds with
  | nil => exact .nil
  | cons d ds ih =>
    refine List.isChain_cons.mpr ⟨fun b _ hab => ?_, ih fun e he => h e (.tail _ he)⟩
    exact h d (.head _) hab.1

/-- Whatever keeps open instructions keeps the journal sound. -/
theorem Sound.grow (hs : Sound s) (h : Keeps s.db db' ds) :
    Sound { s with db := db', journal := s.journal ++ ds } := by
  have hother : ∀ k, ∀ d ∈ rowDeeds ds k, d ≠ .instructed := fun k d hd =>
    h.other (k, d) (mem_rowDeeds.mp hd)
  refine ⟨fun k => ?_, fun k hk => ?_, hs.handed⟩
  · rw [rowDeeds_append]
    refine List.isChain_append.mpr ⟨hs.separated k, separated_of_other (hother k), ?_⟩
    intro a _ b hb
    exact fun hab => hother k b (List.mem_of_mem_head? hb) hab.2
  · rw [rowDeeds_append, List.getLast?_append] at hk
    cases hlast : (rowDeeds ds k).getLast? with
    | some d =>
      rw [hlast, Option.some_or] at hk
      cases hk
      exact absurd rfl (hother k _ (List.mem_of_getLast? hlast))
    | none =>
      rw [hlast, Option.none_or] at hk
      rcases h.isOpen k (hs.last k hk) with hopen | ⟨d, hd⟩
      · exact hopen
      · rw [List.getLast?_eq_none_iff] at hlast
        have hmem := mem_rowDeeds.mpr hd
        rw [hlast] at hmem
        cases hmem

/-- A mark matches only a row without an open instruction, and opens it. -/
theorem Sound.mark (hs : Sound s) (hrow : s.db.rows.get? k = some cs) (hm : marksRow cs = true) :
    Sound { s with
      db := s.db.putRow k (instructRow now cs), journal := s.journal ++ [(k, .instructed)] } := by
  obtain ⟨hstate, hfree⟩ := of_decide_eq_true hm
  have hclosed : ¬Open s.db k := by
    rintro ⟨cs', hrow', -, hi, hp⟩
    rw [hrow] at hrow'
    cases hrow'
    exact hfree.elim hi fun h => h hp
  refine ⟨fun j => ?_, fun j hj => ?_, hs.handed⟩
  · rw [rowDeeds_append]
    by_cases hjk : k = j
    · subst hjk
      refine List.isChain_append.mpr ⟨hs.separated k, by simp [rowDeeds], ?_⟩
      intro a ha b _ hab
      exact hclosed (hs.last k (hab.1 ▸ ha))
    · simpa [rowDeeds, hjk] using hs.separated j
  · by_cases hjk : j = k
    · subst hjk
      refine ⟨instructRow now cs, ?_, hstate, by simp [instructRow], rfl⟩
      rw [Db.get?_putRow, if_pos rfl]
    · rw [rowDeeds_append, show rowDeeds [(k, .instructed)] j = [] by
        simp [rowDeeds, Ne.symm hjk], List.append_nil] at hj
      obtain ⟨cs', hrow', hcs'⟩ := hs.last j hj
      exact ⟨cs', by rw [Db.get?_putRow, if_neg hjk]; exact hrow', hcs'⟩

/-- Transactions in progress are transactions, and a mark has matched an updating row. -/
def Ready : Pc → Prop
  | .txn op => isTransaction op = true
  | .audit _ _ state => state = .updating
  | _ => True

/-- An audit entry of row `k` that a check still owes. -/
def pending (k : RowKey) : Pc → Nat
  | .audit _ i _ => if i.convergenceId = k then 1 else 0
  | _ => 0

/-- The marks of row `k`. -/
def marks (s : Shared) (k : RowKey) : Nat := (rowDeeds s.journal k).count .instructed

/-- One action: it keeps the journal sound, and each mark becomes an audit entry. -/
structure Acted (s : Shared) (p : Pc) (s' : Shared) (q : Option Pc) : Prop where
  sound : Sound s → Sound s'
  ready : ∀ p', q = some p' → Ready p'
  audited : ∀ k, instructions s'.db k + (q.map (pending k)).getD 0 + marks s k =
    instructions s.db k + pending k p + marks s' k

/-- A check that only moves on. -/
theorem Acted.stay (hp : ∀ k, pending k p = 0)
    (hq : ∀ p', q = some p' → Ready p' ∧ ∀ k, pending k p' = 0) : Acted s p s q where
  sound := id
  ready p' h := (hq p' h).1
  audited k := by
    cases q with
    | none => simp [hp]
    | some p' => simp [hp, (hq p' rfl).2]

/-- A transaction, or the reconcile of one module. -/
theorem Acted.grow (hkeeps : Keeps s.db db' ds)
    (hlog : ∀ k, instructions db' k = instructions s.db k)
    (hp : ∀ k, pending k p = 0) (hq : ∀ p', q = some p' → Ready p' ∧ ∀ k, pending k p' = 0) :
    Acted s p { s with db := db', journal := s.journal ++ ds } q where
  sound hs := hs.grow hkeeps
  ready p' h := (hq p' h).1
  audited k := by
    have hnone : (rowDeeds ds k).count .instructed = 0 :=
      List.count_eq_zero.mpr fun hmem => hkeeps.other _ (mem_rowDeeds.mp hmem) rfl
    have hq' : (q.map (pending k)).getD 0 = 0 := by
      cases q with
      | none => rfl
      | some p' => exact (hq p' rfl).2 k
    simp only [marks, rowDeeds_append, List.count_append, hnone, hlog k, hp k,
      hq', Nat.add_zero]

theorem act_acted {n : Nat} {s' : Shared} (h : act n s p now = some (s', q)) (hp : Ready p) :
    Acted s p s' q := by
  cases p with
  | txn op =>
    obtain ⟨db', hstep, he⟩ := Option.map_eq_some_iff.mp h
    cases he
    have hcheck : op.isCheck = false := by cases op <;> first | rfl | cases hp
    exact .grow (txn_keeps hstep hp) (txn_instructions hstep hcheck) (fun _ => rfl) (by simp)
  | gate station =>
    cases station with
    | none =>
      cases h
      exact .stay (fun _ => rfl) (by simp)
    | some pk =>
      simp only [act] at h
      split at h
      · cases h
        exact .stay (fun _ => rfl) (by simp)
      · split at h
        · cases h
          exact .stay (fun _ => rfl) (by simp)
        · cases h
          exact .stay (fun _ => rfl) (by simp [Ready, pending])
  | loop pk backends rest c =>
    cases rest with
    | nil =>
      cases h
      refine .stay (fun _ => rfl) fun p' hp' => ?_
      obtain ⟨i, -, rfl⟩ := Option.map_eq_some_iff.mp hp'
      exact ⟨trivial, fun _ => rfl⟩
    | cons a rest =>
      cases h
      have hstep : s.db.step (.reconcileModule now a.1) = some (s.db.reconcileModule now a.1).1 := rfl
      exact .grow (reconcileModule_keeps s.db now a.1) (txn_instructions hstep rfl)
        (fun _ => rfl) (by simp [Ready, pending])
  | mark pk i =>
    simp only [act] at h
    split at h
    · cases h
      exact .stay (fun _ => rfl) (by simp [Ready, pending])
    · next cs hrow =>
      split at h
      · next hm =>
        cases h
        refine ⟨fun hs => hs.mark hrow hm, fun p' hp' => ?_, fun k => ?_⟩
        · cases hp'
          exact (of_decide_eq_true hm).1
        · simp only [marks, rowDeeds_append, List.count_append, pending, Option.map_some,
            Option.getD_some]
          have hlog : instructions (s.db.putRow i.convergenceId (instructRow now cs)) k =
              instructions s.db k := rfl
          rw [hlog]
          by_cases hk : i.convergenceId = k
          · simp [rowDeeds, hk]
            omega
          · simp [rowDeeds, hk]
      · cases h
        exact .stay (fun _ => rfl) (by simp [Ready, pending])
  | audit pk i state =>
    cases h
    refine ⟨fun hs => ⟨hs.separated, hs.last, fun e he => ?_⟩, by simp, fun k => ?_⟩
    · rcases List.mem_append.mp he with he | he
      · exact hs.handed e he
      · cases List.mem_singleton.mp he
        exact congrArg some hp
    · have hlog : instructions (s.db.log [instructedEntry pk i]) k =
          instructions s.db k + pending k (.audit pk i state) := by
        simp only [instructions, Db.log, List.countP_append, pending]
        by_cases hk : i.convergenceId = k
        · simp [instructedEntry, hk]
        · simp [instructedEntry, hk]
      simp only [hlog]
      rfl
  | reread i =>
    cases h
    split
    · next hstate =>
      refine ⟨fun hs => ⟨hs.separated, hs.last, fun e he => ?_⟩, by simp, fun k => rfl⟩
      rcases List.mem_append.mp he with he | he
      · exact hs.handed e he
      · cases List.mem_singleton.mp he
        exact hstate
    · exact .stay (fun _ => rfl) (by simp)

/-- The assertions of the pool. -/
abbrev Going (c : Pool Shared Pc) : Prop := Pool.Holds Sound (fun _ p _ => Ready p) c

theorem start_ready {r : Request} (h : start s r = some p) : Ready p ∧ ∀ k, pending k p = 0 := by
  cases r with
  | check station =>
    cases h
    exact ⟨trivial, fun _ => rfl⟩
  | txn op =>
    simp only [start] at h
    split at h
    · next hop =>
      cases h
      exact ⟨hop, fun _ => rfl⟩
    · cases h

theorem step_going {c c' : Pool Shared Pc} {l : Sched Request Time} (hc : Going c)
    (h : step c l = some c') : Going c' :=
  Pool.invariant_step (fun _ _ => True)
    (fun _ _ _ _ _ _ hstart => (start_ready hstart).1)
    (fun _ i _ _ _ _ hc _ hp hact =>
      let hacted := act_acted hact (hc.2 i _ hp)
      ⟨hacted.sound hc.1, hacted.ready⟩)
    (fun _ _ _ _ _ _ j _ hc _ _ _ _ hq => hc.2 j _ hq) hc trivial h

/-- Every mark is in the audit log or still owed by the check that made it. -/
theorem step_audited {c c' : Pool Shared Pc} {l : Sched Request Time} (hc : Going c)
    (h : step c l = some c') (k : RowKey) :
    instructions c'.shared.db k + c'.total (pending k) + marks c.shared k =
      instructions c.shared.db k + c.total (pending k) + marks c'.shared k := by
  rcases Pool.total_of_step (pending k) h with
    ⟨r, p, hstart, hshared, htotal⟩ | ⟨i, e, p, q, hp, hact, htotal⟩
  · rw [hshared, htotal, (start_ready hstart).2 k, Nat.add_zero]
  · have hacted := (act_acted hact (hc.2 i p hp)).audited k
    omega

theorem idle_going (db : Db) : Going (idle db) :=
  ⟨⟨fun _ => .nil, by simp [idle, rowDeeds], by simp [idle]⟩, by simp [idle, Table.empty, Table.get?]⟩

/-- **One instruction per attempt.**  For any interleaving of checks, status reports,
commits, operator actions and reconciles, from any database:
between two marks of a row lies a status report, a commit, an operator action, or the
row's departure from `updating`;
each mark has, or its check still owes, one audit entry, and there are no others;
and a check hands out an instruction only for a row that was updating in the statement
that decided it: its UPDATE, or where that matched nothing, the SELECT after it. -/
theorem one_instruction_per_attempt (db : Db) {c : Pool Shared Pc}
    (h : Reachable step (fun _ _ => True) (idle db) c) :
    (∀ k, (rowDeeds c.shared.journal k).IsChain fun a b => ¬(a = .instructed ∧ b = .instructed)) ∧
      (∀ k, instructions c.shared.db k + c.total (pending k) =
        instructions db k + (rowDeeds c.shared.journal k).count .instructed) ∧
      ∀ e ∈ c.shared.handed, e.2 = some .updating := by
  have hinv := h.invariant
    (P := fun c => Going c ∧ ∀ k, instructions c.shared.db k + c.total (pending k) =
      instructions db k + marks c.shared k)
    ⟨idle_going db, fun _ => rfl⟩
    fun c _ c' hc _ hstep => ⟨step_going hc.1 hstep, fun k => by
      have hone := step_audited hc.1 hstep k
      have hall := hc.2 k
      omega⟩
  exact ⟨hinv.1.1.separated, hinv.2, hinv.1.1.handed⟩

namespace Sample

/-- The fleet before its first reconcile. -/
def start : Db := Firmware.Sample.fleet Firmware.Sample.module Table.empty

/-- The check of station 1, up to `n` statements. -/
def check (i : Nat) (now : Time) (n : Nat) : List (Sched Request Time) :=
  .spawn i (.check (some 1)) :: List.replicate n (.advance i now)

def transaction (i : Nat) (op : Op) : List (Sched Request Time) :=
  [.spawn i (.txn op), .advance i 0]

def report (now : Time) (status : StatusReport) : Op :=
  .statusUpdate now (some 1) Firmware.Sample.key status ""

/-- A check, a failed flash, and the next check: one instruction for each attempt. -/
def attempts : List (Sched Request Time) :=
  check 0 1 5 ++ transaction 1 (report 2 (.error .failed)) ++ check 2 3 5

/-- A check, a commit of another version, and the next check. -/
def mismatch : List (Sched Request Time) :=
  check 0 1 5 ++ transaction 1 (.commit 2 (some 1) Firmware.Sample.key "1.5.0") ++ check 2 3 5

/-- Before the UPDATE of a check the row gives up; before its SELECT an operator retries. -/
def retryBetween : List (Sched Request Time) :=
  check 0 1 3 ++ (List.replicate 5 (transaction 1 (report 2 (.error .failed)))).flatten ++
    [.advance 0 3] ++ transaction 1 (.retryFailed 4 "m" "") ++ [.advance 0 5]

/-- The two checks of `attempts` before they write their audit entries. -/
def unaudited : List (Sched Request Time) :=
  check 0 1 4 ++ transaction 1 (report 2 (.error .failed)) ++ check 2 3 4

/-- They write them one after the other. -/
def lateEntries : List (Sched Request Time) := [.advance 0 4, .advance 2 4]

end Sample

/-- Two attempts: the failed report lies between their marks, and both entries are written. -/
theorem one_instruction_per_attempt_retry : ∃ c : Pool Shared Pc,
      rowDeeds c.shared.journal Firmware.Sample.key = [.instructed, .terminal, .instructed] ∧
      instructions c.shared.db Firmware.Sample.key + c.total (pending Firmware.Sample.key) = 2 ∧
      c.shared.handed = [(Firmware.Sample.key, some .updating),
        (Firmware.Sample.key, some .updating)] := by
  obtain ⟨c, hreach, hdeeds, hhanded⟩ := exists_reachable step (idle Sample.start) Sample.attempts
    (P := fun c =>
      rowDeeds c.shared.journal Firmware.Sample.key = [.instructed, .terminal, .instructed] ∧
      c.shared.handed = [(Firmware.Sample.key, some .updating),
        (Firmware.Sample.key, some .updating)]) (by decide +kernel)
  obtain ⟨-, haudited, -⟩ := one_instruction_per_attempt Sample.start hreach
  refine ⟨c, hdeeds, ?_, hhanded⟩
  rw [haudited, hdeeds]
  decide

/-- A commit of another version clears the mark and leaves the row updating: between its
two INSTRUCTED entries there is none of the named events.  A check whose UPDATE has
matched nothing, since the row had failed, hands out its instruction all the same if an
operator retries the row before the check reads it again.  And two entries can follow each
other with nothing between them, where a report lies between the marks: checks write their
entries late. -/
theorem instructed_again_after_mismatch :
    (∃ c : Pool Shared Pc, Reachable step (fun _ _ => True) (idle Sample.start) c ∧
      rowDeeds c.shared.journal Firmware.Sample.key = [.instructed, .mismatched, .instructed] ∧
      instructions c.shared.db Firmware.Sample.key = 2) ∧
    (∃ c : Pool Shared Pc, Reachable step (fun _ _ => True) (idle Sample.start) c ∧
      .instructed ∉ rowDeeds c.shared.journal Firmware.Sample.key ∧
      c.shared.handed = [(Firmware.Sample.key, some .updating)]) ∧
    ∃ c : Pool Shared Pc, Reachable step (fun _ _ => True) (idle Sample.start) c ∧
      rowDeeds c.shared.journal Firmware.Sample.key = [.instructed, .terminal, .instructed] ∧
      instructions c.shared.db Firmware.Sample.key = 0 ∧
      ((run step c Sample.lateEntries).any fun c' =>
        c'.shared.journal = c.shared.journal ∧
          instructions c'.shared.db Firmware.Sample.key = 2) = true := by
  refine ⟨?_, ?_, ?_⟩
  · exact exists_reachable step (idle Sample.start) Sample.mismatch (by decide +kernel)
  · exact exists_reachable step (idle Sample.start) Sample.retryBetween (by decide +kernel)
  · exact exists_reachable step (idle Sample.start) Sample.unaudited (by decide +kernel)

end Concurrent
end StationManager.Firmware
