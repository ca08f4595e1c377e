import StationManager.Firmware.History

/-!
# StationManager.Firmware.Tracking

Where a module is and what that says about its lifecycle, over any sequence of
reports (`ingest_module`), lost modules (`reconcile_station`) and operator
decisions (`set_lifecycle`).

The history refuses a second open row for a module or a place, and no
operation ever asks for one.  A module whose lifecycle is not an operator's
decision is deployed exactly while it has an open row (`LifecycleOk`):
whatever opens or closes a row derives the lifecycle of the module concerned
afterwards, and an operator can put a module back to `ready` only without an
open row.  Ingestion never changes an operator's decision (`KeepsSticky`).
-/

namespace StationManager.Firmware

/-! ## the lifecycle of one module -/

/-- A module with a derived lifecycle is deployed exactly while it is
assigned. -/
def LifecycleOk (db : Db) (uid : Uid) : Prop :=
  ∀ m, db.modules.get? uid = some m → m.lifecycleStatus.isSticky = false →
    (m.lifecycleStatus = .deployed ↔ (db.assignments.get? uid).isSome = true)

/-- Operator-set lifecycles are the same in both databases. -/
structure KeepsSticky (db db' : Db) : Prop where
  keep : ∀ uid m, db.modules.get? uid = some m → m.lifecycleStatus.isSticky = true →
    ∃ m', db'.modules.get? uid = some m' ∧ m'.lifecycleStatus = m.lifecycleStatus

theorem KeepsSticky.refl (db : Db) : KeepsSticky db db := ⟨fun _ m h _ => ⟨m, h, rfl⟩⟩

theorem KeepsSticky.trans {a b c : Db} (h : KeepsSticky a b) (h' : KeepsSticky b c) :
    KeepsSticky a c := by
  constructor
  intro uid m hm hsticky
  obtain ⟨m₁, hm₁, hl₁⟩ := h.keep uid m hm hsticky
  obtain ⟨m₂, hm₂, hl₂⟩ := h'.keep uid m₁ hm₁ (by rw [hl₁]; exact hsticky)
  exact ⟨m₂, hm₂, hl₂.trans hl₁⟩

/-- The lifecycle and the assignment of a module are the same in both
databases. -/
structure SameTrack (db db' : Db) (uid : Uid) : Prop where
  lifecycle : (db'.modules.get? uid).map (·.lifecycleStatus) =
    (db.modules.get? uid).map (·.lifecycleStatus)
  assignment : db'.assignments.get? uid = db.assignments.get? uid

theorem SameTrack.refl (db : Db) (uid : Uid) : SameTrack db db uid := ⟨rfl, rfl⟩

theorem SameTrack.trans {a b c : Db} {uid : Uid} (h : SameTrack a b uid) (h' : SameTrack b c uid) :
    SameTrack a c uid :=
  ⟨h'.lifecycle.trans h.lifecycle, h'.assignment.trans h.assignment⟩

theorem SameTrack.ok {db db' : Db} {uid : Uid} (h : SameTrack db db' uid)
    (hok : LifecycleOk db uid) : LifecycleOk db' uid := by
  intro m' hm' hsticky
  have hl := h.lifecycle
  rw [hm', Option.map_some] at hl
  obtain ⟨m, hm, heq⟩ := Option.map_eq_some_iff.mp hl.symm
  rw [h.assignment, ← heq]
  exact hok m hm (by rw [heq]; exact hsticky)

theorem SameTrack.get? {db db' : Db} {uid : Uid} {m : Module} (h : SameTrack db db' uid)
    (hm : db.modules.get? uid = some m) :
    ∃ m', db'.modules.get? uid = some m' ∧ m'.lifecycleStatus = m.lifecycleStatus := by
  have hl := h.lifecycle
  rw [hm, Option.map_some] at hl
  exact Option.map_eq_some_iff.mp hl

theorem KeepsSticky.of_same {db db' : Db} (h : ∀ uid, SameTrack db db' uid) :
    KeepsSticky db db' := ⟨fun uid _ hm _ => (h uid).get? hm⟩

/-! ## the pieces of the operations -/

section Pieces

variable (db : Db) (now : Time) (station : Pk) (slot : String) (uid v : Uid)

theorem auditModule_track (st : Option Pk) (event : EventType) (message : String) :
    SameTrack db (db.auditModule st uid event message) v := ⟨rfl, rfl⟩

theorem auditOnce_track (message : String) : SameTrack db (db.auditOnce station uid message) v := by
  unfold Db.auditOnce
  split
  · exact .refl db v
  · exact auditModule_track ..

/-- Rewriting a module row without its lifecycle. -/
theorem setModule_track (f : Module → Module)
    (hf : ∀ m, (f m).lifecycleStatus = m.lifecycleStatus) :
    SameTrack db (db.setModule uid f) v := by
  refine ⟨?_, rfl⟩
  rw [Db.setModule_modules, Table.get?_modify]
  split
  · rw [Option.map_map]
    congr 1
    funext m
    exact hf m
  · rfl

theorem ingestVariant_track (m : Module) (variant : String) :
    SameTrack db (db.ingestVariant station uid m variant) v := by
  unfold Db.ingestVariant
  split
  · exact .refl db v
  · split
    · exact setModule_track db uid v _ fun _ => rfl
    · split
      · exact auditOnce_track ..
      · exact .refl db v

theorem ingestKnown_track (m : Module) (identity : Identity) :
    SameTrack db (db.ingestKnown now station uid m identity) v := by
  have hrow := (ingestVariant_track db station uid v m (identity.variant.getD "")).trans
    (setModule_track _ uid v (fun m =>
      { m with
        lastSeen := some now
        lastReportedVersion := identity.version
        reportedBootKey := normalizeBootKey identity.bootKey }) fun _ => rfl)
  unfold Db.ingestKnown
  simp only
  split
  · exact hrow.trans (auditModule_track ..)
  · exact hrow

/-- A report changes the lifecycle of no module but a new one. -/
theorem accept_track (moduleId : Option String) (identity : Identity)
    (hv : (db.accept now station slot moduleId identity).2 = some v → db.modules.get? v ≠ none) :
    SameTrack db (db.accept now station slot moduleId identity).1 v := by
  simp only [Db.accept] at hv ⊢
  cases huid : identity.uid with
  | none => exact .refl db v
  | some uid =>
    simp only [huid] at hv ⊢
    split
    · exact .refl db v
    · next hblank =>
      rw [if_neg hblank] at hv
      split
      · exact .refl db v
      · next moduleType htype =>
        simp only [htype] at hv
        split
        · next hmodule =>
          simp only [hmodule] at hv
          have hne : v ≠ uid := by
            rintro rfl
            exact hv rfl hmodule
          refine ⟨?_, rfl⟩
          simp only [Db.ingestNew, Db.auditModule, Db.log, Table.get?_insert, if_neg hne]
        · split
          · exact auditOnce_track ..
          · exact ingestKnown_track ..

theorem accept_keepsSticky (moduleId : Option String) (identity : Identity) :
    KeepsSticky db (db.accept now station slot moduleId identity).1 := by
  constructor
  intro w m hm _
  exact (accept_track db now station slot w moduleId identity fun _ => by simp [hm]).get? hm

/-- Deriving the lifecycle of one module leaves the others alone. -/
theorem deriveLifecycle_track (hne : v ≠ uid) : SameTrack db (db.deriveLifecycle station uid) v := by
  unfold Db.deriveLifecycle
  split
  · exact .refl db v
  · split
    · exact .refl db v
    · simp only
      split
      · exact .refl db v
      · refine ⟨?_, rfl⟩
        simp only [Db.auditModule, Db.log, Db.setModule_modules, Table.get?_modify, if_neg hne]

/-- A derived lifecycle fits the assignment. -/
theorem deriveLifecycle_ok : LifecycleOk (db.deriveLifecycle station uid) uid := by
  intro m hm hsticky
  rw [Db.deriveLifecycle_assignments]
  unfold Db.deriveLifecycle at hm
  cases hmod : db.modules.get? uid with
  | none =>
    simp only [hmod] at hm
    cases hm
  | some old =>
    simp only [hmod] at hm
    cases hs : old.lifecycleStatus.isSticky with
    | true =>
      rw [if_pos hs] at hm
      rw [hmod] at hm
      cases hm
      rw [hs] at hsticky
      cases hsticky
    | false =>
      rw [if_neg (by rw [hs]; decide)] at hm
      have hl : m.lifecycleStatus = db.assignedLifecycle uid := by
        split at hm
        · next heq =>
          rw [hmod] at hm
          cases hm
          exact heq
        · simp only [Db.auditModule, Db.log, Db.setModule_modules, Table.get?_modify_self,
            hmod, Option.map_some] at hm
          cases hm
          rfl
      rw [hl, Db.assignedLifecycle]
      split
      · next h => simp [h]
      · next h => simp [h]

theorem deriveLifecycle_keepsSticky : KeepsSticky db (db.deriveLifecycle station uid) := by
  constructor
  intro w m hm hsticky
  by_cases hw : w = uid
  · subst hw
    refine ⟨m, ?_, rfl⟩
    simp only [Db.deriveLifecycle, hm, if_pos hsticky]
  · exact (deriveLifecycle_track db station uid w hw).get? hm

/-- The audit entries of a move leave every module alone but the displaced one,
whose lifecycle fits afterwards. -/
theorem announceMove_track (displaced : Option Uid) (relocated : Bool) (hv : displaced ≠ some v) :
    SameTrack db (db.announceMove station slot uid displaced relocated) v := by
  cases displaced with
  | none => cases relocated <;> exact ⟨rfl, rfl⟩
  | some d =>
    have hne : v ≠ d := fun h => hv (by rw [h])
    exact (auditModule_track db uid v ..).trans
      ((deriveLifecycle_track _ station d v hne).trans (auditModule_track ..))

theorem announceMove_ok {d : Uid} (relocated : Bool) :
    LifecycleOk (db.announceMove station slot uid (some d) relocated) d :=
  (auditModule_track _ uid d ..).ok (deriveLifecycle_ok _ station d)

theorem announceMove_keepsSticky (displaced : Option Uid) (relocated : Bool) :
    KeepsSticky db (db.announceMove station slot uid displaced relocated) := by
  have haudit : ∀ (db : Db) (event : EventType) (message : String),
      KeepsSticky db (db.auditModule (some station) uid event message) :=
    fun db event message => .of_same fun w => auditModule_track ..
  cases displaced with
  | none => cases relocated <;> exact .of_same fun _ => ⟨rfl, rfl⟩
  | some d =>
    exact (haudit db ..).trans ((deriveLifecycle_keepsSticky _ station d).trans (haudit _ ..))

/-- What follows the assignment leaves the other modules alone. -/
theorem reconcile_track (cameOnline : Bool) :
    SameTrack (db.deriveLifecycle station uid) (db.settle now station uid cameOnline) v := by
  have hclear : SameTrack (db.deriveLifecycle station uid)
      (if cameOnline then (db.deriveLifecycle station uid).clearDfuStuck uid
        else db.deriveLifecycle station uid) v := by
    cases cameOnline <;> exact ⟨rfl, rfl⟩
  refine hclear.trans ?_
  have hframe := reconcileModule_frame (if cameOnline then
    (db.deriveLifecycle station uid).clearDfuStuck uid else db.deriveLifecycle station uid) now uid
  refine ⟨?_, by simp only [Db.settle]; rw [hframe.assignments]⟩
  have hcore := congrArg (Option.map (·.lifecycleStatus)) (hframe.core v)
  simp only [Option.map_map] at hcore
  exact hcore

end Pieces

/-! ## whole operations -/

section Operations

variable {db : Db}

/-- Every module's lifecycle fits its assignment. -/
def Tracked (db : Db) : Prop := ∀ uid, LifecycleOk db uid

theorem get?_vacated (t : Table Uid Assignment) (uid v : Uid) (displaced : Option Uid)
    (a : Assignment) : ((vacated t uid displaced).insert uid a).get? v =
      if v = uid then some (((vacated t uid displaced).get? uid).getD a)
      else if displaced = some v then none else t.get? v := by
  rw [Table.get?_insert]
  split
  · rfl
  · next hv =>
    cases displaced with
    | none => simp [vacated, Table.get?_erase, hv]
    | some d =>
      simp only [vacated, Table.get?_erase, Option.some.injEq]
      by_cases hd : v = d
      · simp [hd]
      · have hd' : d ≠ v := fun h => hd h.symm
        simp [hd, hd', hv]

/-- An assignment keeps the lifecycles of all modules but its own, which is
derived next. -/
theorem applyAssignment_ok (station : Pk) (slot : String) (uid : Uid) {v : Uid} (hv : v ≠ uid)
    (hok : LifecycleOk db v) : LifecycleOk (db.applyAssignment station slot uid) v := by
  rw [Db.applyAssignment_eq]
  split
  · exact hok
  · by_cases hd : db.occupant station slot uid = some v
    · rw [hd]
      exact announceMove_ok _ station slot uid _
    · have hmoved : SameTrack db { db with
          assignments := (vacated db.assignments uid (db.occupant station slot uid)).insert uid
            ⟨some station, slot⟩ } v := by
        refine ⟨rfl, ?_⟩
        rw [get?_vacated, if_neg hv, if_neg hd]
      exact (hmoved.trans (announceMove_track _ station slot uid v _ _ hd)).ok hok

theorem applyAssignment_keepsSticky (station : Pk) (slot : String) (uid : Uid) :
    KeepsSticky db (db.applyAssignment station slot uid) := by
  rw [Db.applyAssignment_eq]
  split
  · exact .refl db
  · have hmoved : KeepsSticky db { db with
        assignments := (vacated db.assignments uid (db.occupant station slot uid)).insert uid
          ⟨some station, slot⟩ } := ⟨fun _ m h _ => ⟨m, h, rfl⟩⟩
    exact hmoved.trans (announceMove_keepsSticky _ station slot uid _ _)

theorem ingestModule_tracked (hdb : Tracked db) (now : Time) (station : Pk) (slot : String)
    (moduleId : Option String) (identity : Identity) (cameOnline : Bool) :
    Tracked (db.ingestModule now station slot moduleId identity cameOnline).1 := by
  intro v
  rw [Db.ingestModule_eq]
  have htrack := accept_track db now station slot v moduleId identity
  cases hacc : (db.accept now station slot moduleId identity).2 with
  | none =>
    rw [hacc] at htrack
    exact (htrack (by simp)).ok (hdb v)
  | some uid =>
    rw [hacc] at htrack
    simp only [Db.ingestTail_eq]
    refine (reconcile_track _ now station uid v cameOnline).ok ?_
    by_cases hv : v = uid
    · rw [hv]
      exact deriveLifecycle_ok _ _ _
    · have haccept := (htrack fun h => absurd (Option.some.inj h).symm hv).ok (hdb v)
      exact (deriveLifecycle_track _ station uid v hv).ok
        (applyAssignment_ok station slot uid hv haccept)

theorem ingestModule_keepsSticky (now : Time) (station : Pk) (slot : String)
    (moduleId : Option String) (identity : Identity) (cameOnline : Bool) :
    KeepsSticky db (db.ingestModule now station slot moduleId identity cameOnline).1 := by
  rw [Db.ingestModule_eq]
  have haccept := accept_keepsSticky db now station slot moduleId identity
  cases (db.accept now station slot moduleId identity).2 with
  | none => exact haccept
  | some uid =>
    simp only [Db.ingestTail_eq]
    exact ((haccept.trans (applyAssignment_keepsSticky station slot uid)).trans
      (deriveLifecycle_keepsSticky _ station uid)).trans
      (.of_same fun w => reconcile_track _ now station uid w cameOnline)

/-- Closing the row of a lost module. -/
theorem closeAssignment_tracked (hdb : Tracked db) (station : Pk) (a : Uid × Assignment) :
    Tracked (Db.closeAssignment station db a) := by
  intro v
  rw [Db.closeAssignment_eq, Db.announceLoss]
  by_cases hv : v = a.1
  · rw [hv]
    exact deriveLifecycle_ok _ _ _
  · have hclosed : SameTrack db { db with assignments := db.assignments.erase a.1 } v :=
      ⟨rfl, by rw [Table.get?_erase, if_neg hv]⟩
    exact ((hclosed.trans (auditModule_track _ a.1 v ..)).trans
      (deriveLifecycle_track _ station a.1 v hv)).ok (hdb v)

theorem closeAssignment_keepsSticky (station : Pk) (a : Uid × Assignment) :
    KeepsSticky db (Db.closeAssignment station db a) := by
  rw [Db.closeAssignment_eq, Db.announceLoss]
  have hclosed : KeepsSticky db { db with assignments := db.assignments.erase a.1 } :=
    ⟨fun _ m h _ => ⟨m, h, rfl⟩⟩
  exact (hclosed.trans (.of_same fun w => auditModule_track _ a.1 w ..)).trans
    (deriveLifecycle_keepsSticky _ station a.1)

theorem reconcileStation_tracked (hdb : Tracked db) (station : Pk) (trackedSlots : List String)
    (reported : List (String × Uid)) : Tracked (db.reconcileStation station trackedSlots reported) ∧
      KeepsSticky db (db.reconcileStation station trackedSlots reported) := by
  simp only [Db.reconcileStation]
  generalize db.assignments.entries.filter _ = stale
  induction stale generalizing db with
  | nil => exact ⟨hdb, .refl db⟩
  | cons a stale ih =>
    obtain ⟨htracked, hsticky⟩ := ih (closeAssignment_tracked hdb station a)
    exact ⟨htracked, (closeAssignment_keepsSticky station a).trans hsticky⟩

/-- What an accepted operator decision does: nothing, or it gives the module a
lifecycle other than `deployed`, and `ready` only to an unassigned one. -/
theorem setLifecycle_cases {s s' : Store} {uid : Uid} {status auditSuffix : String}
    (h : s.setLifecycle uid status auditSuffix = .ok s') :
    s' = s ∨ ∃ target message, target ≠ Lifecycle.deployed ∧
      (target = .ready → s.db.assignments.get? uid = none) ∧ s'.history = s.history ∧
      s'.db = (s.db.setModule uid fun m => { m with lifecycleStatus := target }).auditModule none
        uid .moduleLifecycleChanged message := by
  unfold Store.setLifecycle at h
  cases ht : Lifecycle.ofOperator? status with
  | none =>
    rw [ht] at h
    cases h
  | some target =>
    have hnot : target ≠ .deployed := by simpa using (Option.filter_eq_some_iff.mp ht).2
    simp only [ht] at h
    split at h
    · cases h
    · split at h
      · cases h
      · next hready =>
        split at h
        · cases h
          exact .inl rfl
        · cases h
          refine .inr ⟨target, _, hnot, fun htarget => ?_, rfl, rfl⟩
          rw [s.get?_assignments]
          simpa [htarget] using hready

theorem setLifecycle_tracked {s s' : Store} {uid : Uid} {status auditSuffix : String}
    (hs : Tracked s.db) (h : s.setLifecycle uid status auditSuffix = .ok s') : Tracked s'.db := by
  rcases setLifecycle_cases h with rfl | ⟨target, message, hnot, hready, _, hdb⟩
  · exact hs
  · rw [hdb]
    intro v
    refine (auditModule_track _ uid v ..).ok ?_
    by_cases hv : v = uid
    · subst hv
      intro m hm hsticky
      have hl : m.lifecycleStatus = target := by
        rw [Db.setModule_modules, Table.get?_modify_self] at hm
        obtain ⟨_, _, rfl⟩ := Option.map_eq_some_iff.mp hm
        rfl
      have htarget : target = .ready := by
        rw [hl] at hsticky
        cases target <;> first | rfl | exact absurd rfl hnot | cases hsticky
      have hnone : (s.db.setModule v fun m => { m with lifecycleStatus := target }).assignments.get? v
          = none := hready htarget
      rw [hnone, hl, htarget]
      simp
    · have hother : SameTrack s.db
          (s.db.setModule uid fun m => { m with lifecycleStatus := target }) v :=
        ⟨by rw [Db.setModule_modules, Table.get?_modify, if_neg hv], rfl⟩
      exact hother.ok (hs v)

end Operations

/-! ## runs -/

/-- The operations that move modules or decide about them. -/
inductive TrackOp
  | ingestModule (now : Time) (station : Pk) (slot : String) (moduleId : Option String)
      (identity : Identity) (user : Option Pk) (cameOnline : Bool)
  | reconcileStation (now : Time) (station : Pk) (trackedSlots : List String)
      (reportedUidBySlot : List (String × Uid))
  | setLifecycle (uid : Uid) (status auditSuffix : String)

/-- What an operation raises. -/
inductive TrackError
  | integrity (e : IntegrityError)
  | lifecycle (e : LifecycleError)
deriving DecidableEq, Repr

namespace Store

/-- One operation. -/
def exec (s : Store) : TrackOp → Except TrackError Store
  | .ingestModule now station slot moduleId identity user cameOnline =>
    ((s.ingestModule now station slot moduleId identity user cameOnline).mapError .integrity).map
      Prod.fst
  | .reconcileStation now station trackedSlots reportedUidBySlot =>
    (s.reconcileStation now station trackedSlots reportedUidBySlot).mapError .integrity
  | .setLifecycle uid status auditSuffix =>
    (s.setLifecycle uid status auditSuffix).mapError .lifecycle

/-- One operation as a transaction: what raises is rolled back. -/
def step (s : Store) (op : TrackOp) : Store := match s.exec op with
  | .ok s' => s'
  | .error _ => s

/-- A sequence of operations. -/
def execAll (s : Store) (ops : List TrackOp) : Store := ops.foldl step s

/-- An operation never trips a constraint, and keeps the lifecycles. -/
theorem exec_ok (s : Store) (hs : Tracked s.db) (op : TrackOp) :
    (∃ s', s.exec op = .ok s' ∧ Tracked s'.db) ∨ ∃ e, s.exec op = .error (.lifecycle e) := by
  cases op with
  | ingestModule now station slot moduleId identity user cameOnline =>
    obtain ⟨s', accepted, hrun, _, hdb⟩ :=
      s.ingestModule_ok now station slot moduleId identity user cameOnline
    refine .inl ⟨s', by simp only [exec, hrun]; rfl, ?_⟩
    have hsame : s'.db = (s.db.ingestModule now station slot moduleId identity cameOnline).1 :=
      congrArg Prod.fst hdb
    rw [hsame]
    exact ingestModule_tracked hs now station slot moduleId identity cameOnline
  | reconcileStation now station trackedSlots reported =>
    obtain ⟨s', hrun, hdb⟩ := s.reconcileStation_ok now station trackedSlots reported
    refine .inl ⟨s', by simp only [exec, hrun]; rfl, ?_⟩
    rw [hdb]
    exact (reconcileStation_tracked hs ..).1
  | setLifecycle uid status auditSuffix =>
    cases hrun : s.setLifecycle uid status auditSuffix with
    | error e => exact .inr ⟨e, by simp only [exec, hrun]; rfl⟩
    | ok s' => exact .inl ⟨s', by simp only [exec, hrun]; rfl, setLifecycle_tracked hs hrun⟩

theorem execAll_tracked (s : Store) (hs : Tracked s.db) (ops : List TrackOp) :
    Tracked (s.execAll ops).db := by
  induction ops generalizing s with
  | nil => exact hs
  | cons op ops ih =>
    refine ih (s.step op) ?_
    unfold step
    rcases s.exec_ok hs op with ⟨s', hrun, hs'⟩ | ⟨e, hrun⟩
    · rw [hrun]
      exact hs'
    · rw [hrun]
      exact hs

/-- After an accepted report the module has one open row, at the reported
place. -/
theorem ingestModule_placed {s s' : Store} {now : Time} {station : Pk} {slot : String}
    {moduleId : Option String} {identity : Identity} {user : Option Pk} {cameOnline : Bool}
    {uid : Uid} (h : s.ingestModule now station slot moduleId identity user cameOnline =
      .ok (s', some uid)) : s'.db.assignments.get? uid = some ⟨some station, slot⟩ := by
  obtain ⟨s₁, accepted, hrun, hacc, hdb⟩ :=
    s.ingestModule_ok now station slot moduleId identity user cameOnline
  rw [h] at hrun
  cases hrun
  have hsame : s'.db = (s.db.ingestModule now station slot moduleId identity cameOnline).1 :=
    congrArg Prod.fst hdb
  rw [hsame, Db.ingestModule_eq, ← hacc]
  simp only [Db.ingestTail_eq, Db.settle_assignments, Db.applyAssignment_eq]
  split
  · next hcurrent => exact hcurrent
  · simp only [Db.announceMove_assignments, get?_vacated, if_pos]
    have hgone : (vacated (Db.accept s.db now station slot moduleId identity).1.assignments uid
        ((Db.accept s.db now station slot moduleId identity).1.occupant station slot uid)).get? uid =
        none := by
      unfold vacated
      split <;> simp [Table.get?_erase]
    rw [hgone]
    rfl

end Store

/-- The open rows of a module. -/
def History.openOf (h : History) (uid : Uid) : List (Pk × HistoryRow) :=
  (openRows h.rows).filter fun e => e.2.module = uid

/-- The open rows of a place. -/
def History.openAt (h : History) (station : Pk) (slot : String) : List (Pk × HistoryRow) :=
  (openRows h.rows).filter fun e => e.2.station = some station ∧ e.2.slot = slot

theorem length_le_one_of_eq {l : List α} (hnodup : l.Nodup) (h : ∀ a ∈ l, ∀ b ∈ l, a = b) :
    l.length ≤ 1 := by
  match l with
  | [] => exact Nat.zero_le 1
  | [_] => exact Nat.le_refl 1
  | a :: b :: l =>
    have heq := h a List.mem_cons_self b (List.mem_cons_of_mem _ List.mem_cons_self)
    exact absurd (heq ▸ List.mem_cons_self) (List.nodup_cons.mp hnodup).1

theorem openRows_nodup (h : History) : (openRows h.rows).Nodup :=
  (List.Nodup.of_map _ h.rows.nodup).sublist List.filter_sublist

theorem History.openOf_length (h : History) (uid : Uid) : (h.openOf uid).length ≤ 1 := by
  refine length_le_one_of_eq ((openRows_nodup h).sublist List.filter_sublist) ?_
  intro e he f hf
  obtain ⟨heo, hem⟩ := List.mem_filter.mp he
  obtain ⟨hfo, hfm⟩ := List.mem_filter.mp hf
  refine h.eq_of_module heo hfo ?_
  rw [of_decide_eq_true hem, of_decide_eq_true hfm]

theorem History.openAt_length (h : History) (station : Pk) (slot : String) :
    (h.openAt station slot).length ≤ 1 := by
  refine length_le_one_of_eq ((openRows_nodup h).sublist List.filter_sublist) ?_
  have hplace : ∀ e ∈ h.openAt station slot,
      e ∈ openRows h.rows ∧ e.2.place = some (station, slot) := by
    intro e he
    obtain ⟨heo, hep⟩ := List.mem_filter.mp he
    simp only [decide_eq_true_eq] at hep
    exact ⟨heo, by simp [HistoryRow.place, hep.1, hep.2]⟩
  intro e he f hf
  exact h.eq_of_place (hplace e he).1 (hplace f hf).1 (hplace e he).2 (hplace f hf).2

/-- A module is assigned exactly if it has an open row. -/
theorem Store.isSome_assignment (s : Store) (uid : Uid) :
    (s.db.assignments.get? uid).isSome = true ↔ s.history.openOf uid ≠ [] := by
  rw [s.get?_assignments, Option.isSome_map, History.current, List.find?_isSome]
  simp only [History.openOf, ne_eq, List.filter_eq_nil_iff, not_forall]
  constructor
  · rintro ⟨e, he, hm⟩
    exact ⟨e, he, by simpa using hm⟩
  · rintro ⟨e, he, hm⟩
    exact ⟨e, he, by simpa using hm⟩

/-- **Assignments and lifecycles are tracked.**  After any sequence of reports,
lost modules and operator decisions: the next operation trips no constraint at
any of its writes; a module has at most one open row and so has a place; a
lifecycle that is not an operator's is `deployed` exactly with an open row; an
accepted report leaves its module with one open row, at the reported place; and
ingestion keeps the lifecycles an operator has set. -/
theorem assignments_tracked (s₀ : Store) (h₀ : Tracked s₀.db) (ops : List TrackOp) :
    (∀ op e, (s₀.execAll ops).exec op ≠ .error (.integrity e)) ∧
    (∀ uid, ((s₀.execAll ops).history.openOf uid).length ≤ 1) ∧
    (∀ station slot, ((s₀.execAll ops).history.openAt station slot).length ≤ 1) ∧
    (∀ uid m, (s₀.execAll ops).db.modules.get? uid = some m → m.lifecycleStatus.isSticky = false →
      (m.lifecycleStatus = .deployed ↔ (s₀.execAll ops).history.openOf uid ≠ [])) ∧
    (∀ now station slot moduleId identity user cameOnline s' uid,
      (s₀.execAll ops).ingestModule now station slot moduleId identity user cameOnline =
        .ok (s', some uid) →
      ∃ e, s'.history.openOf uid = [e] ∧ e.2.station = some station ∧ e.2.slot = slot) ∧
    (∀ now station slot moduleId identity user cameOnline s' accepted,
      (s₀.execAll ops).ingestModule now station slot moduleId identity user cameOnline =
        .ok (s', accepted) → KeepsSticky (s₀.execAll ops).db s'.db) ∧
    ∀ now station trackedSlots reported s',
      (s₀.execAll ops).reconcileStation now station trackedSlots reported = .ok s' →
        KeepsSticky (s₀.execAll ops).db s'.db := by
  have htracked := s₀.execAll_tracked h₀ ops
  generalize s₀.execAll ops = s at htracked ⊢
  refine ⟨?_, s.history.openOf_length, s.history.openAt_length, ?_, ?_, ?_, ?_⟩
  · intro op e herr
    rcases s.exec_ok htracked op with ⟨s', hrun, _⟩ | ⟨e', hrun⟩
    · rw [herr] at hrun
      cases hrun
    · rw [herr] at hrun
      cases hrun
  · intro uid m hm hsticky
    rw [htracked uid m hm hsticky, s.isSome_assignment]
  · intro now station slot moduleId identity user cameOnline s' uid hrun
    have hplaced := Store.ingestModule_placed hrun
    have hsome : s'.history.openOf uid ≠ [] := by
      rw [← s'.isSome_assignment, hplaced]
      rfl
    obtain ⟨e, he⟩ := List.length_eq_one_iff.mp (Nat.le_antisymm (s'.history.openOf_length uid)
      (List.length_pos_iff.mpr hsome))
    rw [s'.get?_assignments] at hplaced
    obtain ⟨f, hf, heq⟩ := Option.map_eq_some_iff.mp hplaced
    obtain ⟨hfo, hfm⟩ := s'.history.mem_of_current hf
    have hmem : f ∈ s'.history.openOf uid := List.mem_filter.mpr ⟨hfo, by simpa using hfm⟩
    rw [he] at hmem
    have hfe := List.mem_singleton.mp hmem
    subst hfe
    exact ⟨f, he, congrArg Assignment.station heq, congrArg Assignment.slot heq⟩
  · intro now station slot moduleId identity user cameOnline s' accepted hrun
    obtain ⟨s₁, accepted', hrun', _, hdb⟩ :=
      s.ingestModule_ok now station slot moduleId identity user cameOnline
    rw [hrun] at hrun'
    cases hrun'
    have hsame : s'.db = (s.db.ingestModule now station slot moduleId identity cameOnline).1 :=
      congrArg Prod.fst hdb
    rw [hsame]
    exact ingestModule_keepsSticky ..
  · intro now station trackedSlots reported s' hrun
    obtain ⟨s₁, hrun', hdb⟩ := s.reconcileStation_ok now station trackedSlots reported
    rw [hrun] at hrun'
    cases hrun'
    rw [hdb]
    exact (reconcileStation_tracked htracked ..).2

namespace Sample

/-- The fleet before any module was seen. -/
def unused : Store where
  db := { fleet module Table.empty with modules := Table.empty, assignments := Table.empty }
  history := History.empty
  synced := rfl

theorem unused_tracked : Tracked unused.db := by
  intro uid m hm
  cases hm

/-- Module `a` is replaced by `b` in slot 1, moves to slot 2, and is set aside. -/
def swap : List TrackOp :=
  [.ingestModule 1 1 "1" (some "fm") { uid := some "a" } none true,
    .ingestModule 2 1 "1" (some "fm") { uid := some "b" } none true,
    .ingestModule 3 1 "2" (some "fm") { uid := some "a" } none true,
    .setLifecycle "a" "defect" "", .setLifecycle "b" "ready" ""]

/-- The lifecycle of a module and the number of its open rows. -/
def overview (s : Store) (uid : Uid) : Option Lifecycle × Nat :=
  ((s.db.modules.get? uid).map (·.lifecycleStatus), (s.history.openOf uid).length)

end Sample

theorem assignments_tracked_swap :
    Sample.overview (Sample.unused.execAll Sample.swap) "a" = (some .defect, 1) ∧
    Sample.overview (Sample.unused.execAll Sample.swap) "b" = (some .deployed, 1) ∧
    ((Sample.unused.execAll Sample.swap).history.openAt 1 "1").length ≤ 1 ∧
    ∀ op e, (Sample.unused.execAll Sample.swap).exec op ≠ .error (.integrity e) :=
  ⟨by decide, by decide,
    (assignments_tracked Sample.unused Sample.unused_tracked Sample.swap).2.2.1 1 "1",
    (assignments_tracked Sample.unused Sample.unused_tracked Sample.swap).1⟩

end StationManager.Firmware
