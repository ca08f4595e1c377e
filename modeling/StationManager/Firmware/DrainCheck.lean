import StationManager.Firmware.Rollup

/-!
# StationManager.Firmware.DrainCheck

The check and the drain resolve the same updates.  The check reconciles every
module of the station in turn and collects candidates; the drain only reads.
The loop invariant (`Collected`) says that after each pass the candidates are
exactly pending rows of the modules handled so far, read in the database of
that moment.  Handling one module does not touch what the drain reads of the
others, so the invariant is about all of them at the end.
-/

namespace StationManager.Firmware

variable {db : Db} {m : Module} {station : Pk} {st : Station} {uid : Uid} (now : Time)
  (backends : List Artifact)

/-! ## what a pending row depends on -/

/-- Two modules with the same core are flashed with the same artifact. -/
theorem executableArtifact_core {m' : Module} (h : m'.core = m.core) (rel : Option Release)
    (backends : List Artifact) :
    executableArtifact m' rel backends = executableArtifact m rel backends := by
  rw [Module.eq_of_core h]
  rfl

/-- The columns of a row that the drain reads. -/
def drainView (cs : ConvergenceState) : State × Nat := (cs.state, cs.transientFailures)

/-- Across a frame that keeps the drain's view of a module's rows, its pending
row is the same. -/
theorem pendingRow_congr {db' : Db} (hf : Frame db db')
    (hrows : ∀ p, (db'.rows.get? ⟨uid, p⟩).map drainView = (db.rows.get? ⟨uid, p⟩).map drainView)
    (backends : List Artifact) : db'.pendingRow backends uid = db.pendingRow backends uid := by
  have hle : ∀ {a b : Db}, Frame a b →
      (∀ p, (b.rows.get? ⟨uid, p⟩).map drainView = (a.rows.get? ⟨uid, p⟩).map drainView) →
      ∀ k, a.pendingRow backends uid = some k → b.pendingRow backends uid = some k := by
    intro a b hab hview k hk
    obtain ⟨m, rel, cs, hm, hkm, hd, hx, hcs, hst, htf⟩ := pendingRow_eq_some.mp hk
    obtain ⟨m', hm', hcore⟩ := hab.get? hm
    have hrow := hview k.targetRelease
    have hkey : (⟨uid, k.targetRelease⟩ : RowKey) = k := by rw [← hkm]
    rw [hkey, hcs] at hrow
    obtain ⟨cs', hcs', heq⟩ := Option.map_eq_some_iff.mp hrow
    refine pendingRow_eq_some.mpr ⟨m', rel, cs', hm', hkm, ?_, ?_, hcs', ?_, ?_⟩
    · rw [hab.desired hcore, hd]
    · rw [executableArtifact_core hcore, hx]
    · rw [show cs'.state = cs.state from congrArg Prod.fst heq, hst]
    · rw [show cs'.transientFailures = cs.transientFailures from congrArg Prod.snd heq]
      exact htf
  cases h : db.pendingRow backends uid with
  | some k => exact hle hf hrows k h
  | none =>
    cases h' : db'.pendingRow backends uid with
    | none => rfl
    | some k =>
      rw [hle hf.symm (fun p => (hrows p).symm) k h'] at h
      cases h

/-- Reconciling another module does not change a module's pending row. -/
theorem pendingRow_reconcileModule_ne {j : Uid} (h : j ≠ uid) :
    (db.reconcileModule now uid).1.pendingRow backends j = db.pendingRow backends j := by
  refine pendingRow_congr (reconcileModule_frame db now uid) ?_ backends
  intro p
  rw [get?_reconcileModule_rows_ne now h]

/-- Marking a row as instructed does not change a pending row. -/
theorem pendingRow_markInstructed (db : Db) (now : Time) (station : Pk) (i : Instruction)
    (backends : List Artifact) (uid : Uid) :
    (db.markInstructed now station i).1.pendingRow backends uid = db.pendingRow backends uid := by
  refine pendingRow_congr (markInstructed_frame db now station i) ?_ backends
  intro p
  unfold Db.markInstructed
  split
  · rfl
  · next cs hcs =>
    split
    · split
      · rw [Db.log_rows, Db.get?_putRow]
        split
        · next hk =>
          rw [hk, hcs]
          rfl
        · rfl
      · rfl
    · rfl

/-! ## one pass of the loop -/

/-- Without a desired release nothing is pending. -/
theorem pendingRow_of_no_release (hm : db.modules.get? uid = some m)
    (hd : db.desiredReleaseForModule uid m = none) : db.pendingRow backends uid = none := by
  unfold Db.pendingRow
  simp only [hm, hd]
  split <;> rfl

/-- A row that is not `updating`, or whose artifact the agent cannot execute,
is not pending. -/
theorem pendingRow_of_idle {p : Pk} {rel : Release} {cs : ConvergenceState}
    (hm : db.modules.get? uid = some m) (hd : db.desiredReleaseForModule uid m = some (p, rel))
    (hrow : db.rows.get? ⟨uid, p⟩ = some cs)
    (hidle : cs.state ≠ .updating ∨ executableArtifact m (some rel) backends = none) :
    db.pendingRow backends uid = none := by
  unfold Db.pendingRow
  simp only [hm, hd, hrow]
  split
  · rfl
  · split
    · rfl
    · next hx => rw [if_neg fun hpending => hidle.elim (absurd hpending.1) hx]

/-- What the loop offers for a module is its pending row. -/
theorem offerFor_reconcileModule (db : Db) (now : Time) (backends : List Artifact) (slot : String)
    (uid : Uid) (c : Candidates) : ((db.reconcileModule now uid).1.pendingRow backends uid = none ∧
      (db.reconcileModule now uid).1.offerFor backends slot (db.reconcileModule now uid).2 c = c) ∨
    ∃ i cs, (db.reconcileModule now uid).1.pendingRow backends uid = some i.convergenceId ∧
      (db.reconcileModule now uid).1.offerFor backends slot (db.reconcileModule now uid).2 c =
        c.offer i cs := by
  rcases reconcileModule_cases db now uid with ⟨hm, h⟩ | ⟨m, cv, hm, hd, h⟩ | ⟨m, p, rel, hm, hd, h⟩
  · left
    rw [h]
    refine ⟨?_, rfl⟩
    unfold Db.pendingRow
    rw [hm]
  · left
    have hf := Frame.setConvergenceRollup db uid cv
    obtain ⟨m', hm', hcore⟩ := hf.get? hm
    rw [h]
    exact ⟨pendingRow_of_no_release backends hm' (by rw [hf.desired hcore, hd]), rfl⟩
  · rw [h]
    generalize ho : reconcilerDecide uid m rel now (db.rowOrNew now ⟨uid, p⟩) = o
    have hdec : Decided m rel now (db.rowOrNew now ⟨uid, p⟩) o.row :=
      ho ▸ reconcilerDecide_decided uid m rel now (db.rowOrNew now ⟨uid, p⟩)
    obtain ⟨_, _, _, hrel⟩ := desiredReleaseForModule_spec hd
    have hf := Frame.apply db ⟨uid, p⟩ (db.openAssignmentStation uid) o
    obtain ⟨m', hm', hcore⟩ := hf.get? hm
    have hrow := get?_apply_rows db ⟨uid, p⟩ ⟨uid, p⟩ (db.openAssignmentStation uid) o
    rw [if_pos rfl] at hrow
    generalize hdb : db.apply ⟨uid, p⟩ (db.openAssignmentStation uid) o = db' at hf hm' hrow ⊢
    have hfetch : db'.fetchRow ⟨uid, p⟩ = some (o.row, m', rel) :=
      fetchRow_eq_some.mpr ⟨hrow, hm', by rw [hf.releases, hrel]⟩
    have hd' : db'.desiredReleaseForModule uid m' = some (p, rel) := by rw [hf.desired hcore, hd]
    by_cases hst : o.row.state = .updating
    · cases hx : executableArtifact m' (some rel) backends with
      | some artifact =>
        right
        refine ⟨makeInstruction db' ⟨uid, p⟩ m' slot rel artifact, o.row, ?_, ?_⟩
        · exact pendingRow_eq_some.mpr ⟨m', rel, o.row, hm', rfl, hd', by rw [hx]; rfl, hrow, hst,
            hdec.below_cap (by rw [hst]; rfl)⟩
        · simp only [Db.offerFor, hfetch, hst, ne_eq, not_true_eq_false, if_false, hx]
      | none =>
        left
        refine ⟨pendingRow_of_idle backends hm' hd' hrow (.inr hx), ?_⟩
        simp only [Db.offerFor, hfetch, hst, ne_eq, not_true_eq_false, if_false, hx]
    · left
      refine ⟨pendingRow_of_idle backends hm' hd' hrow (.inl hst), ?_⟩
      simp only [Db.offerFor, hfetch, hst, ne_eq, not_false_eq_true, if_true]

/-! ## the loop -/

/-- After an offer the choice is the new instruction, or the choice that
was there before. -/
theorem chosen_offer (c : Candidates) (i : Instruction) (cs : ConvergenceState) :
    (c.offer i cs).chosen = some i ∨
      ((c.offer i cs).chosen = c.chosen ∧ c.chosen.isSome = true) := by
  obtain ⟨resume, drift⟩ := c
  unfold Candidates.offer Candidates.chosen
  split
  · cases resume with
    | none => exact .inl rfl
    | some r => exact .inr ⟨rfl, rfl⟩
  · cases resume with
    | some r => exact .inr ⟨rfl, rfl⟩
    | none => cases drift with
        | none => exact .inl rfl
        | some d => exact .inr ⟨rfl, rfl⟩

/-- The candidates after the modules `done`: there is a choice exactly when
one of them has a pending row, and the choice is for such a row. -/
structure Collected (backends : List Artifact) (done : List Uid) (s : Db × Candidates) :
    Prop where
  found : s.2.chosen.isSome = true ↔ ∃ uid ∈ done, (s.1.pendingRow backends uid).isSome = true
  pending : ∀ i, s.2.chosen = some i → i.convergenceId.module ∈ done ∧
    s.1.pendingRow backends i.convergenceId.module = some i.convergenceId

theorem collected_checkModule {backends : List Artifact} {done : List Uid} {s : Db × Candidates}
    (a : Uid × Assignment) (hnew : a.1 ∉ done) (h : Collected backends done s) :
    Collected backends (done ++ [a.1]) (Db.checkModule now backends s a) := by
  -- the modules handled before keep their pending rows
  have hold : ∀ uid ∈ done, (s.1.reconcileModule now a.1).1.pendingRow backends uid =
      s.1.pendingRow backends uid := fun uid huid =>
    pendingRow_reconcileModule_ne now backends fun heq => hnew (heq ▸ huid)
  have hkeep : ∀ i, s.2.chosen = some i → i.convergenceId.module ∈ done ++ [a.1] ∧
      (s.1.reconcileModule now a.1).1.pendingRow backends i.convergenceId.module =
        some i.convergenceId := by
    intro i hi
    obtain ⟨hmem, hrow⟩ := h.pending i hi
    exact ⟨List.mem_append_left _ hmem, (hold _ hmem).trans hrow⟩
  rcases offerFor_reconcileModule s.1 now backends a.2.slot a.1 s.2 with
    ⟨hnone, hoff⟩ | ⟨i, cs, hsome, hoff⟩
  · have hstate : Db.checkModule now backends s a = ((s.1.reconcileModule now a.1).1, s.2) :=
      congrArg (Prod.mk _) hoff
    rw [hstate]
    refine ⟨?_, hkeep⟩
    rw [h.found]
    constructor
    · rintro ⟨uid, huid, hp⟩
      exact ⟨uid, List.mem_append_left _ huid, by rw [hold uid huid]; exact hp⟩
    · rintro ⟨uid, huid, hp⟩
      rcases List.mem_append.mp huid with huid | huid
      · exact ⟨uid, huid, by rw [← hold uid huid]; exact hp⟩
      · rw [List.mem_singleton.mp huid, hnone] at hp
        cases hp
  · have hstate : Db.checkModule now backends s a =
        ((s.1.reconcileModule now a.1).1, s.2.offer i cs) := congrArg (Prod.mk _) hoff
    have hmod : i.convergenceId.module = a.1 := by
      obtain ⟨_, _, _, _, hk, _⟩ := pendingRow_eq_some.mp hsome
      exact hk
    have hself : a.1 ∈ done ++ [a.1] := List.mem_append_right _ (List.mem_singleton.mpr rfl)
    have hpending : ((s.1.reconcileModule now a.1).1.pendingRow backends a.1).isSome = true := by
      rw [hsome]
      rfl
    rw [hstate]
    rcases chosen_offer s.2 i cs with hch | ⟨hch, hex⟩
    · refine ⟨iff_of_true (by simp [hch]) ⟨a.1, hself, hpending⟩, ?_⟩
      intro j hj
      rw [hch] at hj
      cases hj
      rw [hmod]
      exact ⟨hself, hsome⟩
    · refine ⟨iff_of_true (by rw [hch, hex]) ⟨a.1, hself, hpending⟩, ?_⟩
      intro j hj
      rw [hch] at hj
      exact hkeep j hj

theorem collected_foldl (as : List (Uid × Assignment)) (done : List Uid) (s : Db × Candidates)
    (hnodup : (done ++ as.map Prod.fst).Nodup) (h : Collected backends done s) :
    Collected backends (done ++ as.map Prod.fst) (as.foldl (Db.checkModule now backends) s) := by
  induction as generalizing done s with
  | nil => simpa using h
  | cons a as ih =>
    have hassoc : done ++ (a :: as).map Prod.fst = (done ++ [a.1]) ++ as.map Prod.fst := by simp
    rw [hassoc] at hnodup ⊢
    have hnew : a.1 ∉ done := fun hmem =>
      (List.nodup_append.mp (List.nodup_append.mp hnodup).1).2.2 a.1 hmem a.1 (by simp) rfl
    exact ih _ _ hnodup (collected_checkModule now a hnew h)

/-- A module has one open assignment. -/
theorem nodup_openAssignments (db : Db) (station : Pk) :
    ((db.openAssignments station).map Prod.fst).Nodup := by
  have hperm := (List.perm_insertionSort (fun a b : Uid × Assignment => a.2.slot ≤ b.2.slot)
    (db.assignments.entries.filter fun e => e.2.station = some station)).map Prod.fst
  exact hperm.nodup_iff.mpr (db.assignments.nodup.sublist (List.filter_sublist.map Prod.fst))

theorem collected_checkLoop (db : Db) (now : Time) (station : Pk) (backends : List Artifact) :
    Collected backends ((db.openAssignments station).map Prod.fst)
      (db.checkLoop now station backends) :=
  collected_foldl now backends _ [] (db, {}) (nodup_openAssignments db station)
    ⟨by simp [Candidates.chosen], by simp [Candidates.chosen]⟩

/-! ## the answer and the drain -/

/-- Without backends no row is pending. -/
theorem pendingRow_nil (db : Db) (uid : Uid) : db.pendingRow [] uid = none := by
  unfold Db.pendingRow
  split
  · rfl
  · simp

theorem mem_pendingUpdates {k : RowKey} (hst : db.stations.get? station = some st) :
    k ∈ db.pendingUpdates station ↔ ∃ uid ∈ (db.openAssignments station).map Prod.fst,
        db.pendingRow (moduleOtaBackends st) uid = some k := by
  unfold Db.pendingUpdates
  simp only [hst]
  split
  · next hnil => simp [hnil, pendingRow_nil]
  · simp only [List.mem_filterMap, List.mem_map]
    constructor
    · rintro ⟨a, ha, hk⟩
      exact ⟨a.1, ⟨a, ha, rfl⟩, hk⟩
    · rintro ⟨uid, ⟨a, ha, rfl⟩, hk⟩
      exact ⟨a, ha, hk⟩

/-- A row that is pending can be marked. -/
theorem markInstructed_of_pending {backends : List Artifact} {i : Instruction} (station : Pk)
    (h : db.pendingRow backends uid = some i.convergenceId) :
    (db.markInstructed now station i).2 = true := by
  obtain ⟨_, _, cs, _, _, _, _, hcs, hst, _⟩ := pendingRow_eq_some.mp h
  unfold Db.markInstructed
  simp only [hcs, hst, if_true]
  split <;> rfl

/-- On an idle station the check answers with its choice. -/
theorem check_idle (hst : db.stations.get? station = some st) (hidle : db.lockHeld station = false) :
    db.check now (some station) =
      (db.checkLoop now station (moduleOtaBackends st)).1.answer now station
        (db.checkLoop now station (moduleOtaBackends st)).2 := by
  unfold Db.check
  simp only [hst, hidle, Bool.false_eq_true, if_false]

/-- What the drain reads after the check is what it would read after the
loop. -/
theorem mem_pendingUpdates_check (hst : db.stations.get? station = some st)
    (hidle : db.lockHeld station = false) (k : RowKey) :
    k ∈ (db.check now (some station)).1.pendingUpdates station ↔
      ∃ uid ∈ (db.openAssignments station).map Prod.fst,
        (db.checkLoop now station (moduleOtaBackends st)).1.pendingRow (moduleOtaBackends st) uid =
          some k := by
  have hf := check_frame db now (some station)
  have hopen : (db.check now (some station)).1.openAssignments station =
      db.openAssignments station := by
    unfold Db.openAssignments
    rw [hf.assignments]
  have hsame : ∀ uid, (db.check now (some station)).1.pendingRow (moduleOtaBackends st) uid =
      (db.checkLoop now station (moduleOtaBackends st)).1.pendingRow
        (moduleOtaBackends st) uid := by
    intro uid
    rw [check_idle now hst hidle]
    unfold Db.answer
    split
    · rfl
    · exact pendingRow_markInstructed ..
  rw [mem_pendingUpdates (by rw [hf.stations, hst]), hopen]
  simp only [hsame]

/-- The chosen candidate is what the check hands out. -/
theorem check_response (hst : db.stations.get? station = some st)
    (hidle : db.lockHeld station = false) : (db.check now (some station)).2 =
      match (db.checkLoop now station (moduleOtaBackends st)).2.chosen with
      | none => .noContent
      | some i => .instruction i := by
  have hcol := collected_checkLoop db now station (moduleOtaBackends st)
  rw [check_idle now hst hidle]
  cases hchosen : (db.checkLoop now station (moduleOtaBackends st)).2.chosen with
  | none => simp only [Db.answer, hchosen]
  | some i =>
    have hmarked := markInstructed_of_pending now station (hcol.pending i hchosen).2
    simp only [Db.answer, hchosen, hmarked, if_true]

/-- The check chooses a candidate exactly when the drain has a pending
update afterwards. -/
theorem chosen_isSome_iff (hst : db.stations.get? station = some st)
    (hidle : db.lockHeld station = false) :
    (db.checkLoop now station (moduleOtaBackends st)).2.chosen.isSome = true ↔
      (db.check now (some station)).1.pendingUpdates station ≠ [] := by
  have hmem := mem_pendingUpdates_check now hst hidle
  rw [(collected_checkLoop db now station (moduleOtaBackends st)).found]
  constructor
  · rintro ⟨uid, huid, hp⟩
    obtain ⟨k, hk⟩ := Option.isSome_iff_exists.mp hp
    exact List.ne_nil_of_mem ((hmem k).mpr ⟨uid, huid, hk⟩)
  · intro hne
    obtain ⟨k, hk⟩ := List.exists_mem_of_ne_nil _ hne
    obtain ⟨uid, huid, hp⟩ := (hmem k).mp hk
    exact ⟨uid, huid, by rw [hp]; rfl⟩

theorem isDraining_of_pendingUpdates_nil (h : db.pendingUpdates station = []) :
    isDraining db now station = false := by
  unfold isDraining drainStatus
  split
  · rfl
  · split
    · rfl
    · rw [h]

/-- **Drain and check agree.**  A check on an idle station returns an
instruction exactly when the drain, evaluated right after it, has a pending
update; the instruction is for one of the pending rows; and after a 204 the
station does not drain. -/
theorem check_agrees_with_drain (db : Db) (now later : Time) (station : Pk) (st : Station)
    (hst : db.stations.get? station = some st) (hidle : db.lockHeld station = false) :
    ((∃ i, (db.check now (some station)).2 = .instruction i) ↔
      (db.check now (some station)).1.pendingUpdates station ≠ []) ∧
    (∀ i, (db.check now (some station)).2 = .instruction i →
      i.convergenceId ∈ (db.check now (some station)).1.pendingUpdates station) ∧
    ((db.check now (some station)).2 = .noContent →
      isDraining (db.check now (some station)).1 later station = false) := by
  have hresp := check_response now hst hidle
  have hsome := chosen_isSome_iff now hst hidle
  cases hc : (db.checkLoop now station (moduleOtaBackends st)).2.chosen with
  | none =>
    rw [hc] at hresp hsome
    have hnil : (db.check now (some station)).1.pendingUpdates station = [] := by
      by_contra hne
      cases hsome.mpr hne
    refine ⟨?_, ?_, fun _ => isDraining_of_pendingUpdates_nil later hnil⟩
    · refine iff_of_false ?_ (fun hne => hne hnil)
      rintro ⟨i, hi⟩
      rw [hresp] at hi
      cases hi
    · intro i hi
      rw [hresp] at hi
      cases hi
  | some j =>
    rw [hc] at hresp hsome
    refine ⟨iff_of_true ⟨j, hresp⟩ (hsome.mp rfl), ?_, ?_⟩
    · intro i hi
      rw [hresp] at hi
      cases hi
      obtain ⟨huid, hp⟩ :=
        (collected_checkLoop db now station (moduleOtaBackends st)).pending j hc
      exact (mem_pendingUpdates_check now hst hidle _).mpr ⟨_, huid, hp⟩
    · intro hno
      rw [hresp] at hno
      cases hno

/-- On the sample fleet the check instructs the drifted module and the station
drains for it. -/
theorem check_agrees_with_drain_sample : (Sample.start.check 1 (some 1)).1.pendingUpdates 1 ≠ [] ∧
      ((Sample.start.check 1 (some 1)).2 = .noContent →
        isDraining (Sample.start.check 1 (some 1)).1 2 1 = false) := by
  have h := check_agrees_with_drain Sample.start 1 2 1 Sample.station rfl rfl
  exact ⟨h.1.mp ⟨_, rfl⟩, h.2.2⟩

end StationManager.Firmware
