import StationManager.Deployments.Statements
import Mathlib.Data.List.Dedup

/-!
# StationManager.Deployments.Isolation

What the row locks give to an open transaction: rows it holds are not written
by others (`executed_leaves`), so that what it has read under a lock is still true
when it writes.  `Asserts` collects what a process relies on: a status update
still has an unfinished result, a creation still has pending results to
supersede and a deployment key of its own.  Every step keeps it, in every run,
without a condition on the schedule (`asserts_of_reachable`).
-/

namespace StationManager.Deployments

namespace Server

/-- Process `i` holds the row. -/
def Holds (s : Server) (i : Nat) (row : Row) : Prop := s.locks.get? row = some i

/-- The result is not finished. -/
def Open (s : Server) (k : ResultKey) : Prop :=
  ∃ r, s.db.results.get? k = some r ∧ r.status.isNonTerminal = true

/-- Keys from the sequence are fresh. -/
def Numbered (s : Server) : Prop :=
  ∀ d, s.nextDeployment ≤ d →
    s.db.deployments.get? d = none ∧ ∀ station, s.db.results.get? ⟨d, station⟩ = none

variable {s s' : Server} {i j : Nat}

theorem numbered_of_entries (hd : s.db.deployments.entries.all fun e => e.1 < s.nextDeployment)
    (hr : s.db.results.entries.all fun e => e.1.deployment < s.nextDeployment) : s.Numbered := by
  intro d hnext
  constructor
  · rw [Option.eq_none_iff_forall_ne_some]
    intro dep hdep
    have hlt := List.all_eq_true.mp hd _ ((Table.mem_entries_iff ..).mpr hdep)
    exact absurd (decide_eq_true_eq.mp hlt) hnext.not_gt
  · intro station
    rw [Option.eq_none_iff_forall_ne_some]
    intro r hrow
    have hlt := List.all_eq_true.mp hr _ ((Table.mem_entries_iff ..).mpr hrow)
    exact absurd (decide_eq_true_eq.mp hlt) hnext.not_gt

variable {rows : List Row} {row : Row}

theorem lock_db (h : s.lock i rows = some s') :
    s'.db = s.db ∧ s'.nextDeployment = s.nextDeployment := by
  obtain ⟨locks, _, rfl⟩ := Option.map_eq_some_iff.mp h
  exact ⟨rfl, rfl⟩

theorem holds_of_lock (h : s.lock i rows = some s') (hrow : row ∈ rows) : s'.Holds i row := by
  obtain ⟨locks, hlocks, rfl⟩ := Option.map_eq_some_iff.mp h
  exact RowLocks.holds_of_acquire hlocks hrow

theorem lock_keeps (h : s.lock i rows = some s') (hj : s.Holds j row) : s'.Holds j row := by
  obtain ⟨locks, hlocks, rfl⟩ := Option.map_eq_some_iff.mp h
  exact RowLocks.acquire_holds hlocks hj

theorem Holds.isFree (h : s.Holds i row) : s.isFree i row = true :=
  RowLocks.isFree_of_holds h

/-- A row held by one process is not free for another. -/
theorem Holds.ne_of_isFree {row' : Row} (hj : s.Holds j row) (hne : j ≠ i)
    (hfree : s.isFree i row' = true) : row ≠ row' := by
  rintro rfl
  exact hne (RowLocks.eq_of_isFree hfree hj)

end Server

/-! ## what other processes leave alone -/

/-- A step from `s` to `s'` leaves alone what process `j` holds. -/
structure Leaves (j : Nat) (s s' : Server) : Prop where
  locks : ∀ row, s.Holds j row → s'.Holds j row
  results : ∀ k r, s.Holds j (.result k) → s.db.results.get? k = some r →
    s'.db.results.get? k = some r
  deployments : ∀ d, s.Holds j (.deployment d) →
    s'.db.deployments.get? d = s.db.deployments.get? d
  unused : ∀ d, s.Holds j (.deployment d) → (∀ station, s.db.results.get? ⟨d, station⟩ = none) →
    ∀ station, s'.db.results.get? ⟨d, station⟩ = none
  next : s.nextDeployment ≤ s'.nextDeployment

namespace Leaves

variable {s s' s'' : Server} {i j : Nat}

theorem refl (j : Nat) (s : Server) : Leaves j s s :=
  ⟨fun _ h => h, fun _ _ _ h => h, fun _ _ => rfl, fun _ _ h => h, le_refl _⟩

theorem trans (h : Leaves j s s') (h' : Leaves j s' s'') : Leaves j s s'' where
  locks := fun row hrow => h'.locks row (h.locks row hrow)
  results := fun k r hk hr => h'.results k r (h.locks _ hk) (h.results k r hk hr)
  deployments := fun d hd => (h'.deployments d (h.locks _ hd)).trans (h.deployments d hd)
  unused := fun d hd hfree => h'.unused d (h.locks _ hd) (h.unused d hd hfree)
  next := h.next.trans h'.next

theorem of_lock {rows : List Row} (h : s.lock i rows = some s') : Leaves j s s' := by
  obtain ⟨hdb, hnext⟩ := Server.lock_db h
  exact ⟨fun _ => Server.lock_keeps h, fun _ _ _ hr => by rwa [hdb], fun _ _ => by rw [hdb],
    fun _ _ hfree => by rwa [hdb], hnext.ge⟩

theorem unlock (s : Server) (hne : j ≠ i) : Leaves j s (s.unlock i) :=
  ⟨fun _ => RowLocks.release_holds hne, fun _ _ _ h => h, fun _ _ => rfl, fun _ _ h => h,
    le_refl _⟩

/-- A write leaves `j` alone if it changes rows only that `j` does not hold. -/
theorem setDb {db : Db} (hres : ∀ k r, s.Holds j (.result k) → s.db.results.get? k = some r →
      db.results.get? k = some r)
    (hdep : ∀ d, s.Holds j (.deployment d) → db.deployments.get? d = s.db.deployments.get? d)
    (hunused : ∀ d, s.Holds j (.deployment d) → (∀ station, s.db.results.get? ⟨d, station⟩ = none) →
      ∀ station, db.results.get? ⟨d, station⟩ = none) : Leaves j s (s.setDb db) :=
  ⟨fun _ h => h, hres, hdep, hunused, le_refl _⟩

/-- Saving a result that is free for `i`. -/
theorem setResult {k : ResultKey} {f : DeploymentResult → DeploymentResult} (hne : j ≠ i)
    (hfree : s.isFree i (.result k) = true) : Leaves j s (s.setDb (s.db.setResult k f)) := by
  refine setDb (fun k' r hk' hr => ?_) (fun _ _ => rfl) fun d hd hnone station => ?_
  · refine (Table.get?_modify_ne _ _ fun heq => hk'.ne_of_isFree hne hfree ?_).trans hr
    rw [heq]
  · rw [Db.setResult, Table.get?_modify, hnone station]
    simp

/-- Setting the status of a deployment that is free for `i`. -/
theorem setStatus {d : Pk} {status : DeploymentStatus} (hne : j ≠ i)
    (hfree : s.isFree i (.deployment d) = true) :
    Leaves j s (s.setDb (s.db.setStatus d status)) := by
  refine setDb (fun _ _ _ h => h) (fun d' hd' => ?_) fun _ _ h => h
  refine Table.get?_modify_ne _ _ fun heq => hd'.ne_of_isFree hne hfree ?_
  rw [heq]

/-- Saving a station. -/
theorem setStation (s : Server) (db : Db) (pk : Pk) (f : Station → Station) :
    Leaves j (s.setDb db) (s.setDb (db.setStation pk f)) :=
  ⟨fun _ h => h, fun _ _ _ h => h, fun _ _ => rfl, fun _ _ h => h, le_refl _⟩

end Leaves

/-! ## what a transaction sees -/

namespace Tx

variable {tx : Tx} {db : Db}

/-- The transaction has superseded a result of the deployment. -/
def Touches (tx : Tx) (d : Pk) : Prop := ∃ e ∈ tx.superseded, e.1.deployment = d

theorem seenResult_of_notMem {k : ResultKey} (h : ∀ e ∈ tx.superseded, e.1 ≠ k)
    (r : DeploymentResult) : tx.seenResult k r = r := by
  have hnone : tx.superseded.find? (fun e => e.1 = k) = none := by
    simpa [List.find?_eq_none] using h
  rw [seenResult, hnone]

theorem seenResult_of_mem {e : ResultKey × Time} (he : e ∈ tx.superseded) (r : DeploymentResult) :
    (tx.seenResult e.1 r).status = .superseded := by
  unfold seenResult
  split
  · rfl
  · next hnone =>
    have := List.find?_eq_none.mp hnone e he
    simp at this

theorem get?_view_results (k : ResultKey) :
    (tx.view db).results.get? k = ((db.results.get? k).map (tx.seenResult k)).or
      ((tx.results.find? fun e => e.1 = k).map Prod.snd) := by
  rw [view, Table.get?_insertAll, Table.get?_map]

/-- Rows of other deployments are the committed ones, superseded or not. -/
theorem get?_view_results_ne {k : ResultKey}
    (hres : ∀ e ∈ tx.results, e.1.deployment = tx.deployment) (hk : k.deployment ≠ tx.deployment) :
    (tx.view db).results.get? k = (db.results.get? k).map (tx.seenResult k) := by
  have hnone : tx.results.find? (fun e => e.1 = k) = none := by
    refine List.find?_eq_none.mpr fun e he heq => hk ?_
    rw [← hres e he, of_decide_eq_true heq]
  rw [get?_view_results, hnone]
  simp

theorem get?_view_deployments (d : Pk) : (tx.view db).deployments.get? d = if d = tx.deployment then
        some (((db.deployments.get? d).map (tx.seenDeployment d)).getD tx.row)
      else (db.deployments.get? d).map (tx.seenDeployment d) := by
  rw [view]
  simp only [Table.get?_insert, Table.get?_map]
  split
  · next hd => rw [hd]
  · rfl

theorem seenDeployment_of_notMem {d : Pk} (h : ∀ e ∈ tx.closed, e.1 ≠ d) (dep : Deployment) :
    tx.seenDeployment d dep = dep := by
  have hnone : tx.closed.find? (fun e => e.1 = d) = none := by simpa [List.find?_eq_none] using h
  rw [seenDeployment, hnone]

/-- What an open creation relies on. -/
structure Valid (tx : Tx) (i : Nat) (s : Server) : Prop where
  owns : s.Holds i (.deployment tx.deployment)
  numbered : tx.deployment < s.nextDeployment
  fresh : s.db.deployments.get? tx.deployment = none
  unused : ∀ station, s.db.results.get? ⟨tx.deployment, station⟩ = none
  pending : ∀ e ∈ tx.superseded, s.Holds i (.result e.1) ∧
    ∃ r, s.db.results.get? e.1 = some r ∧ r.status = .pending
  closes : ∀ e ∈ tx.closed, s.Holds i (.deployment e.1) ∧ tx.Touches e.1 ∧ e.2 ≠ .inProgress
  inserts : ∀ e ∈ tx.results, e.1.deployment = tx.deployment ∧ e.2.status = .pending
  serves : tx.finals.any StationPlan.ok = true → tx.results ≠ []

namespace Valid

variable {i : Nat} {s s' : Server}

/-- Superseded results belong to other deployments. -/
theorem elsewhere (h : tx.Valid i s) {e : ResultKey × Time} (he : e ∈ tx.superseded) :
    e.1.deployment ≠ tx.deployment := by
  intro heq
  obtain ⟨_, r, hr, _⟩ := h.pending e he
  have hnone := h.unused e.1.station
  rw [← heq] at hnone
  rw [hnone] at hr
  cases hr

theorem touches_ne (h : tx.Valid i s) {d : Pk} (hd : tx.Touches d) : d ≠ tx.deployment := by
  obtain ⟨e, he, rfl⟩ := hd
  exact h.elsewhere he

theorem results_ne (h : tx.Valid i s) {k : ResultKey} (hk : k.deployment ≠ tx.deployment) :
    (tx.view s.db).results.get? k = (s.db.results.get? k).map (tx.seenResult k) :=
  get?_view_results_ne (fun e he => (h.inserts e he).1) hk

/-- What a transaction relies on is not changed by others. -/
theorem mono (h : tx.Valid i s) (hl : Leaves i s s') : tx.Valid i s' where
  owns := hl.locks _ h.owns
  numbered := h.numbered.trans_le hl.next
  fresh := (hl.deployments _ h.owns).trans h.fresh
  unused := hl.unused _ h.owns h.unused
  pending := by
    intro e he
    obtain ⟨hlock, r, hr, hp⟩ := h.pending e he
    exact ⟨hl.locks _ hlock, r, hl.results _ r hlock hr, hp⟩
  closes := by
    intro e he
    obtain ⟨hlock, ht, hs⟩ := h.closes e he
    exact ⟨hl.locks _ hlock, ht, hs⟩
  inserts := h.inserts
  serves := h.serves

end Valid

end Tx

/-! ## what a process relies on -/

/-- The open creation of a process and the deployments it has still to look at
for closing. -/
def Proc.tx : Proc → Option (Tx × List Pk)
  | .create tx close => some (tx, close)
  | .createStatuses tx d close | .createSave tx d _ close => some (tx, d :: close)
  | _ => none

/-- The result a process holds to save it. -/
def Proc.saving : Proc → Option ResultKey
  | .statusSave k _ _ | .commitStation k _ _ _ => some k
  | _ => none

/-- The status a process is about to give to a deployment. -/
def Proc.sets : Proc → Option DeploymentStatus
  | .completeUpdate _ status _ | .createSave _ _ status _ => some status
  | _ => none

/-- What a process relies on: its transaction, the lock of the row it saves, an
unfinished result for a status report.  A status it gives to a deployment is a
final one. -/
structure Asserts (i : Nat) (p : Proc) (s : Server) : Prop where
  tx : ∀ tx close, p.tx = some (tx, close) → tx.Valid i s ∧ ∀ d ∈ close, tx.Touches d
  saving : ∀ k, p.saving = some k → s.Holds i (.result k)
  reports : ∀ k status message, p = .statusSave k status message → s.Open k
  sets : ∀ status, p.sets = some status → status ≠ .inProgress

variable {i : Nat} {p : Proc} {s : Server}

theorem Asserts.mono {s' : Server} (h : Asserts i p s) (hl : Leaves i s s') : Asserts i p s' where
  tx := fun tx close hp => ⟨(h.tx tx close hp).1.mono hl, (h.tx tx close hp).2⟩
  saving := fun k hk => hl.locks _ (h.saving k hk)
  reports := by
    rintro k status message rfl
    obtain ⟨r, hr, hopen⟩ := h.reports k status message rfl
    exact ⟨r, hl.results k r (h.saving k rfl) hr, hopen⟩
  sets := h.sets

theorem sets_of_none (h : p.sets = none) :
    ∀ status, p.sets = some status → status ≠ .inProgress := by
  intro status hstatus
  rw [h] at hstatus
  cases hstatus

/-- A process without an open transaction relies on nothing. -/
theorem Asserts.of_none (htx : p.tx = none) (hsaving : p.saving = none)
    (hsets : ∀ status, p.sets = some status → status ≠ .inProgress) : Asserts i p s where
  tx := by
    intro tx close h
    rw [htx] at h
    cases h
  saving := by
    intro k h
    rw [hsaving] at h
    cases h
  reports := by
    rintro k status message rfl
    cases hsaving
  sets := hsets

/-- A creation relies on its transaction. -/
theorem Asserts.of_tx {tx : Tx} {close : List Pk} (hp : p.tx = some (tx, close)) (hv : tx.Valid i s)
    (hclose : ∀ d ∈ close, tx.Touches d)
    (hsets : ∀ status, p.sets = some status → status ≠ .inProgress) : Asserts i p s where
  tx := by
    intro tx' close' h
    rw [hp] at h
    cases h
    exact ⟨hv, hclose⟩
  saving := by
    intro k hk
    cases p <;> cases hp <;> cases hk
  reports := by
    rintro k status message rfl
    cases hp
  sets := hsets

/-- A save relies on the row it holds. -/
theorem Asserts.of_saving {k : ResultKey} (htx : p.tx = none) (hk : p.saving = some k)
    (hold : s.Holds i (.result k))
    (hopen : ∀ status message, p = .statusSave k status message → s.Open k) : Asserts i p s where
  tx := by
    intro tx close h
    rw [htx] at h
    cases h
  saving := by
    intro k' hk'
    rw [hk] at hk'
    cases hk'
    exact hold
  reports := by
    rintro k' status message rfl
    cases hk
    exact hopen status message rfl
  sets := by
    intro status hstatus
    cases p <;> cases hk <;> cases hstatus

/-! ## steps leave alone what others hold -/

section Steps

variable {s s' : Server} {i j : Nat} {now : Time} {p p' : Proc}

theorem leaves_cancel (now : Time) (d : Pk) (hne : j ≠ i) (hdep : s.isFree i (.deployment d) = true)
    (hres : ∀ k ∈ s.db.openResults d, s.isFree i (.result k) = true) :
    Leaves j s (s.setDb (s.db.cancelDeployment now d)) := by
  refine Leaves.setDb (fun k r hk hr => ?_) (fun d' hd' => ?_) fun d' _ hnone station => ?_
  · have hnot : ¬(k.deployment = d ∧ r.status.isNonTerminal = true) := fun hopen =>
      hk.ne_of_isFree hne (hres k ((Db.mem_openResults ..).mpr ⟨hopen.1, r, hr, hopen.2⟩)) rfl
    simp only [Db.cancelDeployment, Db.setStatus_results, Table.get?_map, hr, Option.map_some,
      if_neg hnot]
  · refine Table.get?_modify_ne _ _ fun heq => hd'.ne_of_isFree hne hdep ?_
    rw [heq]
  · simp only [Db.cancelDeployment, Db.setStatus_results, Table.get?_map, hnone station,
      Option.map_none]

variable {tx : Tx}

theorem leaves_view (h : tx.Valid i s) (hne : j ≠ i) : Leaves j s (s.setDb (tx.view s.db)) := by
  have hown : ∀ {d}, s.Holds j (.deployment d) → d ≠ tx.deployment := fun hd heq =>
    hd.ne_of_isFree hne h.owns.isFree (by rw [heq])
  refine Leaves.setDb (fun k r hk hr => ?_) (fun d hd => ?_) fun d hd hnone station => ?_
  · have hkept : ∀ e ∈ tx.superseded, e.1 ≠ k := fun e he heq =>
      hk.ne_of_isFree hne (h.pending e he).1.isFree (by rw [heq])
    rw [Tx.get?_view_results, hr, Option.map_some, Tx.seenResult_of_notMem hkept]
    rfl
  · rw [Tx.get?_view_deployments, if_neg (hown hd)]
    have hopen : ∀ e ∈ tx.closed, e.1 ≠ d := fun e he heq =>
      hd.ne_of_isFree hne (h.closes e he).1.isFree (by rw [heq])
    cases s.db.deployments.get? d with
    | none => rfl
    | some dep => rw [Option.map_some, Tx.seenDeployment_of_notMem hopen]
  · rw [h.results_ne (hown hd), hnone station]
    rfl

/-- **A statement leaves alone what other processes hold.** -/
theorem executed_leaves (hp : Asserts i p s) (h : Executed s i now p s' p') (hne : j ≠ i) :
    Leaves j s s' := by
  cases h with
  | statusLocked hlock | commitLocked hlock | cancelLocked hlock | stationsLocked hlock
  | closed hlock => exact .of_lock hlock
  | stationServed _ _ _ _ hlock => exact .of_lock hlock
  | inserted hlock =>
    have hl : Leaves j s _ := .of_lock hlock
    exact ⟨hl.locks, hl.results, hl.deployments, hl.unused, Nat.le_succ _⟩
  | reportFinal | reportProgress =>
    exact (Leaves.setResult hne (hp.saving _ rfl).isFree).trans (.unlock _ hne)
  | commitMismatch _ _ hfree => exact .setResult hne hfree
  | committed =>
    refine Leaves.trans (.trans ?_ (.setStation s _ _ _)) (.unlock _ hne)
    exact .setResult hne (hp.saving _ rfl).isFree
  | completeFlipped hfree =>
    unfold Db.flipInProgress
    split
    · exact .setStatus hne hfree
    · exact .refl j s
  | @cancelled d locked _ hlock =>
    have hfree : ∀ row ∈ Row.deployment d :: (s.db.openResults d).map .result,
        locked.isFree i row = true := fun row hrow => (Server.holds_of_lock hlock hrow).isFree
    rw [← (Server.lock_db hlock).1] at hfree ⊢
    have hcancel := leaves_cancel now d hne (hfree _ List.mem_cons_self)
      fun k hk => hfree _ (List.mem_cons_of_mem _ (List.mem_map.mpr ⟨k, hk, rfl⟩))
    exact ((Leaves.of_lock hlock).trans hcancel).trans (.unlock _ hne)
  | cancelledLate _ hlock => exact (Leaves.of_lock hlock).trans (.unlock _ hne)
  | created => exact (leaves_view (hp.tx _ [] rfl).1 hne).trans (.unlock _ hne)
  | rolledBack => exact .unlock s hne
  | regrouped => exact .setStation s s.db _ _
  | _ => exact .refl j s

/-! ## steps keep the sequence ahead -/

/-- No row has a key that was free before. -/
theorem Server.Numbered.mono (hn : s.Numbered) (hnext : s.nextDeployment ≤ s'.nextDeployment)
    (hdep : ∀ d, s.db.deployments.get? d = none → s'.db.deployments.get? d = none)
    (hres : ∀ k, s.db.results.get? k = none → s'.db.results.get? k = none) : s'.Numbered := by
  intro d hd
  obtain ⟨hfree, hunused⟩ := hn d (hnext.trans hd)
  exact ⟨hdep d hfree, fun station => hres _ (hunused station)⟩

theorem Server.Numbered.of_db (hn : s.Numbered) (hdb : s'.db = s.db)
    (hnext : s.nextDeployment ≤ s'.nextDeployment) : s'.Numbered :=
  hn.mono hnext (fun _ h => by rwa [hdb]) fun _ h => by rwa [hdb]

theorem Server.Numbered.of_lock {rows : List Row} (hn : s.Numbered)
    (h : s.lock i rows = some s') : s'.Numbered :=
  hn.of_db (Server.lock_db h).1 (Server.lock_db h).2.ge

theorem Server.Numbered.setResult (hn : s.Numbered) (k : ResultKey)
    (f : DeploymentResult → DeploymentResult) : (s.setDb (s.db.setResult k f)).Numbered := by
  refine hn.mono (le_refl _) (fun _ h => h) fun k' hk' => ?_
  rw [Server.setDb, Db.setResult, Table.get?_modify, hk']
  simp

theorem Server.Numbered.setStatus (hn : s.Numbered) (d : Pk) (status : DeploymentStatus) :
    (s.setDb (s.db.setStatus d status)).Numbered := by
  refine hn.mono (le_refl _) (fun d' hd' => ?_) fun _ h => h
  rw [Server.setDb, Db.setStatus, Table.get?_modify, hd']
  simp

theorem Server.Numbered.cancel (hn : s.Numbered) (d : Pk) :
    (s.setDb (s.db.cancelDeployment now d)).Numbered := by
  refine hn.mono (le_refl _) (fun d' hd' => ?_) fun k hk => ?_
  · simp only [Server.setDb, Db.cancelDeployment, Db.setStatus, Table.get?_modify, hd']
    simp
  · simp only [Server.setDb, Db.cancelDeployment, Db.setStatus_results, Table.get?_map, hk,
      Option.map_none]

theorem Server.Numbered.view (hn : s.Numbered) (h : tx.Valid i s) :
    (s.setDb (tx.view s.db)).Numbered := by
  intro d hd
  have hne : d ≠ tx.deployment := by
    rintro rfl
    exact hd.not_gt h.numbered
  obtain ⟨hdep, hres⟩ := hn d hd
  refine ⟨?_, fun station => ?_⟩
  · rw [Server.setDb, Tx.get?_view_deployments, if_neg hne, hdep]
    rfl
  · rw [Server.setDb, h.results_ne hne, hres station]
    rfl

theorem executed_numbered (hp : Asserts i p s) (hn : s.Numbered) (h : Executed s i now p s' p') :
    s'.Numbered := by
  cases h with
  | statusLocked hlock | commitLocked hlock | cancelLocked hlock | stationsLocked hlock
  | closed hlock => exact hn.of_lock hlock
  | stationServed _ _ _ _ hlock => exact hn.of_lock hlock
  | inserted hlock => exact hn.of_db (Server.lock_db hlock).1 (Nat.le_succ _)
  | reportFinal | reportProgress => exact (hn.setResult _ _).of_db rfl (le_refl _)
  | commitMismatch => exact hn.setResult _ _
  | committed => exact (hn.setResult _ _).mono (le_refl _) (fun _ h => h) fun _ h => h
  | completeFlipped =>
    unfold Db.flipInProgress
    split
    · exact hn.setStatus _ _
    · exact hn
  | cancelled _ hlock =>
    rw [← (Server.lock_db hlock).1]
    exact ((hn.of_lock hlock).cancel _).of_db rfl (le_refl _)
  | cancelledLate _ hlock => exact (hn.of_lock hlock).of_db rfl (le_refl _)
  | created => exact (hn.view (hp.tx _ [] rfl).1).of_db rfl (le_refl _)
  | rolledBack => exact hn.of_db rfl (le_refl _)
  | regrouped => exact hn.mono (le_refl _) (fun _ h => h) fun _ h => h
  | _ => exact hn

/-! ## a process keeps what it relies on -/

/-- The results a creation is about to supersede are pending, in the committed
database. -/
theorem pending_of_unfinishedElsewhere {station : Pk} {e : ResultKey × DeploymentResult}
    (hv : tx.Valid i s) (he : e ∈ unfinishedElsewhere (tx.view s.db) station tx.deployment)
    (hp : e.2.status = .pending) : ∃ r, s.db.results.get? e.1 = some r ∧ r.status = .pending := by
  simp only [unfinishedElsewhere, List.mem_filter, List.mem_reverse, decide_eq_true_eq] at he
  obtain ⟨hmem, _, _, hne⟩ := he
  have hview := (Table.mem_entries_iff ..).mp hmem
  rw [hv.results_ne hne] at hview
  obtain ⟨r, hr, hseen⟩ := Option.map_eq_some_iff.mp hview
  refine ⟨r, hr, ?_⟩
  by_cases hsup : ∃ f ∈ tx.superseded, f.1 = e.1
  · obtain ⟨f, hf, hfe⟩ := hsup
    have hstatus := Tx.seenResult_of_mem hf r
    rw [hfe, hseen, hp] at hstatus
    cases hstatus
  · rw [Tx.seenResult_of_notMem fun f hf heq => hsup ⟨f, hf, heq⟩] at hseen
    rw [hseen, hp]

/-- A creation that has skipped a station. -/
theorem Tx.Valid.skip (hv : tx.Valid i s) (todo : List StationPlan) {q : StationPlan}
    (hq : q.ok = false) : Tx.Valid { tx with todo, finals := tx.finals ++ [q] } i s := by
  refine ⟨hv.owns, hv.numbered, hv.fresh, hv.unused, hv.pending, hv.closes, hv.inserts, ?_⟩
  intro hok
  refine hv.serves ?_
  simpa [hq] using hok

/-- A creation that has superseded the results of a station. -/
theorem Tx.Valid.serve (hv : tx.Valid i s) (todo : List StationPlan) {q : StationPlan}
    {rows : List (ResultKey × DeploymentResult)} {locked : Server}
    (hrows : rows = unfinishedElsewhere (tx.view s.db) q.pk tx.deployment)
    (hpending : ∀ e ∈ rows, e.2.status = .pending)
    (hlock : s.lock i (rows.map fun e => .result e.1) = some locked) : Tx.Valid
      { tx with
        todo, finals := tx.finals ++ [q]
        results := tx.results ++ [(⟨tx.deployment, q.pk⟩, Tx.newResult q)]
        superseded := tx.superseded ++ rows.map fun e => (e.1, now) } i locked := by
  have hold := hv.mono (.of_lock hlock)
  refine ⟨hold.owns, hold.numbered, hold.fresh, hold.unused, ?_, ?_, ?_, ?_⟩
  · intro e he
    rcases List.mem_append.mp he with he | he
    · exact hold.pending e he
    · obtain ⟨f, hf, rfl⟩ := List.mem_map.mp he
      refine ⟨Server.holds_of_lock hlock (List.mem_map.mpr ⟨f, hf, rfl⟩), ?_⟩
      rw [(Server.lock_db hlock).1]
      exact pending_of_unfinishedElsewhere hv (hrows ▸ hf) (hpending f hf)
  · intro e he
    obtain ⟨hlocked, ⟨f, hf, hd⟩, hs⟩ := hold.closes e he
    exact ⟨hlocked, ⟨f, List.mem_append_left _ hf, hd⟩, hs⟩
  · intro e he
    rcases List.mem_append.mp he with he | he
    · exact hold.inserts e he
    · cases List.mem_singleton.mp he
      exact ⟨rfl, rfl⟩
  · intro _
    simp

/-- A creation that has closed a deployment. -/
theorem Tx.Valid.close (hv : tx.Valid i s) {d : Pk} {status : DeploymentStatus} {locked : Server}
    (htouches : tx.Touches d) (hstatus : status ≠ .inProgress)
    (hlock : s.lock i [.deployment d] = some locked) :
    Tx.Valid { tx with closed := tx.closed ++ [(d, status)] } i locked := by
  have hold := hv.mono (.of_lock hlock)
  refine ⟨hold.owns, hold.numbered, hold.fresh, hold.unused, hold.pending, ?_, hold.inserts,
    hold.serves⟩
  intro e he
  rcases List.mem_append.mp he with he | he
  · exact hold.closes e he
  · cases List.mem_singleton.mp he
    exact ⟨Server.holds_of_lock hlock List.mem_cons_self, htouches, hstatus⟩

theorem completeStatus_ne (statuses : List ResultStatus) :
    completeStatus statuses ≠ .inProgress := by
  unfold completeStatus
  split <;> decide

theorem closeOutStatus_ne (statuses : List ResultStatus) :
    closeOutStatus statuses ≠ .inProgress := by
  unfold closeOutStatus
  split
  · decide
  · split <;> decide

/-- **A process keeps what it relies on.** -/
theorem executed_asserts (hp : Asserts i p s) (hn : s.Numbered) (h : Executed s i now p s' p') :
    Asserts i p' s' := by
  cases h with
  | statusLocked hlock hr hopen =>
    refine .of_saving rfl rfl (Server.holds_of_lock hlock List.mem_cons_self) fun _ _ _ => ?_
    refine ⟨_, by rw [(Server.lock_db hlock).1, hr], ?_⟩
    rw [ResultStatus.isNonTerminal_eq_not, hopen]
    rfl
  | commitLocked hlock =>
    refine .of_saving rfl rfl (Server.holds_of_lock hlock List.mem_cons_self) ?_
    rintro _ _ ⟨⟩
  | completeDecided =>
    refine .of_none rfl rfl ?_
    rintro status ⟨⟩
    exact completeStatus_ne _
  | inserted hlock =>
    obtain ⟨hdb, _⟩ := Server.lock_db hlock
    obtain ⟨hfresh, hunused⟩ := hn s.nextDeployment (le_refl _)
    have howns := Server.holds_of_lock hlock List.mem_cons_self
    refine .of_tx rfl ⟨howns, Nat.lt_succ_self _, ?_, ?_, ?_, ?_, ?_, ?_⟩ ?_ (sets_of_none rfl)
    · rw [hdb]
      exact hfresh
    · rw [hdb]
      exact hunused
    all_goals simp
  | closeSkipped =>
    obtain ⟨hv, hclose⟩ := hp.tx _ _ rfl
    exact .of_tx rfl hv (fun e he => hclose e (List.mem_cons_of_mem _ he)) (sets_of_none rfl)
  | closeStarted =>
    obtain ⟨hv, hclose⟩ := hp.tx _ _ rfl
    exact .of_tx rfl hv hclose (sets_of_none rfl)
  | stationSkipped skip _ hskip =>
    obtain ⟨hv, hclose⟩ := hp.tx _ _ rfl
    exact .of_tx rfl (hv.skip _ hskip) (List.forall_mem_nil _) (sets_of_none rfl)
  | stationServed _ _ hrows hpending hlock =>
    obtain ⟨hv, _⟩ := hp.tx _ _ rfl
    refine .of_tx rfl (hv.serve _ hrows hpending hlock) ?_ (sets_of_none rfl)
    intro d hd
    obtain ⟨f, hf, rfl⟩ := List.mem_map.mp (List.mem_dedup.mp hd)
    exact ⟨(f.1, now), List.mem_append_right _ (List.mem_map.mpr ⟨f, hf, rfl⟩), rfl⟩
  | statusesOpen =>
    obtain ⟨hv, hclose⟩ := hp.tx _ _ rfl
    exact .of_tx rfl hv (fun e he => hclose e (List.mem_cons_of_mem _ he)) (sets_of_none rfl)
  | statusesClosed =>
    obtain ⟨hv, hclose⟩ := hp.tx _ _ rfl
    refine .of_tx rfl hv hclose ?_
    rintro status ⟨⟩
    exact closeOutStatus_ne _
  | closed hlock =>
    obtain ⟨hv, hclose⟩ := hp.tx _ _ rfl
    exact .of_tx rfl (hv.close (hclose _ List.mem_cons_self) (hp.sets _ rfl) hlock)
      (fun e he => hclose e (List.mem_cons_of_mem _ he)) (sets_of_none rfl)
  | _ => exact .of_none rfl rfl (sets_of_none rfl)

/-! ## runs -/

theorem acted_leaves {e : Event} {q : Option Proc} (hp : Asserts i p s)
    (h : Acted s i p e s' q) (hne : j ≠ i) : Leaves j s s' := by
  cases h with
  | exec now hexec => exact executed_leaves hp hexec hne
  | done => exact .refl j s
  | abort => exact .unlock s hne

theorem acted_own {e : Event} {q : Option Proc} (hp : Asserts i p s) (hn : s.Numbered)
    (h : Acted s i p e s' q) : s'.Numbered ∧ ∀ p', q = some p' → Asserts i p' s' := by
  cases h with
  | exec now hexec =>
    refine ⟨executed_numbered hp hn hexec, ?_⟩
    rintro p' ⟨⟩
    exact executed_asserts hp hn hexec
  | done => exact ⟨hn, fun _ h => nomatch h⟩
  | abort =>
    refine ⟨hn.of_db rfl (le_refl _), ?_⟩
    rintro p' ⟨⟩
    exact .of_none rfl rfl (sets_of_none rfl)

/-- The requests keep what they rely on, whatever the schedule. -/
theorem step_asserts {c c' : Pool Server Proc} {l : Sched Request Event}
    (hc : c.Holds Server.Numbered Asserts) (h : serverStep c l = some c') :
    c'.Holds Server.Numbered Asserts := by
  refine Pool.invariant_step (fun _ _ => True) ?_ ?_ ?_ hc trivial h
  · intro c i r p _ _ hstart
    cases r <;> cases hstart <;> exact .of_none rfl rfl (sets_of_none rfl)
  · intro c i p e s' q hc _ hi hact
    exact acted_own (hc.2 i p hi) hc.1 (acted_of_act hact)
  · intro c i p e s' q j p' hc _ hi hact hne hj
    exact (hc.2 j p' hj).mono (acted_leaves (hc.2 i p hi) (acted_of_act hact) hne)

end Steps

/-- A server without a request in progress. -/
structure Idle (c : Pool Server Proc) : Prop where
  procs : c.procs = Table.empty
  numbered : c.shared.Numbered

/-- **In every run the requests can rely on what they assert.** -/
theorem asserts_of_reachable {ok : Pool Server Proc → Sched Request Event → Prop}
    {c₀ c : Pool Server Proc} (h₀ : Idle c₀) (h : Reachable serverStep ok c₀ c) :
    c.Holds Server.Numbered Asserts := by
  refine h.invariant (P := Pool.Holds Server.Numbered Asserts) ⟨h₀.numbered, ?_⟩ ?_
  · intro i p hp
    rw [h₀.procs] at hp
    cases hp
  · intro c l c' hc _ hstep
    exact step_asserts hc hstep

end StationManager.Deployments
