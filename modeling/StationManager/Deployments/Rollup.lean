import StationManager.Deployments.Models
import StationManager.Lib.Text

/-!
# StationManager.Deployments.Rollup

The two roll-ups of a deployment.  `_check_deployment_complete` runs after a
commit or a final status report, `_close_out_deployments_with_superseded_results`
after a supersession; whichever child finishes last decides which of them
closes the deployment.

They put success and failure in a different order of precedence
(`completeStatus`, `closeOutStatus`), so the outcome of a deployment depends on
the order in which its children finish exactly if it has a success, a failure
and a supersession among them (`rollup_order_independent_iff`).
-/

namespace StationManager.Deployments

/-! ## the roll-ups -/

/-- What `_check_deployment_complete` makes of finished children. -/
def completeStatus (statuses : List ResultStatus) : DeploymentStatus :=
  if statuses.any ResultStatus.isFailure then .failed else .completed

/-- What `_close_out_deployments_with_superseded_results` makes of them. -/
def closeOutStatus (statuses : List ResultStatus) : DeploymentStatus :=
  if .success ∈ statuses then .completed
  else if statuses.any ResultStatus.isFailure then .failed
  else .cancelled

namespace Db

/-- Some child of the deployment is not finished. -/
def hasOpen (db : Db) (d : Pk) : Bool := (db.childStatuses d).any ResultStatus.isNonTerminal

/-- The UPDATE of a deployment that is still in progress. -/
def flipInProgress (db : Db) (d : Pk) (status : DeploymentStatus) : Db :=
  if db.statusOf d = some .inProgress then db.setStatus d status else db

/-- The source's `_check_deployment_complete`. -/
def checkDeploymentComplete (db : Db) (d : Pk) : Db :=
  if db.hasOpen d then db else db.flipInProgress d (completeStatus (db.childStatuses d))

/-- The source's `_close_out_deployments_with_superseded_results` for one
deployment. -/
def closeOut (db : Db) (d : Pk) : Db :=
  if db.statusOf d = some .inProgress then
    let statuses := db.childStatuses d
    if statuses ≠ [] ∧ statuses.all ResultStatus.isTerminal then
      db.setStatus d (closeOutStatus statuses)
    else db
  else db

end Db

/-- The roll-ups agree on finished children exactly if there is not both a
success and a failure among them, where some child is a success or a
failure. -/
theorem completeStatus_eq_closeOutStatus_iff {statuses : List ResultStatus}
    (h : .success ∈ statuses ∨ statuses.any ResultStatus.isFailure = true) :
    completeStatus statuses = closeOutStatus statuses ↔
      ¬(.success ∈ statuses ∧ statuses.any ResultStatus.isFailure = true) := by
  unfold completeStatus closeOutStatus
  by_cases hs : ResultStatus.success ∈ statuses <;>
    by_cases hf : statuses.any ResultStatus.isFailure = true <;> simp_all

/-! ## children finishing one at a time -/

/-- How a child finishes: a commit of the deployed or of another version, a
final status report, a supersession. -/
inductive Outcome
  | committed (version : String)
  | mismatched (version : String) (expected : String)
  | reportedFailed (message : String)
  | reportedRolledBack (message : String)
  | superseded
deriving DecidableEq, Repr

/-- The message of a commit of another version. -/
def mismatchMessage (version expected : String) : String :=
  s!"Commit version {reprStr version} does not match deployment " ++
    s!"target {reprStr expected}; treating as bootloader rollback."

namespace Outcome

/-- The final status. -/
def status : Outcome → ResultStatus
  | committed _ => .success
  | reportedFailed _ => .failed
  | mismatched _ _ | reportedRolledBack _ => .rolledBack
  | superseded => .superseded

/-- What the outcome writes to its row. -/
def write (now : Time) (r : DeploymentResult) : Outcome → DeploymentResult
  | committed version => r.commit now version
  | mismatched version expected => r.rollBack now version (mismatchMessage version expected)
  | reportedFailed message => r.report now .failed message
  | reportedRolledBack message => r.report now .rolledBack message
  | superseded => r.supersede now

/-- The statuses from which a child can finish this way: commits look for
three active statuses, supersession for a pending result, and status reports
are refused for finished results only. -/
def admits : Outcome → ResultStatus → Bool
  | committed _, s | mismatched _ _, s => s.committable
  | reportedFailed _, s | reportedRolledBack _, s => s.isNonTerminal
  | superseded, s => s = .pending

/-- The roll-up that runs after the outcome. -/
def rollup : Outcome → List ResultStatus → DeploymentStatus
  | superseded => closeOutStatus
  | _ => completeStatus

@[simp] theorem write_status (now : Time) (r : DeploymentResult) (o : Outcome) :
    (o.write now r).status = o.status := by
  cases o <;> rfl

theorem status_isTerminal (o : Outcome) : o.status.isTerminal = true := by
  cases o <;> rfl

theorem admits_isNonTerminal {o : Outcome} {s : ResultStatus} (h : o.admits s = true) :
    s.isNonTerminal = true := by
  cases o <;> cases s <;> first | rfl | cases h

end Outcome

/-- A child finishes. -/
structure Arrival where
  station : Pk
  now : Time
  outcome : Outcome
deriving DecidableEq, Repr

namespace Db

/-- The roll-up of the path on which a child has finished. -/
def rollUp (db : Db) (d : Pk) : Outcome → Db
  | .superseded => db.closeOut d
  | _ => db.checkDeploymentComplete d

/-- The row of a child that finishes is written. -/
def finish (db : Db) (d : Pk) (a : Arrival) : Db :=
  db.setResult ⟨d, a.station⟩ fun r => a.outcome.write a.now r

/-- A child of deployment `d` finishes, and the roll-up of that path runs. -/
def arrive (db : Db) (d : Pk) (a : Arrival) : Db := (db.finish d a).rollUp d a.outcome

/-- The children finish in the given order. -/
def arriveAll (db : Db) (d : Pk) (as : List Arrival) : Db := as.foldl (fun db a => db.arrive d a) db

end Db

/-- The children of deployment `d`, which is in progress, are about to finish
as listed: every child is listed once, in a status it can finish from. -/
structure Finishing (db : Db) (d : Pk) (as : List Arrival) : Prop where
  inProgress : db.statusOf d = some .inProgress
  nodup : (as.map Arrival.station).Nodup
  admitted : ∀ a ∈ as, ∃ r, db.results.get? ⟨d, a.station⟩ = some r ∧
    a.outcome.admits r.status = true
  covered : ∀ station r, db.results.get? ⟨d, station⟩ = some r →
    station ∈ as.map Arrival.station

/-- A success, a failure and a supersession are among the outcomes. -/
def mixed (as : List Arrival) : Bool :=
  (as.any fun a => a.outcome.status = .success) ∧ (as.any fun a => a.outcome.status.isFailure) ∧
    (as.any fun a => a.outcome = .superseded)

/-! ## the last child decides -/

section Arrivals

variable {db : Db} {d : Pk} {as : List Arrival}

theorem hasOpen_iff : db.hasOpen d = true ↔
    ∃ station r, db.results.get? ⟨d, station⟩ = some r ∧ r.status.isNonTerminal = true := by
  rw [Db.hasOpen, List.any_eq_true]
  constructor
  · rintro ⟨s, hs, hopen⟩
    obtain ⟨station, r, hr, rfl⟩ := (db.mem_childStatuses d s).mp hs
    exact ⟨station, r, hr, hopen⟩
  · rintro ⟨station, r, hr, hopen⟩
    exact ⟨r.status, (db.mem_childStatuses d _).mpr ⟨station, r, hr, rfl⟩, hopen⟩

theorem all_isTerminal_eq (db : Db) (d : Pk) :
    (db.childStatuses d).all ResultStatus.isTerminal = !db.hasOpen d := by
  simp [Db.hasOpen, List.any_eq_not_all_not, ResultStatus.isNonTerminal_eq_not]

variable (o : Outcome)

/-- A roll-up leaves the deployment alone while a child is open. -/
theorem rollUp_of_open (hopen : db.hasOpen d = true) : db.rollUp d o = db := by
  cases o with
  | superseded => simp [Db.rollUp, Db.closeOut, all_isTerminal_eq, hopen]
  | committed | mismatched | reportedFailed | reportedRolledBack =>
    simp [Db.rollUp, Db.checkDeploymentComplete, hopen]

/-- Once every child is finished it closes the deployment. -/
theorem rollUp_statusOf (db : Db) (o : Outcome) (hin : db.statusOf d = some .inProgress)
    (hne : db.childStatuses d ≠ []) (hopen : db.hasOpen d = false) :
    (db.rollUp d o).statusOf d = some (o.rollup (db.childStatuses d)) := by
  cases o with
  | superseded =>
    simp [Db.rollUp, Db.closeOut, all_isTerminal_eq, hopen, hin, hne, Db.setStatus_statusOf,
      Outcome.rollup]
  | committed | mismatched | reportedFailed | reportedRolledBack =>
    simp [Db.rollUp, Db.checkDeploymentComplete, Db.flipInProgress, hopen, hin,
      Db.setStatus_statusOf, Outcome.rollup]

@[simp] theorem rollUp_results : (db.rollUp d o).results = db.results := by
  cases o with
  | superseded =>
    simp only [Db.rollUp, Db.closeOut]
    split
    · split <;> rfl
    · rfl
  | committed | mismatched | reportedFailed | reportedRolledBack =>
    simp only [Db.rollUp, Db.checkDeploymentComplete, Db.flipInProgress]
    split
    · rfl
    · split <;> rfl

theorem arrive_results (db : Db) (d : Pk) (a : Arrival) :
    (db.arrive d a).results = (db.finish d a).results := rollUp_results a.outcome

/-- Children that are not listed keep their rows. -/
theorem get?_arriveAll_of_notMem (db : Db) {station : Pk} (h : station ∉ as.map Arrival.station) :
    (db.arriveAll d as).results.get? ⟨d, station⟩ = db.results.get? ⟨d, station⟩ := by
  induction as generalizing db with
  | nil => rfl
  | cons a as ih =>
    simp only [List.map_cons, List.mem_cons, not_or] at h
    have hne : (⟨d, station⟩ : ResultKey) ≠ ⟨d, a.station⟩ :=
      fun heq => h.1 (congrArg ResultKey.station heq)
    have hrest := ih (db.arrive d a) h.2
    rw [arrive_results] at hrest
    exact hrest.trans (Table.get?_modify_ne _ _ hne)

/-- A listed child ends in the status of its outcome. -/
theorem get?_arriveAll_of_mem (db : Db) (hnodup : (as.map Arrival.station).Nodup) {a : Arrival}
    (ha : a ∈ as) (hrow : (db.results.get? ⟨d, a.station⟩).isSome = true) :
    ∃ r, (db.arriveAll d as).results.get? ⟨d, a.station⟩ = some r ∧
      r.status = a.outcome.status := by
  induction as generalizing db with
  | nil => cases ha
  | cons b as ih =>
    simp only [List.map_cons, List.nodup_cons] at hnodup
    have hrows : ∀ k, ((db.arrive d b).results.get? k).isSome = (db.results.get? k).isSome := by
      intro k
      rw [arrive_results, Db.finish, Db.setResult, Table.get?_modify]
      split <;> simp
    rcases List.mem_cons.mp ha with rfl | hmem
    · -- the rest of the list does not come back to this child
      obtain ⟨r, hr⟩ := Option.isSome_iff_exists.mp hrow
      refine ⟨a.outcome.write a.now r, ?_, Outcome.write_status ..⟩
      have hkeep := get?_arriveAll_of_notMem (d := d) (db.arrive d a) hnodup.1
      rw [arrive_results] at hkeep
      refine hkeep.trans ?_
      rw [Db.finish, Db.setResult, Table.get?_modify_self, hr]
      rfl
    · exact ih (db.arrive d b) hnodup.2 hmem ((hrows _).trans hrow)

/-- The rows after an arrival: the child it is about is finished, the others
are as before. -/
theorem finish_row {db : Db} {a : Arrival} {station : Pk} {r : DeploymentResult}
    (h : (db.finish d a).results.get? ⟨d, station⟩ = some r) :
    (station = a.station ∧ r.status.isTerminal = true) ∨
      (station ≠ a.station ∧ db.results.get? ⟨d, station⟩ = some r) := by
  by_cases hs : station = a.station
  · subst hs
    rw [Db.finish, Db.setResult, Table.get?_modify_self] at h
    obtain ⟨r₀, _, rfl⟩ := Option.map_eq_some_iff.mp h
    rw [Outcome.write_status]
    exact .inl ⟨rfl, Outcome.status_isTerminal _⟩
  · have hkey : (⟨d, station⟩ : ResultKey) ≠ ⟨d, a.station⟩ :=
      fun heq => hs (congrArg ResultKey.station heq)
    rw [Db.finish, Db.setResult, Table.get?_modify_ne _ _ hkey] at h
    exact .inr ⟨hs, h⟩

/-- The deployment is closed by the roll-up of the last child. -/
theorem arriveAll_statusOf (db : Db) (l : List Arrival) (a : Arrival)
    (hin : db.statusOf d = some .inProgress) (hnodup : ((l ++ [a]).map Arrival.station).Nodup)
    (hadm : ∀ b ∈ l ++ [a], ∃ r, db.results.get? ⟨d, b.station⟩ = some r ∧
      r.status.isNonTerminal = true) (hcov : ∀ station r, db.results.get? ⟨d, station⟩ = some r →
      station ∈ (l ++ [a]).map Arrival.station ∨ r.status.isTerminal = true) :
    (db.arriveAll d (l ++ [a])).statusOf d =
      some (a.outcome.rollup ((db.arriveAll d (l ++ [a])).childStatuses d)) := by
  induction l generalizing db with
  | nil =>
    obtain ⟨r, hr, _⟩ := hadm a List.mem_cons_self
    have hself : (db.finish d a).results.get? ⟨d, a.station⟩ =
        some (a.outcome.write a.now r) := by
      rw [Db.finish, Db.setResult, Table.get?_modify_self, hr]
      rfl
    have hne : (db.finish d a).childStatuses d ≠ [] :=
      List.ne_nil_of_mem ((Db.mem_childStatuses ..).mpr ⟨_, _, hself, rfl⟩)
    have hclosed : (db.finish d a).hasOpen d = false := by
      refine Bool.eq_false_iff.mpr fun hopen => ?_
      obtain ⟨station, r', hr', hopen'⟩ := hasOpen_iff.mp hopen
      have hterm : r'.status.isTerminal = true := by
        rcases finish_row hr' with ⟨_, hterm⟩ | ⟨hs, hold⟩
        · exact hterm
        · exact (hcov station r' hold).resolve_left fun hmem => hs (by simpa using hmem)
      rw [ResultStatus.isNonTerminal_eq_not, hterm] at hopen'
      cases hopen'
    have hroll := rollUp_statusOf (db.finish d a) a.outcome hin hne hclosed
    have hsame : ((db.finish d a).rollUp d a.outcome).childStatuses d =
        (db.finish d a).childStatuses d := by
      simp only [Db.childStatuses, rollUp_results]
    rw [← hsame] at hroll
    exact hroll
  | cons b l ih =>
    simp only [List.cons_append, List.map_cons, List.nodup_cons] at hnodup
    have hother : ∀ c ∈ l ++ [a], (db.finish d b).results.get? ⟨d, c.station⟩ =
        db.results.get? ⟨d, c.station⟩ := by
      intro c hc
      have hkey : (⟨d, c.station⟩ : ResultKey) ≠ ⟨d, b.station⟩ := fun heq =>
        hnodup.1 (List.mem_map.mpr ⟨c, hc, congrArg ResultKey.station heq⟩)
      exact Table.get?_modify_ne _ _ hkey
    -- the last child is still open, so the deployment is
    have hlast : a ∈ l ++ [a] := List.mem_append_right l List.mem_cons_self
    obtain ⟨r, hr, hopen⟩ := hadm a (List.mem_cons_of_mem b hlast)
    have hstep : db.arrive d b = db.finish d b :=
      rollUp_of_open b.outcome (hasOpen_iff.mpr ⟨a.station, r, (hother a hlast).trans hr, hopen⟩)
    have hrest := ih (db.finish d b) hin hnodup.2 ?_ ?_
    · rw [← hstep] at hrest
      exact hrest
    · intro c hc
      rw [hother c hc]
      exact hadm c (List.mem_cons_of_mem b hc)
    · intro station r' hr'
      rcases finish_row hr' with ⟨_, hterm⟩ | ⟨hs, hold⟩
      · exact .inr hterm
      · rcases hcov station r' hold with hmem | hterm
        · exact .inl ((List.mem_cons.mp hmem).resolve_left hs)
        · exact .inr hterm

/-- The final statuses of the children are those of the outcomes. -/
theorem mem_childStatuses_arriveAll (h : Finishing db d as) (s : ResultStatus) :
    s ∈ (db.arriveAll d as).childStatuses d ↔ ∃ a ∈ as, a.outcome.status = s := by
  have hfinal := fun a (ha : a ∈ as) =>
    have hrow : (db.results.get? ⟨d, a.station⟩).isSome = true := by
      obtain ⟨r, hr, _⟩ := h.admitted a ha
      rw [hr]
      rfl
    get?_arriveAll_of_mem (d := d) db h.nodup ha hrow
  rw [Db.mem_childStatuses]
  constructor
  · rintro ⟨station, r, hr, rfl⟩
    by_cases hmem : station ∈ as.map Arrival.station
    · obtain ⟨a, ha, rfl⟩ := List.mem_map.mp hmem
      obtain ⟨r', hr', hs⟩ := hfinal a ha
      rw [hr'] at hr
      cases hr
      exact ⟨a, ha, hs.symm⟩
    · rw [get?_arriveAll_of_notMem db hmem] at hr
      exact absurd (h.covered station r hr) hmem
  · rintro ⟨a, ha, rfl⟩
    obtain ⟨r, hr, hs⟩ := hfinal a ha
    exact ⟨a.station, r, hr, hs⟩

theorem Finishing.perm {bs : List Arrival} (h : Finishing db d as) (hp : bs.Perm as) :
    Finishing db d bs where
  inProgress := h.inProgress
  nodup := (hp.map _).nodup_iff.mpr h.nodup
  admitted := fun a ha => h.admitted a (hp.mem_iff.mp ha)
  covered := fun station r hr => (hp.map _).mem_iff.mpr (h.covered station r hr)

/-- A roll-up looks at which statuses occur only. -/
theorem rollup_congr {l l' : List ResultStatus} (h : ∀ s, s ∈ l ↔ s ∈ l') :
    o.rollup l = o.rollup l' := by
  have hany : l.any ResultStatus.isFailure = l'.any ResultStatus.isFailure := by
    rw [Bool.eq_iff_iff]
    simp only [List.any_eq_true, h]
  cases o <;> simp only [Outcome.rollup, completeStatus, closeOutStatus, hany, h]

/-- **The deployment ends in what the roll-up of its last child makes of the
outcomes.** -/
theorem arriveAll_append_statusOf (l : List Arrival) (a : Arrival) (h : Finishing db d (l ++ [a])) :
    (db.arriveAll d (l ++ [a])).statusOf d =
      some (a.outcome.rollup ((l ++ [a]).map fun b => b.outcome.status)) := by
  have hadm : ∀ b ∈ l ++ [a], ∃ r, db.results.get? ⟨d, b.station⟩ = some r ∧
      r.status.isNonTerminal = true := by
    intro b hb
    obtain ⟨r, hr, hadmits⟩ := h.admitted b hb
    exact ⟨r, hr, Outcome.admits_isNonTerminal hadmits⟩
  rw [arriveAll_statusOf db l a h.inProgress h.nodup hadm fun s r hr => .inl (h.covered s r hr)]
  congr 1
  refine rollup_congr _ fun s => ?_
  rw [mem_childStatuses_arriveAll h, List.mem_map]

end Arrivals

/-! ## order independence -/

theorem mixed_iff (as : List Arrival) : mixed as = true ↔
    .success ∈ as.map (fun a => a.outcome.status) ∧
      (as.map fun a => a.outcome.status).any ResultStatus.isFailure = true ∧
      ∃ a ∈ as, a.outcome = .superseded := by
  simp [mixed]

theorem rollup_of_ne {o : Outcome} (h : o ≠ .superseded) : o.rollup = completeStatus := by
  cases o <;> first | rfl | exact absurd rfl h

theorem status_of_ne {o : Outcome} (h : o ≠ .superseded) :
    o.status = .success ∨ o.status.isFailure = true := by
  cases o <;> first | exact absurd rfl h | exact .inl rfl | exact .inr rfl

variable {a : Arrival} {as : List Arrival}

/-- Where both roll-ups can run, they agree unless the outcomes are mixed. -/
theorem rollups_agree_iff (hsup : ∃ a ∈ as, a.outcome = .superseded)
    (hagent : ∃ a ∈ as, a.outcome ≠ .superseded) :
    completeStatus (as.map fun a => a.outcome.status) =
      closeOutStatus (as.map fun a => a.outcome.status) ↔ mixed as = false := by
  obtain ⟨b, hb, hne⟩ := hagent
  have hmem : b.outcome.status ∈ as.map fun a => a.outcome.status := List.mem_map.mpr ⟨b, hb, rfl⟩
  have hsome : .success ∈ as.map (fun a => a.outcome.status) ∨
      (as.map fun a => a.outcome.status).any ResultStatus.isFailure = true := by
    rcases status_of_ne hne with hs | hf
    · rw [hs] at hmem
      exact .inl hmem
    · exact .inr (List.any_eq_true.mpr ⟨_, hmem, hf⟩)
  rw [completeStatus_eq_closeOutStatus_iff hsome, ← Bool.not_eq_true, mixed_iff]
  simp only [hsup, and_true]

/-- Unless the outcomes are mixed, it does not matter whose roll-up runs. -/
theorem rollup_eq_of_not_mixed {b : Arrival} (ha : a ∈ as) (hb : b ∈ as) (h : mixed as = false) :
    a.outcome.rollup (as.map fun c => c.outcome.status) =
      b.outcome.rollup (as.map fun c => c.outcome.status) := by
  by_cases hsa : a.outcome = .superseded
  · by_cases hsb : b.outcome = .superseded
    · rw [hsa, hsb]
    · rw [hsa, rollup_of_ne hsb]
      exact ((rollups_agree_iff ⟨a, ha, hsa⟩ ⟨b, hb, hsb⟩).mpr h).symm
  · by_cases hsb : b.outcome = .superseded
    · rw [hsb, rollup_of_ne hsa]
      exact (rollups_agree_iff ⟨b, hb, hsb⟩ ⟨a, ha, hsa⟩).mpr h
    · rw [rollup_of_ne hsa, rollup_of_ne hsb]

/-- With `a` last, the deployment ends in what the roll-up of `a` makes of the
outcomes. -/
theorem perm_statusOf {db : Db} {d : Pk} {l : List Arrival} (h : Finishing db d as)
    (hp : (l ++ [a]).Perm as) : (db.arriveAll d (l ++ [a])).statusOf d =
      some (a.outcome.rollup (as.map fun c => c.outcome.status)) := by
  rw [arriveAll_append_statusOf l a (h.perm hp)]
  congr 1
  exact rollup_congr _ fun s => (hp.map _).mem_iff

/-- Every child can be the last one. -/
theorem exists_perm_last (ha : a ∈ as) : ∃ l, (l ++ [a]).Perm as :=
  ⟨as.erase a, (List.perm_append_singleton a _).trans (List.perm_cons_erase ha).symm⟩

/-- **The roll-up of a deployment does not depend on the order in which its
children finish exactly if there is not a success, a failure and a
supersession among them**; the two roll-ups are then the same function of the
outcomes on which both can run. -/
theorem rollup_order_independent_iff (db : Db) (d : Pk) (as : List Arrival)
    (h : Finishing db d as) : ((∀ o₁ o₂ : List Arrival, o₁.Perm as → o₂.Perm as →
      (db.arriveAll d o₁).statusOf d = (db.arriveAll d o₂).statusOf d) ↔ mixed as = false) ∧
    ((∃ a ∈ as, a.outcome = .superseded) → (∃ a ∈ as, a.outcome ≠ .superseded) →
      (completeStatus (as.map fun a => a.outcome.status) =
        closeOutStatus (as.map fun a => a.outcome.status) ↔ mixed as = false)) := by
  refine ⟨⟨?_, ?_⟩, rollups_agree_iff⟩
  · intro hall
    refine Bool.eq_false_iff.mpr fun hmixed => ?_
    obtain ⟨hsuccess, hfailure, a, ha, hsup⟩ := (mixed_iff as).mp hmixed
    obtain ⟨b, hb, hstatus⟩ := List.mem_map.mp hsuccess
    -- once with the supersession last, once with the success last
    obtain ⟨l₁, hp₁⟩ := exists_perm_last ha
    obtain ⟨l₂, hp₂⟩ := exists_perm_last hb
    have heq := hall _ _ hp₁ hp₂
    have hne : b.outcome ≠ .superseded := by
      intro hb'
      rw [hb'] at hstatus
      cases hstatus
    rw [perm_statusOf h hp₁, perm_statusOf h hp₂, hsup, rollup_of_ne hne, Option.some.injEq,
      Outcome.rollup, closeOutStatus, if_pos hsuccess, completeStatus, if_pos hfailure] at heq
    cases heq
  · intro hnot o₁ o₂ hp₁ hp₂
    rcases List.eq_nil_or_concat o₁ with rfl | ⟨l₁, a, rfl⟩
    · rw [List.nil_perm.mp (hp₁.trans hp₂.symm)]
    · rcases List.eq_nil_or_concat o₂ with rfl | ⟨l₂, b, rfl⟩
      · rw [List.nil_perm.mp (hp₂.trans hp₁.symm)]
      · have ha : a ∈ as := hp₁.mem_iff.mp (by simp)
        have hb : b ∈ as := hp₂.mem_iff.mp (by simp)
        simp only [List.concat_eq_append] at hp₁ hp₂ ⊢
        rw [perm_statusOf h hp₁, perm_statusOf h hp₂, rollup_eq_of_not_mixed ha hb hnot]

namespace Sample

/-- A deployment of three stations: two agents before their reboot, one
station still waiting. -/
def fleet : Db where
  stations := Table.empty
  groups := Table.empty
  images := Table.empty
  deployments := Table.empty.insert 1 ⟨"v2", "release", .all, none, none, .inProgress, [], 0⟩
  results := ((Table.empty.insert ⟨1, 1⟩ { imageRelease := 1, status := .rebooting }).insert ⟨1, 2⟩
    { imageRelease := 1, status := .installing }).insert ⟨1, 3⟩ { imageRelease := 1 }

/-- A success, a failure, and the third station superseded. -/
def outcomes : List Arrival :=
  [⟨1, 1, .committed "v2"⟩, ⟨2, 2, .reportedFailed "no space"⟩, ⟨3, 3, .superseded⟩]

theorem finishing_fleet : Finishing fleet 1 outcomes where
  inProgress := rfl
  nodup := by decide
  admitted := by decide
  covered := by
    intro station r hr
    have hmem := (Table.mem_entries_iff ..).mpr hr
    have hall : ∀ e ∈ fleet.results.entries, e.1.station ∈ outcomes.map Arrival.station := by decide
    exact hall _ hmem

end Sample

/-- The sample deployment is mixed, so its status depends on the order. -/
theorem rollup_order_independent_iff_outcomes : mixed Sample.outcomes = true ∧
    ¬∀ o₁ o₂ : List Arrival, o₁.Perm Sample.outcomes → o₂.Perm Sample.outcomes →
      (Sample.fleet.arriveAll 1 o₁).statusOf 1 = (Sample.fleet.arriveAll 1 o₂).statusOf 1 := by
  refine ⟨by decide, fun hall => ?_⟩
  have hmixed := (rollup_order_independent_iff _ 1 _ Sample.finishing_fleet).1.mp hall
  exact absurd hmixed (by decide)

/-- With the supersession last the deployment is completed, with the failure
last it has failed. -/
theorem rollup_depends_on_order : ∃ o₁ o₂ : List Arrival,
    o₁.Perm Sample.outcomes ∧ o₂.Perm Sample.outcomes ∧
      (Sample.fleet.arriveAll 1 o₁).statusOf 1 = some .completed ∧
      (Sample.fleet.arriveAll 1 o₂).statusOf 1 = some .failed :=
  ⟨Sample.outcomes, Sample.outcomes.reverse, .refl _, List.reverse_perm _, by decide, by decide⟩

end StationManager.Deployments
