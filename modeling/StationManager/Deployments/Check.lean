import StationManager.Deployments.Final

/-!
# StationManager.Deployments.Check

What a station is told to do: `DeploymentCheckView` hands out the newest
unfinished result of a station, with its status, and the agent decides by the
status whether the image is still to be written.

`Proc.offers` is the statement of a request after which a station has a result
to write.  No other statement gives it one (`executed_unwritten`).
-/

namespace StationManager.Deployments

/-! ## the answer to a check -/

/-- The body of a positive answer. -/
structure Offer where
  result : ResultKey
  status : ResultStatus
  targetTag : String
  checksum : String
  sizeBytes : Option Int
  downloadUrl : String
deriving DecidableEq, Repr

def Offer.of (k : ResultKey) (r : DeploymentResult) (image : ImageRelease) : Offer where
  result := k
  status := r.status
  targetTag := image.tag
  checksum := image.rootfsSha256
  sizeBytes := image.rootfsSizeBytes
  downloadUrl := s!"/api/v1/deployments/{k.deployment}/download/"

/-- The unfinished results of a station, with their images, by the creation
time of their deployments. -/
def offerable (db : Db) (station : Pk) : List (Time × Offer × ImageRelease) :=
  db.results.entries.filterMap fun (k, r) =>
    match db.deployments.get? k.deployment, db.images.get? r.imageRelease with
    | some dep, some image =>
      if k.station = station ∧ r.status.isNonTerminal ∧ dep.status = .inProgress then
        some (dep.createdAt, .of k r image, image)
      else none
    | _, _ => none

/-- `DeploymentCheckView.post`; a release without the artifacts of an update is
not offered. -/
def checkDeployment (db : Db) (station : Pk) : Option Offer :=
  match newest (offerable db station) with
  | some (_, offer, image) => if image.isOtaReady then some offer else none
  | none => none

/-! ## results still to be written -/

/-- The agent takes these statuses to mean that the image is not on the disk
yet. -/
def ResultStatus.beforeReboot (s : ResultStatus) : Bool := s ∈ [pending, downloading, installing]

/-- The station has a result that its agent would write. -/
def Db.hasUnwritten (db : Db) (station : Pk) : Bool :=
  db.results.entries.any fun e => e.1.station = station ∧ e.2.status.beforeReboot

theorem Db.hasUnwritten_iff (db : Db) (station : Pk) : db.hasUnwritten station = true ↔
      ∃ k r, db.results.get? k = some r ∧ k.station = station ∧ r.status.beforeReboot = true := by
  simp only [hasUnwritten, List.any_eq_true, decide_eq_true_eq]
  constructor
  · rintro ⟨⟨k, r⟩, hmem, hk⟩
    exact ⟨k, r, (Table.mem_entries_iff ..).mp hmem, hk⟩
  · rintro ⟨k, r, hr, hk⟩
    exact ⟨(k, r), (Table.mem_entries_iff ..).mpr hr, hk⟩

theorem mem_offerable {db : Db} {station : Pk} {e : Time × Offer × ImageRelease}
    (h : e ∈ offerable db station) : ∃ k r, db.results.get? k = some r ∧ k.station = station ∧
      r.status.isNonTerminal = true ∧ e.2.1 = .of k r e.2.2 := by
  obtain ⟨⟨k, r⟩, hmem, hsome⟩ := List.mem_filterMap.mp h
  dsimp only at hsome
  split at hsome
  · split at hsome
    · next hk =>
      cases hsome
      exact ⟨k, r, (Table.mem_entries_iff ..).mp hmem, hk.1, hk.2.1, rfl⟩
    · cases hsome
  · cases hsome

/-- A station without a result to write is only told to verify. -/
theorem checkDeployment_status {db : Db} {station : Pk} {offer : Offer}
    (h : checkDeployment db station = some offer) (hno : db.hasUnwritten station = false) :
    offer.status = .rebooting ∨ offer.status = .verifying := by
  unfold checkDeployment at h
  split at h
  · next hnewest =>
    split at h
    · cases h
      obtain ⟨k, r, hr, hk, hopen, hoffer⟩ := mem_offerable (mem_of_newest hnewest)
      have hstatus : offer.status = r.status := congrArg Offer.status hoffer
      have hwritten : r.status.beforeReboot = false := by
        rw [← Bool.not_eq_true]
        intro hbefore
        rw [(Db.hasUnwritten_iff ..).mpr ⟨k, r, hr, hk, hbefore⟩] at hno
        cases hno
      rw [hstatus]
      revert hopen hwritten
      cases r.status <;> decide
    · cases h
  · cases h

/-! ## statements that give a station something to write -/

/-- The next statement gives the station a result to write: it saves an early
status, or commits a creation. -/
def Proc.offers (station : Pk) : Proc → Bool
  | .statusSave k status _ => k.station = station ∧ status ∈ [.downloading, .installing]
  | .create tx [] => tx.todo = [] ∧ tx.results.any fun e => e.1.station = station
  | _ => false

section Statements

variable {s s' : Server} {i : Nat} {now : Time} {p p' : Proc} {k : ResultKey}
  {r' : DeploymentResult}

/-- Saving a result with a later status leaves none to write that was not
there. -/
theorem unwritten_setResult {db : Db} {k' : ResultKey} {f : DeploymentResult → DeploymentResult}
    (hf : k = k' → ∀ r, (f r).status.beforeReboot = false)
    (hr : (db.setResult k' f).results.get? k = some r') (hb : r'.status.beforeReboot = true) :
    ∃ r, db.results.get? k = some r ∧ r.status.beforeReboot = true := by
  rw [get?_setResult] at hr
  split at hr
  · next hk =>
    obtain ⟨r, _, rfl⟩ := Option.map_eq_some_iff.mp hr
    rw [hf hk] at hb
    cases hb
  · exact ⟨r', hr, hb⟩

theorem unwritten_report {status : Report} {message : String} {k' : ResultKey}
    (hno : (Proc.statusSave k' status message).offers k.station = false) (hk : k = k')
    (r : DeploymentResult) : (r.report now status.status message).status.beforeReboot = false := by
  subst hk
  rw [DeploymentResult.report_status]
  simp only [Proc.offers, true_and, decide_eq_false_iff_not] at hno
  revert hno
  cases status <;> decide

theorem unwritten_view {db : Db} {tx : Tx}
    (hno : (tx.results.any fun e => e.1.station = k.station) = false)
    (hr : (tx.view db).results.get? k = some r') (hb : r'.status.beforeReboot = true) :
    ∃ r, db.results.get? k = some r ∧ r.status.beforeReboot = true := by
  have hnone : tx.results.find? (fun e => e.1 = k) = none := by
    rw [List.find?_eq_none]
    intro e he heq
    have hne := List.any_eq_false.mp hno e he
    rw [of_decide_eq_true heq] at hne
    exact hne (decide_eq_true rfl)
  rw [Tx.get?_view_results, hnone, Option.map_none, Option.or_none] at hr
  obtain ⟨r, hr₀, rfl⟩ := Option.map_eq_some_iff.mp hr
  refine ⟨r, hr₀, ?_⟩
  unfold Tx.seenResult at hb
  split at hb
  · cases hb
  · exact hb

/-- **A result to write was there before**, unless the statement offers it. -/
theorem executed_unwritten (h : Executed s i now p s' p') (hno : p.offers k.station = false)
    (hr : s'.db.results.get? k = some r') (hb : r'.status.beforeReboot = true) :
    ∃ r, s.db.results.get? k = some r ∧ r.status.beforeReboot = true := by
  cases h with
  | statusLocked hlock | commitLocked hlock | cancelLocked hlock | stationsLocked hlock
  | inserted hlock | closed hlock => exact ⟨r', by rwa [← (Server.lock_db hlock).1], hb⟩
  | stationServed _ _ _ _ hlock => exact ⟨r', by rwa [← (Server.lock_db hlock).1], hb⟩
  | cancelledLate _ hlock => exact ⟨r', by rwa [← (Server.lock_db hlock).1], hb⟩
  | reportFinal | reportProgress => exact unwritten_setResult (unwritten_report hno) hr hb
  | commitMismatch | committed => exact unwritten_setResult (fun _ _ => rfl) hr hb
  | completeFlipped =>
    refine ⟨r', ?_, hb⟩
    rw [Server.setDb, Db.flipInProgress] at hr
    split at hr <;> exact hr
  | cancelled =>
    simp only [Server.unlock, Server.setDb, Db.cancelDeployment, Db.setStatus_results,
      Table.get?_map] at hr
    obtain ⟨r, hr₀, rfl⟩ := Option.map_eq_some_iff.mp hr
    refine ⟨r, hr₀, ?_⟩
    split at hb
    · cases hb
    · exact hb
  | created htodo =>
    simp only [Proc.offers, htodo, true_and, Bool.decide_eq_true] at hno
    exact unwritten_view hno hr hb
  | _ => exact ⟨r', hr, hb⟩

end Statements

/-- The step executes a statement that gives the station a result to write. -/
def offers (station : Pk) (c : Pool Server Proc) : Sched Request Event → Bool
  | .advance i (.exec _) => (c.procs.get? i).any (Proc.offers station)
  | _ => false

theorem step_hasUnwritten {c c' : Pool Server Proc} {l : Sched Request Event} {station : Pk}
    (h : serverStep c l = some c') (hno : offers station c l = false)
    (hc : c.shared.db.hasUnwritten station = false) :
    c'.shared.db.hasUnwritten station = false := by
  rw [← Bool.not_eq_true] at hc ⊢
  refine fun hc' => hc ?_
  obtain ⟨k, r', hr', rfl, hb⟩ := (Db.hasUnwritten_iff ..).mp hc'
  suffices hold : ∃ r, c.shared.db.results.get? k = some r ∧ r.status.beforeReboot = true by
    obtain ⟨r, hr, hbefore⟩ := hold
    exact (Db.hasUnwritten_iff ..).mpr ⟨k, r, hr, rfl, hbefore⟩
  cases Pool.stepped_of_step h with
  | spawn i r p _ _ hshared _ => exact ⟨r', by rwa [← hshared], hb⟩
  | advance i e p q hi hact _ =>
    have hacted := acted_of_act hact
    generalize c'.shared = s' at hacted hr'
    cases hacted with
    | exec now hexec =>
      rw [offers, hi] at hno
      exact executed_unwritten hexec hno hr' hb
    | done | abort => exact ⟨r', hr', hb⟩

end StationManager.Deployments
