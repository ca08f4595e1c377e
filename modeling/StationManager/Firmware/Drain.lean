import Mathlib.Data.List.Sort
import StationManager.Firmware.Reconciler

/-!
# StationManager.Firmware.Drain

The drain predicate of `drain.py`: a station drains while one of its modules
has a pending update the agent can perform.  Everything here only reads.
-/

namespace StationManager.Firmware

/-- Sim modules are flashed with the native_sim binary, real hardware with the
signed DFU image. -/
def artifactFor (module : Module) : Artifact :=
  if module.uidSource = .synthetic then .sim else .dfu

/-- Whether a release carries the given artifact kind. -/
def artifactAvailable (release : Release) : Artifact → Bool
  | .dfu => release.storageKey ≠ ""
  | .sim => release.simStorageKey ≠ ""

/-- Module-OTA backends the agent reports, restricted to known ones. -/
def moduleOtaBackends (station : Station) : List Artifact :=
  [.dfu, .sim].filter fun a => a.value ∈ station.backends.getD []

/-- The artifact the agent would flash a module with to reach a release, or
`none` when it cannot. -/
def executableArtifact (module : Module) (release : Option Release) (backends : List Artifact) :
    Option Artifact :=
  match release with
  | none => none
  | some r =>
    if artifactFor module ∉ backends ∨ ¬artifactAvailable r (artifactFor module) then none
    else some (artifactFor module)

/-- Seen within the last two minutes. -/
def isOnline (station : Station) (now : Time) : Bool :=
  match station.lastSeen with
  | none => false
  | some t => now < t + 120 * 1000000

namespace Db

/-- Open assignments of a station in slot order. -/
def openAssignments (db : Db) (station : Pk) : List (Uid × Assignment) :=
  (db.assignments.entries.filter fun e => e.2.station = some station).insertionSort
    fun a b => a.2.slot ≤ b.2.slot

/-- The pending row of one module, if it has one. -/
def pendingRow (db : Db) (backends : List Artifact) (uid : Uid) : Option RowKey :=
  match db.modules.get? uid with
  | none => none
  | some module =>
    if artifactFor module ∉ backends then none
    else match db.desiredReleaseForModule uid module with
      | none => none
      | some (pk, desired) =>
        if executableArtifact module (some desired) backends = none then none
        else match db.rows.get? ⟨uid, pk⟩ with
          | none => none
          | some cs =>
            if cs.state = .updating ∧ cs.transientFailures < drainTransientLimit then
              some ⟨uid, pk⟩
            else none

/-- The `updating` rows of a station that the agent can converge, in slot
order. -/
def pendingUpdates (db : Db) (station : Pk) : List RowKey :=
  match db.stations.get? station with
  | none => []
  | some st =>
    let backends := moduleOtaBackends st
    if backends = [] then []
    else (db.openAssignments station).filterMap fun a => db.pendingRow backends a.1

end Db

/-- The drain state that lock grants and the dashboard read. -/
structure DrainStatus where
  active : Bool := false
  since : Option Time := none
  moduleUids : List Uid := []
deriving DecidableEq, Repr

/-- Drain state of a station; `since` is the earliest `created_at` of the
pending rows. -/
def drainStatus (db : Db) (now : Time) (station : Pk) : DrainStatus :=
  match db.stations.get? station with
  | none => {}
  | some st =>
    if ¬isOnline st now then {}
    else match db.pendingUpdates station with
      | [] => {}
      | pending =>
        { active := true
          since := (pending.filterMap fun k => (db.rows.get? k).map (·.createdAt)).min?
          moduleUids := pending.map (·.module) }

def isDraining (db : Db) (now : Time) (station : Pk) : Bool :=
  (drainStatus db now station).active

/-! ## when an artifact is executable, when a row is pending -/

theorem executableArtifact_some (module : Module) (r : Release) (backends : List Artifact) :
    (executableArtifact module (some r) backends).isSome = true ↔
      artifactFor module ∈ backends ∧ artifactAvailable r (artifactFor module) = true := by
  simp only [executableArtifact]
  split
  · next h =>
    simp only [Option.isSome_none, Bool.false_eq_true, false_iff, not_and]
    intro hm ha
    rcases h with h | h
    · exact h hm
    · exact h ha
  · next h => simpa [not_or] using h

/-- A module has a pending row exactly when its desired release is executable
and the row of that release is `updating` below the transient cap. -/
theorem pendingRow_eq_some {db : Db} {backends : List Artifact} {uid : Uid} {k : RowKey} :
    db.pendingRow backends uid = some k ↔
      ∃ m rel cs, db.modules.get? uid = some m ∧ k.module = uid ∧
        db.desiredReleaseForModule uid m = some (k.targetRelease, rel) ∧
        (executableArtifact m (some rel) backends).isSome = true ∧
        db.rows.get? k = some cs ∧ cs.state = .updating ∧
        cs.transientFailures < drainTransientLimit := by
  obtain ⟨kmod, krel⟩ := k
  unfold Db.pendingRow
  constructor
  · intro h
    cases hm : db.modules.get? uid with
    | none =>
      rw [hm] at h
      cases h
    | some m =>
      simp only [hm] at h
      split at h
      · cases h
      · split at h
        · cases h
        · next p rel hd =>
          split at h
          · cases h
          · next hx =>
            split at h
            · cases h
            · next cs hcs =>
              split at h
              · next hst =>
                cases h
                exact ⟨m, rel, cs, rfl, rfl, hd, Option.isSome_iff_ne_none.mpr hx, hcs,
                  hst.1, hst.2⟩
              · cases h
  · rintro ⟨m, rel, cs, hm, hk, hd, hx, hcs, hst, htf⟩
    subst hk
    have ha := (executableArtifact_some m rel backends).mp hx
    have hne : executableArtifact m (some rel) backends ≠ none := Option.isSome_iff_ne_none.mp hx
    simp only [hm, hd, hcs, ha.1, not_true_eq_false, if_false, hne, hst, htf, and_self, if_true]

end StationManager.Firmware
