import StationManager.Firmware.Models

/-!
# StationManager.Firmware.Targets

From a module to the release it should run: open assignment, effective
target of the station (precedence station > group > fleet, with the canary
gate on the fleet target), non-archived release of (type, variant, version).
-/

namespace StationManager.Firmware

/-- Pick the effective target for a station out of `targets`, all of one
module type: the first station target, else the first target of the station's
group, else the first fleet target unless its canary group is another one. -/
def resolveEffectiveTarget (pk : Pk) (station : Station) (targets : List Target) :
    Option Target :=
  let stationT := targets.find? fun t => t.scope = .station ∧ t.station = some pk
  let groupT := targets.find? fun t =>
    t.scope = .group ∧ station.rolloutGroup.isSome ∧ t.group = station.rolloutGroup
  let fleetT := targets.find? fun t => t.scope = .fleet
  match stationT, groupT, fleetT with
  | some t, _, _ => some t
  | none, some t, _ => some t
  | none, none, none => none
  | none, none, some t =>
    if t.canaryGroup.isSome ∧ t.canaryGroup ≠ station.rolloutGroup then none else some t

/-- The targets that `effective_target` loads for a station. -/
def applicable (pk : Pk) (station : Station) (t : Target) : Bool :=
  t.scope = .fleet ∨ (t.scope = .station ∧ t.station = some pk) ∨
    (station.rolloutGroup.isSome ∧ t.scope = .group ∧ t.group = station.rolloutGroup)

/-- The effective target for (station, module type). -/
def effectiveTarget (db : Db) (pk : Pk) (station : Station) (moduleType : Pk) : Option Target :=
  resolveEffectiveTarget pk station
    (db.targets.filter fun t => applicable pk station t ∧ t.moduleType = moduleType)

namespace Db

/-- The first non-archived release of (type, variant, version). -/
def findRelease (db : Db) (moduleType : Pk) (variant version : String) : Option (Pk × Release) :=
  db.releases.table.entries.find? fun e =>
    e.2.archivedAt = none ∧ e.2.moduleType = moduleType ∧ e.2.variant = variant ∧
      e.2.version = version

/-- The station of a module's open assignment.  A foreign key that does not
resolve counts as the nulled one. -/
def openStation (db : Db) (uid : Uid) : Option (Pk × Station) :=
  match db.assignments.get? uid with
  | none => none
  | some a => match a.station with
      | none => none
      | some pk => match db.stations.get? pk with
          | none => none
          | some st => some (pk, st)

/-- The target that applies to a module through its open assignment. -/
def targetForModule (db : Db) (uid : Uid) (module : Module) : Option Target :=
  match db.openStation uid with
  | none => none
  | some (pk, st) => effectiveTarget db pk st module.moduleType

/-- The concrete release a module should run. -/
def desiredReleaseForModule (db : Db) (uid : Uid) (module : Module) : Option (Pk × Release) :=
  match db.targetForModule uid module with
  | none => none
  | some t => db.findRelease module.moduleType module.variant t.version

end Db

/-! ## what a resolved release looks like -/

/-- A release found by `findRelease` is stored under its key, not archived and
has the type, variant and version that were asked for. -/
theorem findRelease_spec {db : Db} {ty : Pk} {variant version : String} {p : Pk} {r : Release}
    (h : db.findRelease ty variant version = some (p, r)) :
    db.releases.table.get? p = some r ∧ r.archivedAt = none ∧ r.moduleType = ty ∧
      r.variant = variant ∧ r.version = version := by
  have hmem := List.mem_of_find?_eq_some h
  have hprop := List.find?_some h
  simp only [decide_eq_true_eq] at hprop
  exact ⟨(Table.mem_entries_iff _ _ _).mp hmem, hprop⟩

/-- The desired release has the version of the effective target. -/
theorem desiredReleaseForModule_spec {db : Db} {uid : Uid} {m : Module} {p : Pk} {r : Release}
    (h : db.desiredReleaseForModule uid m = some (p, r)) :
    ∃ t, db.targetForModule uid m = some t ∧ r.version = t.version ∧
      db.releases.table.get? p = some r := by
  unfold Db.desiredReleaseForModule at h
  split at h
  · cases h
  · next t ht =>
    have hspec := findRelease_spec h
    exact ⟨t, ht, hspec.2.2.2.2, hspec.1⟩

/-- Resolution reads only these tables. -/
structure SameInputs (db db' : Db) : Prop where
  assignments : db'.assignments = db.assignments
  stations : db'.stations = db.stations
  targets : db'.targets = db.targets
  releases : db'.releases = db.releases

theorem SameInputs.refl (db : Db) : SameInputs db db := ⟨rfl, rfl, rfl, rfl⟩

theorem SameInputs.trans {a b c : Db} (h : SameInputs a b) (h' : SameInputs b c) : SameInputs a c :=
  ⟨h'.assignments.trans h.assignments, h'.stations.trans h.stations,
    h'.targets.trans h.targets, h'.releases.trans h.releases⟩

theorem SameInputs.openStation {db db' : Db} (h : SameInputs db db') (uid : Uid) :
    db'.openStation uid = db.openStation uid := by
  unfold Db.openStation
  rw [h.assignments, h.stations]

theorem SameInputs.targetForModule {db db' : Db} (h : SameInputs db db') (uid : Uid)
    (m : Module) : db'.targetForModule uid m = db.targetForModule uid m := by
  unfold Db.targetForModule effectiveTarget
  rw [h.openStation, h.targets]

/-- With the same inputs a module resolves to the same release; of the module
only its type and variant matter. -/
theorem SameInputs.desiredReleaseForModule {db db' : Db} (h : SameInputs db db') (uid : Uid)
    {m m' : Module} (hty : m'.moduleType = m.moduleType) (hva : m'.variant = m.variant) :
    db'.desiredReleaseForModule uid m' = db.desiredReleaseForModule uid m := by
  unfold Db.desiredReleaseForModule
  have ht : db'.targetForModule uid m' = db.targetForModule uid m := by
    rw [h.targetForModule]
    unfold Db.targetForModule
    rw [hty]
  rw [ht]
  split
  · rfl
  · unfold Db.findRelease
    rw [h.releases, hty, hva]

end StationManager.Firmware
