import StationManager.Deployments.Models
import StationManager.Lib.Text
import Mathlib.Data.List.Sort

/-!
# StationManager.Deployments.Plan

What a deployment of a version would do for each station: `plan_deployment`
with the helpers of `apps.rollouts.targeting` it uses.  A version is a pair
(tag, channel); each station gets the release of that version for its own
machine, or is skipped with a reason.
-/

namespace StationManager.Deployments

/-! ## targeting -/

/-- The numbers of a text, with the value of the run of digits that is being
read. -/
def digitRuns : Option Nat → List Char → List Nat
  | run, [] => run.toList
  | run, c :: cs =>
    match digit? c with
    | some d => digitRuns (some (run.getD 0 * 10 + d)) cs
    | none => run.toList ++ digitRuns none cs

/-- All digit runs of a tag as numbers: the source's `release_key`. -/
def releaseKey (tag : String) : List Nat := digitRuns none tag.toList

example : releaseKey "2026.10.19-04" = [2026, 10, 19, 4] := by decide

/-- Strictly newer: by tag keys if both tags have numbers, else by import
time. -/
def isNewer (candidate current : ImageRelease) : Bool :=
  if releaseKey candidate.tag ≠ [] ∧ releaseKey current.tag ≠ [] then
    releaseKey current.tag < releaseKey candidate.tag
  else current.importedAt < candidate.importedAt

/-- The channel of the station's rollout group, `release` without one. -/
def stationChannel (db : Db) (st : Station) : String :=
  ((st.rolloutGroup.bind db.groups.get?).map (·.channel)).getD "release"

/-- The release the station runs; archived ones are still found here. -/
def currentRelease (db : Db) (st : Station) : Option (Pk × ImageRelease) :=
  st.currentImageRelease.bind fun pk => (db.images.get? pk).map fun r => (pk, r)

/-! ## plans -/

/-- Why a station is served or skipped. -/
inductive PlanReason
  | ok
  | noPlatform
  | noImage
  | notOtaReady
  | active
  | notInTarget
deriving DecidableEq, Repr

def PlanReason.value : PlanReason → String
  | .ok => "ok"
  | .noPlatform => "no_platform"
  | .noImage => "no_image"
  | .notOtaReady => "not_ota_ready"
  | .active => "active_deployment"
  | .notInTarget => "not_in_target"

/-- What a deployment of a version would do for one station. -/
structure StationPlan where
  pk : Pk
  station : Station
  release : Option Pk
  reason : PlanReason
  message : String := ""
  channelSwitch : Bool := false
  downgrade : Bool := false
  supersedes : Option Pk := none
deriving DecidableEq, Repr

def StationPlan.ok (p : StationPlan) : Bool := p.reason = .ok

/-- Skip message for a station in the middle of another deployment. -/
def activeConflictMessage (pk : Pk) (label : String) (deployment : Pk) : String :=
  s!"Station {pk} is mid-deployment ({label} on deployment #{deployment})"

/-- The newest result of a station with a status of the given kind. -/
def newestResult (db : Db) (pk : Pk) (kind : ResultStatus → Bool) :
    Option (ResultKey × DeploymentResult) :=
  db.results.entries.reverse.find? fun e => e.1.station = pk ∧ kind e.2.status

/-- A result past `pending`: status and deployment. -/
def midFlight (db : Db) (pk : Pk) : Option (ResultStatus × Pk) :=
  (newestResult db pk fun s => s ∈ ResultStatus.activeStatuses).map fun e =>
    (e.2.status, e.1.deployment)

/-- The deployment of a pending result, which a new one would supersede. -/
def queued (db : Db) (pk : Pk) : Option Pk :=
  (newestResult db pk fun s => s = .pending).map fun e => e.1.deployment

/-- The release of a version for a machine; archived ones are not deployable. -/
def versionRelease (db : Db) (tag channel machine : String) : Option (Pk × ImageRelease) :=
  db.images.entries.find? fun e =>
    e.2.tag = tag ∧ e.2.channel = channel ∧ e.2.machine = machine ∧ ¬e.2.archived

/-- The plan for one station. -/
def planStation (db : Db) (tag channel : String) (e : Pk × Station) : StationPlan :=
  let (pk, station) := e
  match currentRelease db station with
  | none =>
    { pk, station, release := none, reason := .noPlatform
      message := "Platform unknown — station was not provisioned via station-manager." }
  | some (currentPk, current) =>
    let channelSwitch : Bool := stationChannel db station ≠ channel
    match versionRelease db tag channel current.machine with
    | none =>
      { pk, station, release := none, reason := .noImage, channelSwitch
        message :=
          s!"Version {tag} ({channel}) is not imported for machine {current.machine}." }
    | some (releasePk, release) =>
      let downgrade : Bool := releasePk ≠ currentPk ∧ ¬isNewer release current
      if ¬release.isOtaReady then
        { pk, station, release := some releasePk, reason := .notOtaReady, channelSwitch
          downgrade
          message := s!"Release {release.tag} is not OTA-ready (rootfs artifact missing)." }
      else match midFlight db pk with
        | some (status, deployment) =>
          { pk, station, release := some releasePk, reason := .active, channelSwitch
            downgrade, message := activeConflictMessage pk status.label deployment }
        | none =>
          { pk, station, release := some releasePk, reason := .ok, channelSwitch, downgrade
            supersedes := queued db pk }

section

variable (db : Db) (tag channel : String) (e : Pk × Station)

@[simp] theorem planStation_pk : (planStation db tag channel e).pk = e.1 := by
  simp only [planStation]
  repeat' split
  all_goals rfl

end

/-- The source's `plan_deployment`. -/
def planDeployment (db : Db) (tag channel : String) (stations : List (Pk × Station)) :
    List StationPlan :=
  stations.map (planStation db tag channel)

/-- A station that dropped out of the target while its row was being locked. -/
def notInTarget (db : Db) (p : StationPlan) (group : Option Pk) : StationPlan :=
  { pk := p.pk, station := p.station, release := none, reason := .notInTarget
    message := match group.bind db.groups.get? with
      | some g => s!"Station is no longer in rollout group {g.name}."
      | none => "Station is no longer part of the deployment target." }

/-! ## targets -/

/-- Arguments of `create_deployment` that its logic reads; `stations` restricts
the target to a given list. -/
structure CreateRequest where
  tag : String
  channel : String
  targetType : TargetType
  targetGroup : Option Pk
  targetStation : Option Pk
  stations : Option (List Pk) := none
deriving DecidableEq, Repr

/-- The source's `get_target_stations`. -/
def targetStations (db : Db) (r : CreateRequest) : List (Pk × Station) :=
  match r.targetType with
  | .group => if r.targetGroup.isSome then
      db.stations.entries.filter fun e => e.2.rolloutGroup = r.targetGroup else []
  | .station => db.stations.entries.filter fun e => some e.1 = r.targetStation
  | .all => db.stations.entries

/-- The stations to plan for. -/
def requestedStations (db : Db) (r : CreateRequest) : List (Pk × Station) :=
  match r.stations with
  | some pks => pks.filterMap fun pk => (db.stations.get? pk).map fun st => (pk, st)
  | none => targetStations db r

/-- The group whose membership is checked again under the lock. -/
def CreateRequest.memberOf (r : CreateRequest) : Option Pk :=
  if r.targetType = .group then r.targetGroup else none

/-- The station rows that `create_deployment` locks: those of the servable
stations, in key order, still in the group. -/
def lockedStations (db : Db) (r : CreateRequest) (plans : List StationPlan) : List (Pk × Station) :=
  let pks := (plans.filter StationPlan.ok).map StationPlan.pk
  (db.stations.entries.filter fun e =>
    e.1 ∈ pks ∧ (r.memberOf = none ∨ e.2.rolloutGroup = r.memberOf)).insertionSort
    fun a b => a.1 ≤ b.1

/-- Plans made again on the locked rows. -/
def replan (db : Db) (r : CreateRequest) (plans : List StationPlan) (locked : List (Pk × Station)) :
    List StationPlan :=
  let replanned := planDeployment db r.tag r.channel locked
  plans.map fun p =>
    if p.ok then (replanned.find? fun q => q.pk = p.pk).getD (notInTarget db p r.memberOf) else p

end StationManager.Deployments
