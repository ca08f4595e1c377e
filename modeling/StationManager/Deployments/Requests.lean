import StationManager.Deployments.Plan
import StationManager.Deployments.Rollup
import StationManager.Lib.RowLocks
import StationManager.Lib.Transition

/-!
# StationManager.Deployments.Requests

The requests that write deployment results, as processes over one database
with row locks, at the isolation level of the deployment (read committed): a
statement sees what is committed and what its own transaction has written, and
waits while another transaction holds a row it locks or updates.

A process stands before its next statement.  Statements that follow each other
on rows the transaction already holds are one step, since no other process can
come between them; a read without a lock is a step of its own, and so is every
wait for a lock.  `DeploymentStatusUpdateView` locks the result and its
deployment before it looks at them; `DeploymentCommitView` looks first and
saves later; `DeploymentCancelView` locks the open results, then the
deployment; `create_deployment` keeps everything it writes to itself until it
commits.
-/

namespace StationManager.Deployments

/-! ## requests, rows and responses -/

/-- The statuses a station may report. -/
inductive Report
  | downloading
  | installing
  | rebooting
  | verifying
  | failed
  | rolledBack
deriving DecidableEq, Repr

def Report.status : Report → ResultStatus
  | .downloading => .downloading
  | .installing => .installing
  | .rebooting => .rebooting
  | .verifying => .verifying
  | .failed => .failed
  | .rolledBack => .rolledBack

inductive Request
  | statusUpdate (station : Pk) (k : ResultKey) (status : Report) (message : String)
  | commit (station : Pk) (version : String)
  | cancel (d : Pk)
  | create (r : CreateRequest)
  | regroup (station : Pk) (group : Option Pk)

inductive Response
  | ok
  | notFound (detail : String)
  | conflict (detail : String)
  | created (d : Pk) (plans : List StationPlan)
  | noEligibleStations (plans : List StationPlan)
  | cancelled
  | notCancellable
  | serverError
deriving DecidableEq, Repr

/-- Rows that can be locked. -/
inductive Row
  | station (pk : Pk)
  | deployment (pk : Pk)
  | result (k : ResultKey)
deriving DecidableEq, Repr

/-- The committed database, the holders of row locks, and the next value of the
key sequence of deployments. -/
structure Server where
  db : Db
  locks : RowLocks Row
  nextDeployment : Pk

namespace Server

def lock (s : Server) (i : Nat) (rows : List Row) : Option Server :=
  (s.locks.acquire i rows).map fun locks => { s with locks }

/-- End of the transaction of process `i`. -/
def unlock (s : Server) (i : Nat) : Server := { s with locks := s.locks.release i }

def isFree (s : Server) (i : Nat) (row : Row) : Bool := s.locks.isFree i row

def setDb (s : Server) (db : Db) : Server := { s with db }

end Server

/-! ## the transaction of a creation -/

/-- What an open `create_deployment` has done: the new deployment, the stations
still to do, and what it has written (new results, superseded results, closed
deployments). -/
structure Tx where
  request : CreateRequest
  deployment : Pk
  createdAt : Time
  plans : List StationPlan
  todo : List StationPlan
  finals : List StationPlan := []
  results : List (ResultKey × DeploymentResult) := []
  superseded : List (ResultKey × Time) := []
  closed : List (Pk × DeploymentStatus) := []

namespace Tx

/-- The plans reported at the end, in target order. -/
def finalPlans (tx : Tx) : List StationPlan :=
  tx.plans.filterMap fun p => tx.finals.find? fun q => q.pk = p.pk

/-- The row of the new deployment. -/
def row (tx : Tx) : Deployment where
  imageTag := tx.request.tag
  imageChannel := tx.request.channel
  targetType := tx.request.targetType
  targetGroup := tx.request.targetGroup
  targetStation := tx.request.targetStation
  status := .inProgress
  skippedStations := (tx.finalPlans.filter fun p => ¬p.ok).map fun p =>
    ⟨p.pk, p.station.name, p.reason.value, p.message⟩
  createdAt := tx.createdAt

/-- A result as the transaction sees it. -/
def seenResult (tx : Tx) (k : ResultKey) (r : DeploymentResult) : DeploymentResult :=
  match tx.superseded.find? fun e => e.1 = k with
  | some e => r.supersede e.2
  | none => r

/-- A deployment as the transaction sees it. -/
def seenDeployment (tx : Tx) (d : Pk) (dep : Deployment) : Deployment :=
  match tx.closed.find? fun e => e.1 = d with
  | some e => { dep with status := e.2 }
  | none => dep

/-- The database as the transaction sees it, and as it is once it has
committed. -/
def view (tx : Tx) (db : Db) : Db :=
  { db with
    deployments := (db.deployments.map tx.seenDeployment).insert tx.deployment tx.row
    results := (db.results.map tx.seenResult).insertAll tx.results }

/-- The new result of a station. -/
def newResult (p : StationPlan) : DeploymentResult :=
  { imageRelease := p.release.getD 0, previousVersion := p.station.currentOsVersion }

/-- A station that turned out to be in the middle of another deployment. -/
def skipActive (p : StationPlan) (k : ResultKey) (r : DeploymentResult) : StationPlan :=
  { pk := p.pk, station := p.station, release := p.release, reason := .active
    message := activeConflictMessage p.pk r.status.label k.deployment
    channelSwitch := p.channelSwitch, downgrade := p.downgrade }

end Tx

/-- The results that `supersede_pending_for_station` locks. -/
def unfinishedElsewhere (db : Db) (station new : Pk) : List (ResultKey × DeploymentResult) :=
  db.results.entries.reverse.filter fun e =>
    e.1.station = station ∧ e.2.status.isNonTerminal ∧ e.1.deployment ≠ new

/-! ## processes -/

/-- The next statement of a request. -/
inductive Proc
  | statusLock (station : Pk) (k : ResultKey) (status : Report) (message : String)
  | statusSave (k : ResultKey) (status : Report) (message : String)
  | commitRead (station : Pk) (version : String)
  | commitSave (k : ResultKey) (version expected : String) (image : Pk)
  | commitStation (k : ResultKey) (version : String) (image : Pk) (savedAt : Time)
  | completeRead (d : Pk) (response : Response)
  | completeFailures (d : Pk) (response : Response)
  | completeUpdate (d : Pk) (status : DeploymentStatus) (response : Response)
  | cancelRead (d : Pk)
  | cancelLock (d : Pk)
  | cancelApply (d : Pk)
  | createPlan (r : CreateRequest)
  | createLock (r : CreateRequest) (plans : List StationPlan)
  | createInsert (r : CreateRequest) (plans : List StationPlan) (locked : List (Pk × Station))
  | create (tx : Tx) (close : List Pk)
  | createStatuses (tx : Tx) (d : Pk) (close : List Pk)
  | createSave (tx : Tx) (d : Pk) (status : DeploymentStatus) (close : List Pk)
  | regroup (station : Pk) (group : Option Pk)
  | respond (response : Response)

/-- The first statement of a request. -/
def start (_ : Server) : Request → Option Proc
  | .statusUpdate station k status message => some (.statusLock station k status message)
  | .commit station version => some (.commitRead station version)
  | .cancel d => some (.cancelRead d)
  | .create r => some (.createPlan r)
  | .regroup station group => some (.regroup station group)

/-- A transaction is open, so that a database error (a deadlock, say) rolls it
back. -/
def Proc.inTransaction : Proc → Bool
  | .statusLock .. | .statusSave .. | .commitStation .. | .cancelLock .. | .cancelApply ..
  | .createLock .. | .createInsert .. | .create .. | .createStatuses .. | .createSave .. => true
  | _ => false

/-- What a scheduled process meets: its statement is executed, or its
transaction is aborted by the database. -/
inductive Event
  | exec (now : Time)
  | abort

/-! ## status updates -/

def openStatuses : List DeploymentStatus := [.pending, .inProgress]

/-- Lock, read and check the result and its deployment. -/
def statusLock (s : Server) (i : Nat) (station : Pk) (k : ResultKey) (status : Report)
    (message : String) : Option (Server × Proc) :=
  match s.db.results.get? k, s.db.deployments.get? k.deployment with
  | some r, some dep =>
    if k.station = station then
      (s.lock i [.result k, .deployment k.deployment]).map fun locked =>
        if r.status.isTerminal then
          (s, .respond (.conflict
            s!"Result is already {r.status.value}; no further status updates accepted."))
        else if dep.status ∉ openStatuses then
          (s, .respond (.conflict (s!"Parent deployment is {dep.status.value}; " ++
            "status updates are no longer accepted.")))
        else (locked, .statusSave k status message)
    else some (s, .respond (.notFound "Deployment result not found."))
  | _, _ => some (s, .respond (.notFound "Deployment result not found."))

/-- Save the status and commit; a final one is followed by the roll-up. -/
def statusSave (s : Server) (i : Nat) (now : Time) (k : ResultKey) (status : Report)
    (message : String) : Server × Proc :=
  ((s.setDb (s.db.setResult k fun r => r.report now status.status message)).unlock i,
    if status.status.isFailure then .completeRead k.deployment .ok else .respond .ok)

/-! ## commits -/

/-- The first row in the order of descending creation time: of the rows with
the greatest time, the last one. -/
def newest (rows : List (Time × α)) : Option (Time × α) :=
  rows.foldl (fun best e => match best with
    | some b => if b.1 ≤ e.1 then some e else some b
    | none => some e) none

theorem mem_of_newest {rows : List (Time × α)} {e : Time × α} (h : newest rows = some e) :
    e ∈ rows := by
  have hind : ∀ (rows : List (Time × α)) (best : Option (Time × α)),
      rows.foldl (fun best e => match best with
        | some b => if b.1 ≤ e.1 then some e else some b
        | none => some e) best = some e → best = some e ∨ e ∈ rows := by
    intro rows
    induction rows with
    | nil => exact fun _ h => .inl h
    | cons f rows ih =>
      intro best hbest
      rcases ih _ hbest with hnew | hmem
      · cases best with
        | none =>
          cases hnew
          exact .inr List.mem_cons_self
        | some b =>
          simp only at hnew
          split at hnew
          · cases hnew
            exact .inr List.mem_cons_self
          · exact .inl hnew
      · exact .inr (List.mem_cons_of_mem f hmem)
  exact (hind rows none h).resolve_left fun h => nomatch h

/-- The result with the newest deployment that a commit applies to, with its
image. -/
def committableResult (db : Db) (station : Pk) : Option (ResultKey × Pk × ImageRelease) :=
  (newest (db.results.entries.filterMap fun e =>
    match db.deployments.get? e.1.deployment, db.images.get? e.2.imageRelease with
    | some dep, some image =>
      if e.1.station = station ∧ e.2.status.committable then
        some (dep.createdAt, e.1, e.2.imageRelease, image)
      else none
    | _, _ => none)).map Prod.snd

def commitRead (s : Server) (station : Pk) (version : String) : Proc :=
  match committableResult s.db station with
  | none => .respond (.notFound "No active deployment result found.")
  | some (k, pk, image) => .commitSave k version image.tag pk

/-- Save the result the commit has read before, whatever it has become.  A
commit of the deployed version keeps the row locked until the station is
saved. -/
def commitSave (s : Server) (i : Nat) (now : Time) (k : ResultKey) (version expected : String)
    (image : Pk) : Option (Server × Proc) :=
  if version ≠ expected then
    if s.isFree i (.result k) then
      some (s.setDb (s.db.setResult k fun r =>
          r.rollBack now version (mismatchMessage version expected)),
        .completeRead k.deployment (.conflict "Version mismatch — recorded as rolled_back."))
    else none
  else (s.lock i [.result k]).map fun s => (s, .commitStation k version image now)

/-- Move the station's pointer and commit. -/
def commitStation (s : Server) (i : Nat) (k : ResultKey) (version : String) (image : Pk)
    (savedAt : Time) : Option (Server × Proc) :=
  if s.isFree i (.station k.station) then
    let saved := s.db.setResult k fun r => r.commit savedAt version
    let moved := saved.setStation k.station fun st => { st with currentImageRelease := some image }
    some ((s.setDb moved).unlock i, .completeRead k.deployment .ok)
  else none

/-! ## completion -/

/-- The three statements of `_check_deployment_complete`. -/
def completeRead (s : Server) (d : Pk) (response : Response) : Proc :=
  if s.db.hasOpen d then .respond response else .completeFailures d response

def completeFailures (s : Server) (d : Pk) (response : Response) : Proc :=
  .completeUpdate d (completeStatus (s.db.childStatuses d)) response

def completeUpdate (s : Server) (i : Nat) (d : Pk) (status : DeploymentStatus)
    (response : Response) : Option (Server × Proc) :=
  if s.isFree i (.deployment d) then
    some (s.setDb (s.db.flipInProgress d status), .respond response)
  else none

/-! ## cancellation -/

def cancelRead (s : Server) (d : Pk) : Proc :=
  match s.db.deployments.get? d with
  | none => .respond (.notFound "")
  | some dep => if dep.status ∈ openStatuses then .cancelLock d else .respond .notCancellable

def cancelLock (s : Server) (i : Nat) (d : Pk) : Option (Server × Proc) :=
  (s.lock i ((s.db.openResults d).map .result)).map fun s => (s, .cancelApply d)

/-- The database after the cancellation of a deployment. -/
def Db.cancelDeployment (db : Db) (now : Time) (d : Pk) : Db :=
  let db := db.setStatus d .cancelled
  { db with results := db.results.map fun k r =>
      if k.deployment = d ∧ r.status.isNonTerminal then r.cancel now else r }

/-- Lock the deployment, look at it again, cancel it and its open results, and
commit. -/
def cancelApply (s : Server) (i : Nat) (now : Time) (d : Pk) : Option (Server × Proc) :=
  (s.lock i (.deployment d :: (s.db.openResults d).map .result)).map fun locked =>
    if (s.db.statusOf d).any fun status => status ∈ openStatuses then
      ((locked.setDb (s.db.cancelDeployment now d)).unlock i, .respond .cancelled)
    else (locked.unlock i, .respond .notCancellable)

/-! ## creation -/

def createPlan (s : Server) (r : CreateRequest) : Proc :=
  let plans := planDeployment s.db r.tag r.channel (requestedStations s.db r)
  if plans.any StationPlan.ok then .createLock r plans else .respond (.noEligibleStations plans)

def createLock (s : Server) (i : Nat) (r : CreateRequest) (plans : List StationPlan) :
    Option (Server × Proc) :=
  let locked := lockedStations s.db r plans
  (s.lock i (locked.map fun e => .station e.1)).map fun s => (s, .createInsert r plans locked)

/-- Plan again and insert the deployment; its key comes from the sequence, and
its row belongs to the transaction. -/
def createInsert (s : Server) (i : Nat) (now : Time) (r : CreateRequest) (plans : List StationPlan)
    (locked : List (Pk × Station)) : Option (Server × Proc) :=
  let plans := replan s.db r plans locked
  let d := s.nextDeployment
  (s.lock i [.deployment d]).map fun s =>
    ({ s with nextDeployment := d + 1 },
      .create
        { request := r, deployment := d, createdAt := now, plans
          todo := plans.insertionSort fun p q => p.pk ≤ q.pk } [])

/-- Insert the result of the next station and run
`supersede_pending_for_station`; a station in the middle of another deployment
is skipped, and the locks of its savepoint are given back. -/
def createStation (s : Server) (i : Nat) (now : Time) (tx : Tx) (p : StationPlan)
    (todo : List StationPlan) : Option (Server × Proc) :=
  if p.ok then
    let rows := unfinishedElsewhere (tx.view s.db) p.pk tx.deployment
    (s.lock i (rows.map fun e => .result e.1)).map fun locked =>
      match rows.find? fun e => e.2.status ≠ .pending with
      | some (k, r) => (s, .create { tx with todo, finals := tx.finals ++ [Tx.skipActive p k r] } [])
      | none =>
        (locked, .create
          { tx with
            todo, finals := tx.finals ++ [p]
            results := tx.results ++ [(⟨tx.deployment, p.pk⟩, Tx.newResult p)]
            superseded := tx.superseded ++ rows.map fun e => (e.1, now) }
          (rows.map fun e => e.1.deployment).dedup)
  else some (s, .create { tx with todo, finals := tx.finals ++ [p] } [])

/-- Commit, unless no station is left. -/
def createFinish (s : Server) (i : Nat) (tx : Tx) : Server × Proc :=
  if tx.finals.any StationPlan.ok then
    ((s.setDb (tx.view s.db)).unlock i, .respond (.created tx.deployment tx.finalPlans))
  else (s.unlock i, .respond (.noEligibleStations tx.finalPlans))

/-- The statements of `_close_out_deployments_with_superseded_results` for one
deployment: is it in progress, what are its children's statuses, save. -/
def createClose (s : Server) (tx : Tx) (d : Pk) (close : List Pk) : Proc :=
  if (tx.view s.db).statusOf d = some .inProgress then .createStatuses tx d close
  else .create tx close

def createStatuses (s : Server) (tx : Tx) (d : Pk) (close : List Pk) : Proc :=
  let statuses := (tx.view s.db).childStatuses d
  if statuses ≠ [] ∧ statuses.all ResultStatus.isTerminal then
    .createSave tx d (closeOutStatus statuses) close
  else .create tx close

def createSave (s : Server) (i : Nat) (tx : Tx) (d : Pk) (status : DeploymentStatus)
    (close : List Pk) : Option (Server × Proc) :=
  (s.lock i [.deployment d]).map fun s =>
    (s, .create { tx with closed := tx.closed ++ [(d, status)] } close)

/-! ## the system -/

/-- Move a station to another rollout group. -/
def regroup (s : Server) (i : Nat) (station : Pk) (group : Option Pk) : Option (Server × Proc) :=
  if s.isFree i (.station station) then
    some (s.setDb (s.db.setStation station fun st => { st with rolloutGroup := group }),
      .respond .ok)
  else none

/-- Execute the next statement of a process. -/
def exec (i : Nat) (s : Server) (now : Time) : Proc → Option (Server × Proc)
  | .statusLock station k status message => statusLock s i station k status message
  | .statusSave k status message => some (statusSave s i now k status message)
  | .commitRead station version => some (s, commitRead s station version)
  | .commitSave k version expected image => commitSave s i now k version expected image
  | .commitStation k version image savedAt => commitStation s i k version image savedAt
  | .completeRead d response => some (s, completeRead s d response)
  | .completeFailures d response => some (s, completeFailures s d response)
  | .completeUpdate d status response => completeUpdate s i d status response
  | .cancelRead d => some (s, cancelRead s d)
  | .cancelLock d => cancelLock s i d
  | .cancelApply d => cancelApply s i now d
  | .createPlan r => some (s, createPlan s r)
  | .createLock r plans => createLock s i r plans
  | .createInsert r plans locked => createInsert s i now r plans locked
  | .create tx (d :: close) => some (s, createClose s tx d close)
  | .create tx [] => match tx.todo with
      | p :: todo => createStation s i now tx p todo
      | [] => some (createFinish s i tx)
  | .createStatuses tx d close => some (s, createStatuses s tx d close)
  | .createSave tx d status close => createSave s i tx d status close
  | .regroup station group => regroup s i station group
  | .respond _ => none

/-- One step of a process. -/
def act (i : Nat) (s : Server) (p : Proc) : Event → Option (Server × Option Proc)
  | .exec now => match p with
      | .respond _ => some (s, none)
      | p => (exec i s now p).map fun r => (r.1, some r.2)
  | .abort => if p.inTransaction then some (s.unlock i, some (.respond .serverError)) else none

/-- The server: any number of requests over one database. -/
def serverStep : Pool Server Proc → Sched Request Event → Option (Pool Server Proc) :=
  Pool.step start act

end StationManager.Deployments
