import Mathlib.Data.List.Dedup
import Mathlib.Data.List.Sort
import StationManager.Lib.RowLocks
import StationManager.Lib.Transition
import StationManager.Monitoring.Engine

/-!
# StationManager.Monitoring.Resets

The writers of threshold alerts and states, statement by statement over a
database at read committed: engine runs, saves and deletes of rules with the
signals that reset their evaluation, and saves of metric definitions with the
reset of a blocked metric.

The shared state is what is committed, with the row locks.  In an atomic block
the writes become visible at its commit, where the process makes them at once;
outside of one every statement commits by itself, and the reset that a signal
makes is a transaction of its own.
-/

namespace StationManager.Monitoring

/-! ## the writes -/

namespace Db

/-- Resolve the alerts that `p` selects and drop the states that `q` selects. -/
def clear (db : Db) (now : Time) (p : Pk → Alert → Bool) (q : StateKey → Bool) : Db :=
  { db.resolveAlerts now p with states := db.states.filter fun k _ => !q k }

/-- The statements of `reset_rule_evaluation` -/
def resetRule (db : Db) (now : Time) (pk : Pk) : Db :=
  db.clear now (fun _ a => a.rule = some pk) fun k => k.rule = pk

/-- The statements of `reset_metric_evaluation` once the alerts are known -/
def resetMetric (db : Db) (now : Time) (key : String) (ids : List Pk) : Db :=
  db.clear now (fun pk _ => ids.contains pk) fun k => k.metricKey = key

/-- The rule row as a save leaves it: an UPDATE, or an INSERT where no row was found. -/
def putRule (db : Db) (pk : Pk) (row : AlertRule) : Db :=
  { db with rules := db.rules.put pk row }

/-- The deletion of a rule row: its states go with it, its alerts lose it. -/
def eraseRule (db : Db) (now : Time) (pk : Pk) : Db :=
  let db := db.clear now (fun _ _ => false) fun k => k.rule = pk
  { db with
    rules := db.rules.erase pk
    alerts := db.alerts.map fun _ a => if a.rule = some pk then { a with rule := none } else a }

def putMetric (db : Db) (key : String) (row : MetricDefinition) : Db :=
  { db with definitions := db.definitions.modify key fun _ => row }

/-- A heartbeat describes a metric: a new row is unblocked, and of an existing one only the
agent's fields are written. -/
def describe (db : Db) (key : String) (row : MetricDefinition) : Db :=
  { db with
    definitions := (db.definitions.insert key {}).modify key fun old =>
      { old with label := row.label, unit := row.unit, precision := row.precision } }

/-- The metric is blocked. -/
def blocked (db : Db) (key : String) : Bool :=
  (db.definitions.get? key).any MetricDefinition.isBlocked

/-- A threshold rule that can evaluate the key, active or not. -/
def matchesKey (db : Db) (rule : Pk) (key : String) : Bool :=
  (db.rules.get? rule).any fun r =>
    r.alertType = .threshold && keyMatchesPattern key r.metricKey

/-- The rules that `reset_metric_evaluation` locks, ordered by key. -/
def resetRuleIds (db : Db) (key : String) : List Pk :=
  (((db.rules.entries.map Prod.fst).filter fun pk => db.matchesKey pk key) ++
    ((db.states.entries.map Prod.fst).filter fun k => k.metricKey = key).map
      StateKey.rule).dedup.insertionSort (· ≤ ·)

/-- The alerts of the states of a metric. -/
def alertsOfMetric (db : Db) (key : String) : List Pk :=
  db.states.entries.filterMap fun e => if e.1.metricKey = key then e.2.alert else none

end Db

/-! ## processes -/

namespace Resets

structure Shared where
  db : Db
  ruleLocks : RowLocks Pk
  metricLocks : RowLocks String

/-- Whether the caller has opened an atomic block. -/
inductive Mode
  | atomic
  | autocommit
deriving DecidableEq

/-- A `save` of a rule instance.  With `eventFields` it has
`update_fields=["threshold", "is_active"]`. -/
structure RuleSave where
  mode : Mode
  pk : Pk
  inst : AlertRule
  eventFields : Bool := false

/-- A `save` of a metric definition; `writesBlocked` says whether its `update_fields`, if
any, hold `is_blocked`. -/
structure MetricSave where
  mode : Mode
  key : String
  inst : MetricDefinition
  writesBlocked : Bool := true

/-- The row that a save writes over an old one. -/
def RuleSave.over (save : RuleSave) (old : AlertRule) : AlertRule :=
  if save.eventFields then
    { old with threshold := save.inst.threshold, isActive := save.inst.isActive }
  else save.inst

def MetricSave.over (save : MetricSave) (old : MetricDefinition) : MetricDefinition :=
  if save.writesBlocked then save.inst else { save.inst with isBlocked := old.isBlocked }

inductive Request
  /-- `_check_thresholds` -/
  | engine (now : Time)
  | saveRule (save : RuleSave)
  /-- `delete` of an instance with this `alert_type`. -/
  | deleteRule (pk : Pk) (alertType : AlertType)
  | saveMetric (save : MetricSave)
  /-- Heartbeats: stations and samples change in any way. -/
  | ingest (stations : Table Pk Station)
      (telemetry : Table Pk (Option (Table String (Option Sample))))
  /-- Heartbeats: a metric is described. -/
  | describe (key : String) (row : MetricDefinition)

/-- Where a process stands: what it does next, with what it has read. -/
inductive Proc
  | loadRules (now : Time)
  | loadDefinitions (now : Time) (rules : List (Pk × AlertRule))
  | loadTelemetry (now : Time) (rules : List (Pk × AlertRule))
      (definitions : Table String MetricDefinition)
  | lockRule (l : Loaded) (rest : List (Pk × AlertRule))
  | checkBlocked (l : Loaded) (rest : List (Pk × AlertRule)) (pk : Pk) (rule : AlertRule)
      (candidates : List Candidate)
  | readStates (l : Loaded) (rest : List (Pk × AlertRule)) (pk : Pk) (rule : AlertRule)
      (candidates : List Candidate)
  | commitRule (l : Loaded) (rest : List (Pk × AlertRule)) (pk : Pk) (rule : AlertRule)
      (outcomes : List Outcome)
  /-- `pre_save` of a rule -/
  | detectChange (save : RuleSave)
  | updateRule (save : RuleSave) (reset : Bool)
  /-- The atomic block has made its UPDATE, and its reset if it makes one. -/
  | commitSave (save : RuleSave) (reset : Bool)
  /-- `reset_rule_evaluation` in a transaction of its own -/
  | lockReset (pk : Pk)
  | commitReset (pk : Pk)
  | lockDelete (pk : Pk) (alertType : AlertType)
  | commitDelete (pk : Pk)
  /-- `pre_save` of a metric definition -/
  | detectBlock (save : MetricSave)
  | updateMetric (save : MetricSave) (reset : Bool)
  | commitMetric (save : MetricSave)
  /-- `reset_metric_evaluation` of the save; an atomic block is still to commit its
  UPDATE -/
  | collectRules (save : MetricSave)
  | lockRules (save : MetricSave) (todo : List Pk)
  | readAlerts (save : MetricSave)
  | commitBlock (save : MetricSave) (ids : List Pk)
  | ingest (stations : Table Pk Station)
      (telemetry : Table Pk (Option (Table String (Option Sample))))
  | describe (key : String) (row : MetricDefinition)

/-- The first state of the process for a request. -/
def start (_ : Shared) : Request → Option Proc
  | .engine now => some (.loadRules now)
  | .saveRule save => some (.detectChange save)
  | .deleteRule pk t => some (.lockDelete pk t)
  | .saveMetric save => some (.detectBlock save)
  | .ingest stations telemetry => some (.ingest stations telemetry)
  | .describe key row => some (.describe key row)

namespace Shared

/-- The end of a transaction. -/
def release (s : Shared) (i : Nat) : Shared :=
  { s with ruleLocks := s.ruleLocks.release i, metricLocks := s.metricLocks.release i }

/-- Take a rule row, or wait. -/
def takeRule (s : Shared) (i : Nat) (pk : Pk) : Option Shared :=
  (s.ruleLocks.acquire i [pk]).map fun l => { s with ruleLocks := l }

def takeMetric (s : Shared) (i : Nat) (key : String) : Option Shared :=
  (s.metricLocks.acquire i [key]).map fun l => { s with metricLocks := l }

def write (s : Shared) (db : Db) : Shared := { s with db }

end Shared

/-- `detect_threshold_rule_change` -/
def detectThresholdRuleChange (db : Db) (save : RuleSave) : Bool :=
  (db.rules.get? save.pk).any fun old =>
    (old.alertType = .threshold || save.inst.alertType = .threshold) &&
      evaluationChanged old save.inst

/-- `detect_metric_block` -/
def detectMetricBlock (db : Db) (save : MetricSave) : Bool :=
  save.inst.isBlocked && save.writesBlocked &&
    (db.definitions.get? save.key).any fun old => !old.isBlocked

/-- The rule row that a save makes visible, unless it fails: an INSERT of named fields
only is an error. -/
def RuleSave.row (save : RuleSave) (db : Db) : Option AlertRule :=
  match db.rules.get? save.pk with
  | some old => some (save.over old)
  | none => if save.eventFields then none else some save.inst

/-- The rules after a save. -/
def RuleSave.apply (save : RuleSave) (db : Db) : Db :=
  (save.row db).elim db (db.putRule save.pk)

/-- The definitions after a save; rows are never deleted. -/
def MetricSave.apply (save : MetricSave) (db : Db) : Db :=
  match db.definitions.get? save.key with
  | some old => db.putMetric save.key (save.over old)
  | none => db

/-- The reset of a save is made only where the row was there before. -/
def RuleSave.resets (save : RuleSave) (reset : Bool) (db : Db) : Bool :=
  reset && (db.rules.get? save.pk).isSome

/-- One statement of process `i`, at time `now`. -/
def act (i : Nat) (s : Shared) (p : Proc) (now : Time) : Option (Shared × Option Proc) :=
  match p with
  | .loadRules t => some (s, some (.loadDefinitions t (s.db.load t).rules))
  | .loadDefinitions t rules => some (s, some (.loadTelemetry t rules (s.db.load t).definitions))
  | .loadTelemetry t rules definitions =>
    some (s, some (.lockRule ⟨rules, definitions, s.db.current t, t⟩ rules))
  | .lockRule _ [] => some (s, none)
  | .lockRule l (e :: rest) =>
    if (thresholdCandidates l.current l.definitions e.2.metricKey).isEmpty then
      some (s, some (.lockRule l rest))
    else (s.takeRule i e.1).map fun s' =>
      match s.db.lockedRule e.1 with
      | none => (s, some (.lockRule l rest))
      | some rule =>
        let candidates := thresholdCandidates l.current l.definitions rule.metricKey
        (s', some (.checkBlocked l rest e.1 rule candidates))
  | .checkBlocked l rest pk rule candidates =>
    let keys := s.db.blockedKeys candidates
    some (s, some (.readStates l rest pk rule
      (candidates.filter fun c => !keys.contains c.key)))
  | .readStates l rest pk rule candidates =>
    some (s, some (.commitRule l rest pk rule
      (evaluateThresholdRule pk rule candidates s.db.states s.db.alerts l.now)))
  | .commitRule l rest _ _ outcomes =>
    some ((s.write (s.db.applyOutcomes l.now outcomes).1).release i, some (.lockRule l rest))
  | .detectChange save => some (s, some (.updateRule save (detectThresholdRuleChange s.db save)))
  | .updateRule save reset =>
    (s.takeRule i save.pk).map fun s' =>
      match save.mode with
      | .atomic => (s', some (.commitSave save reset))
      | .autocommit =>
        (s.write (save.apply s.db),
          if save.resets reset s.db then some (.lockReset save.pk) else none)
  | .commitSave save reset =>
    let db := if save.resets reset s.db then s.db.resetRule now save.pk else s.db
    some ((s.write (save.apply db)).release i, none)
  | .lockReset pk =>
    -- a row that is gone has neither states nor alerts
    if (s.db.rules.get? pk).isNone then some (s, none)
    else (s.takeRule i pk).map fun s' => (s', some (.commitReset pk))
  | .commitReset pk => some ((s.write (s.db.resetRule now pk)).release i, none)
  | .lockDelete pk t =>
    if (s.db.rules.get? pk).isNone then some (s, none)
    else (s.takeRule i pk).map fun s' =>
      if t = .threshold then (s', some (.commitDelete pk))
      else (s.write (s.db.eraseRule now pk), none)
  | .commitDelete pk => some ((s.write ((s.db.resetRule now pk).eraseRule now pk)).release i, none)
  | .detectBlock save => some (s, some (.updateMetric save (detectMetricBlock s.db save)))
  | .updateMetric save reset =>
    (s.takeMetric i save.key).map fun s' =>
      match save.mode with
      | .atomic => (s', some (if reset then .collectRules save else .commitMetric save))
      | .autocommit =>
        (s.write (save.apply s.db), if reset then some (.collectRules save) else none)
  | .commitMetric save => some ((s.write (save.apply s.db)).release i, none)
  | .collectRules save => some (s, some (.lockRules save (s.db.resetRuleIds save.key)))
  | .lockRules save [] => some (s, some (.readAlerts save))
  | .lockRules save (pk :: todo) =>
    if (s.db.rules.get? pk).isNone then some (s, some (.lockRules save todo))
    else (s.takeRule i pk).map fun s' => (s', some (.lockRules save todo))
  | .readAlerts save => some (s, some (.commitBlock save (s.db.alertsOfMetric save.key)))
  | .commitBlock save ids =>
    let db := s.db.resetMetric now save.key ids
    let db := match save.mode with
      | .atomic => save.apply db
      | .autocommit => db
    some ((s.write db).release i, none)
  | .ingest stations telemetry => some (s.write { s.db with stations, telemetry }, none)
  | .describe key row => some (s.write (s.db.describe key row), none)

def dbStep : Pool Shared Proc → Sched Request Time → Option (Pool Shared Proc) :=
  Pool.step start act

end Resets
end StationManager.Monitoring
