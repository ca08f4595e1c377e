import StationManager.Monitoring.Rules

/-!
# StationManager.Monitoring.Engine

`_check_thresholds`: the evaluation of threshold rules over the current samples
of all stations.

A rule is evaluated on rows read under its lock (`evaluateThresholdRule`), which
yields one `Outcome` for each candidate with a numeric value; `applyOutcome`
makes its writes.  `checkThresholds` strings both together for every rule, as
one run of the engine does when nothing else happens in between.
-/

namespace StationManager.Monitoring

/-! ## current samples -/

/-- `_sample_is_current` -/
def sampleIsCurrent (sample : Sample) (now : Time) : Bool :=
  sample.ts.any fun ts => (now : Int) - ts ≤ (offlineThreshold : Int)

/-- A metric of a station, if it has a current sample. -/
def currentSample (now : Time) (e : String × Option Sample) : Option (String × Sample) :=
  (e.2.filter fun sample => sampleIsCurrent sample now).map fun sample => (e.1, sample)

/-- The samples of one station that are current. -/
def currentSamples (metrics : Option (Table String (Option Sample))) (now : Time) :
    List (String × Sample) :=
  metrics.elim [] fun t => t.entries.filterMap (currentSample now)

/-- A telemetry row with its station, if that was seen within the threshold. -/
def Db.currentStation (db : Db) (now : Time) (e : Pk × Option (Table String (Option Sample))) :
    Option (Pk × Station × List (String × Sample)) :=
  ((db.stations.get? e.1).filter fun st => st.current offlineThreshold now).map fun st =>
    (e.1, st, currentSamples e.2 now)

/-- The stations seen within the threshold, each with its current samples. -/
def Db.current (db : Db) (now : Time) : List (Pk × Station × List (String × Sample)) :=
  db.telemetry.entries.filterMap (db.currentStation now)

/-- One entry of `_threshold_candidates`. -/
structure Candidate where
  station : Pk
  stationRow : Station
  key : String
  sample : Sample
  definition : MetricDefinition
deriving DecidableEq

/-- A sample that is defined and matches the pattern. -/
def thresholdCandidate (definitions : Table String MetricDefinition) (pattern : String)
    (station : Pk) (stationRow : Station) (m : String × Sample) : Option Candidate :=
  if keyMatchesPattern m.1 pattern then
    (definitions.get? m.1).map fun defn => ⟨station, stationRow, m.1, m.2, defn⟩
  else none

/-- `_threshold_candidates` -/
def thresholdCandidates (current : List (Pk × Station × List (String × Sample)))
    (definitions : Table String MetricDefinition) (pattern : String) : List Candidate :=
  current.flatMap fun e => e.2.2.filterMap (thresholdCandidate definitions pattern e.1 e.2.1)

/-! ## the evaluation of a rule -/

/-- `sample.get(rule.aggregate)` -/
def Sample.get (sample : Sample) : Aggregate → Option Control.Scalar
  | .avg => sample.avg
  | .min => sample.min
  | .max => sample.max

/-- The number to compare: booleans and texts are no values, and a stored sample (`jsonb`) is
neither a NaN nor infinite. -/
def numeric : Option Control.Scalar → Option Rat
  | some (.int n) => some n
  | some (.float (.finite q)) => some q
  | _ => none

/-- What an evaluation does to the alert of its state. -/
inductive Action
  | keep
  | fire (title message : String)
  | clear (alert : Pk)
deriving DecidableEq

/-- The duration of a rule as a time span. -/
def AlertRule.duration (rule : AlertRule) : Time := rule.durationSeconds * 1000000

namespace ThresholdState

/-- Pending timers restart after a gap. -/
def restart (st : ThresholdState) (now : Time) (isOpen : Bool) : ThresholdState :=
  if st.lastEvaluatedAt.any fun last => last + offlineThreshold < now then
    { st with
      breachSince := if !isOpen then st.breachSince.map fun _ => now else st.breachSince
      okSince := st.okSince.map fun _ => now }
  else st

/-- What becomes of the alert. -/
inductive Turn
  | keep
  | fire (since : Time)
  | clear
deriving DecidableEq

/-- The timers after a value, and whether the alert fires or clears. -/
def turn (st : ThresholdState) (duration now : Time) (isOpen breach : Bool) :
    ThresholdState × Turn :=
  if breach then
    let since := st.breachSince.getD now
    ({ st with okSince := none, breachSince := some since },
      if !isOpen && since + duration ≤ now then .fire since else .keep)
  else if isOpen then
    let since := st.okSince.getD now
    if since + duration ≤ now then
      ({ st with breachSince := none, okSince := none, alert := none }, .clear)
    else ({ st with breachSince := none, okSince := some since }, .keep)
  else ({ st with breachSince := none, okSince := none, alert := none }, .keep)

/-- `last_evaluated_at` moves while a timer is pending. -/
def touch (st : ThresholdState) (now : Time) (isOpen : Bool) : ThresholdState :=
  if st.okSince.isSome || (st.breachSince.isSome && !isOpen) then
    { st with lastEvaluatedAt := some now }
  else st

/-- Whether an alert is open once the turn was made. -/
def Turn.leavesOpen (isOpen : Bool) : Turn → Bool
  | .keep => isOpen
  | .fire _ => true
  | .clear => false

/-- The evaluation of one value: the next state, up to the key of a new alert. -/
def evaluate (st : ThresholdState) (duration now : Time) (isOpen breach : Bool) :
    ThresholdState × Turn :=
  let r := (st.restart now isOpen).turn duration now isOpen breach
  (r.1.touch now (r.2.leavesOpen isOpen), r.2)

end ThresholdState

/-- The alert that a state refers to is open. -/
def ThresholdState.openAlert (st : ThresholdState) (alerts : Table Pk Alert) : Option Pk :=
  st.alert.filter fun pk => (alerts.get? pk).any fun a => !a.isResolved

/-- The evaluation of one candidate, with the writes that it asks for. -/
structure Outcome where
  key : StateKey
  breach : Bool
  /-- The row that was read, if there was one. -/
  before : Option ThresholdState
  after : ThresholdState
  action : Action
  severity : Severity
deriving DecidableEq

/-- The action for a turn, with the texts of a new alert. -/
def actionFor (rule : AlertRule) (c : Candidate) (value : Rat) (now : Time)
    (openAlert : Option Pk) : ThresholdState.Turn → Action
  | .keep => .keep
  | .fire since => .fire
      (c.definition.displayLabel c.key ++ ": " ++ c.stationRow.name)
      (thresholdMessage c.definition c.key c.stationRow.name rule value
        ((now - since) / 1000000))
  | .clear => openAlert.elim .keep .clear

/-- One turn of the loop of `_evaluate_threshold_rule` -/
def evaluateCandidate (rulePk : Pk) (rule : AlertRule) (states : Table StateKey ThresholdState)
    (alerts : Table Pk Alert) (now : Time) (c : Candidate) : Option Outcome :=
  (numeric (c.sample.get rule.aggregate)).map fun value =>
    let key : StateKey := ⟨rulePk, c.station, c.key⟩
    let st := (states.get? key).getD {}
    let openAlert := st.openAlert alerts
    let breach := compare rule.operator value rule.threshold
    let r := st.evaluate rule.duration now openAlert.isSome breach
    { key, breach
      before := states.get? key
      after := r.1
      severity := rule.severity
      action := actionFor rule c value now openAlert r.2 }

/-- `_evaluate_threshold_rule`, on the rows read under the lock -/
def evaluateThresholdRule (rulePk : Pk) (rule : AlertRule) (candidates : List Candidate)
    (states : Table StateKey ThresholdState) (alerts : Table Pk Alert) (now : Time) :
    List Outcome :=
  candidates.filterMap (evaluateCandidate rulePk rule states alerts now)

/-- What the engine did at one key in one run. -/
structure Record where
  now : Time
  key : StateKey
  breach : Bool
  fired : Option Pk
  cleared : Option Pk
deriving DecidableEq

/-- `bulk_create` and `bulk_update`: only states that changed are written. -/
def Db.saveState (db : Db) (key : StateKey) (before : Option ThresholdState)
    (after : ThresholdState) : Db :=
  if after = before.getD {} then db
  else match before with
    | none => { db with states := db.states.insert key after }
    | some _ => { db with states := db.states.modify key fun _ => after }

/-- The writes of an outcome. -/
def Db.applyOutcome (db : Db) (now : Time) (o : Outcome) : Db × Record :=
  match o.action with
  | .keep => (db.saveState o.key o.before o.after, ⟨now, o.key, o.breach, none, none⟩)
  | .fire title message =>
    let pk := db.nextAlert
    ((db.createAlert now o.key.station o.key.rule title message o.severity).saveState o.key
      o.before { o.after with alert := some pk }, ⟨now, o.key, o.breach, some pk, none⟩)
  | .clear pk =>
    ((db.resolveAlerts now fun j _ => j = pk).saveState o.key o.before o.after,
      ⟨now, o.key, o.breach, none, some pk⟩)

/-- The writes of all outcomes, in order. -/
def Db.applyOutcomes (db : Db) (now : Time) : List Outcome → Db × List Record
  | [] => (db, [])
  | o :: os =>
    let r := db.applyOutcome now o
    let rest := r.1.applyOutcomes now os
    (rest.1, r.2 :: rest.2)

/-! ## a run -/

/-- The rule row as `select_for_update` finds it: a rule that is gone, of another type
or inactive by now is skipped. -/
def Db.lockedRule (db : Db) (pk : Pk) : Option AlertRule :=
  (db.rules.get? pk).filter fun r => r.alertType = .threshold && r.isActive

/-- The keys among the candidates that are blocked by now. -/
def Db.blockedKeys (db : Db) (candidates : List Candidate) : List String :=
  (candidates.map Candidate.key).filter fun k =>
    (db.definitions.get? k).any MetricDefinition.isBlocked

/-- What a run loads before it evaluates the rules. -/
structure Loaded where
  rules : List (Pk × AlertRule)
  definitions : Table String MetricDefinition
  current : List (Pk × Station × List (String × Sample))
  now : Time

def Db.load (db : Db) (now : Time) : Loaded where
  rules := db.rules.entries.filter fun e => e.2.alertType = .threshold && e.2.isActive
  definitions := db.definitions.filter fun _ d => !d.isBlocked
  current := db.current now
  now := now

/-- The evaluation of one rule, as one transaction. -/
def Db.evaluateRule (db : Db) (l : Loaded) (e : Pk × AlertRule) : Db × List Record :=
  if (thresholdCandidates l.current l.definitions e.2.metricKey).isEmpty then (db, [])
  else match db.lockedRule e.1 with
    | none => (db, [])
    | some rule =>
      let candidates := thresholdCandidates l.current l.definitions rule.metricKey
      let blocked := db.blockedKeys candidates
      let candidates := candidates.filter fun c => !blocked.contains c.key
      db.applyOutcomes l.now
        (evaluateThresholdRule e.1 rule candidates db.states db.alerts l.now)

/-- The rules in turn. -/
def Db.evaluateRules (db : Db) (l : Loaded) : List (Pk × AlertRule) → Db × List Record
  | [] => (db, [])
  | e :: es =>
    let r := db.evaluateRule l e
    let rest := r.1.evaluateRules l es
    (rest.1, r.2 ++ rest.2)

/-- `_check_thresholds` -/
def Db.checkThresholds (db : Db) (now : Time) : Db × List Record :=
  let l := db.load now
  db.evaluateRules l l.rules

end StationManager.Monitoring
