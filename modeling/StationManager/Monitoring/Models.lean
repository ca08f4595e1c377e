import StationManager.Control.Capabilities
import StationManager.Lib.Table

/-!
# StationManager.Monitoring.Models

The tables of `apps.monitoring`, with the columns of `apps.stations` that the
alert engine reads.  A threshold state is addressed by the triple that the
schema makes unique, a metric definition by its key, the telemetry row of a
station by the station.
-/

namespace StationManager.Monitoring

/-- The engine's `OFFLINE_THRESHOLD`: five minutes. -/
def offlineThreshold : Time := 5 * 60 * 1000000

/-! ## stations -/

/-- Choices of `Station.status`. -/
inductive StationStatus
  | online
  | offline
  | updating
  | error
deriving DecidableEq, Repr

structure Station where
  name : String
  status : StationStatus
  lastSeen : Option Time
deriving DecidableEq, Repr

namespace Station

/-- `last_seen__lt=now - threshold`; a null column matches no comparison. -/
def silent (st : Station) (threshold now : Time) : Bool :=
  st.lastSeen.any fun ls => ls + threshold < now

/-- `last_seen__gte=now - threshold` -/
def current (st : Station) (threshold now : Time) : Bool :=
  st.lastSeen.any fun ls => now ≤ ls + threshold

variable {st : Station} {now threshold : Time}

theorem silent_iff :
    st.silent threshold now = true ↔ ∃ ls, st.lastSeen = some ls ∧ ls + threshold < now := by
  simp [silent, Option.any_eq_true]

theorem current_iff :
    st.current threshold now = true ↔ ∃ ls, st.lastSeen = some ls ∧ now ≤ ls + threshold := by
  simp [current, Option.any_eq_true]

theorem silent_mono {now' : Time} (hle : now ≤ now') (h : st.silent threshold now = true) :
    st.silent threshold now' = true := by
  obtain ⟨ls, hls, hlt⟩ := silent_iff.mp h
  exact silent_iff.mpr ⟨ls, hls, Nat.lt_of_lt_of_le hlt hle⟩

theorem not_current (h : st.silent threshold now = true) : st.current threshold now = false := by
  obtain ⟨ls, hls, hlt⟩ := silent_iff.mp h
  simpa [current, hls] using hlt

end Station

/-- A stored sample of a metric.  `ts` is its time stamp, if it has one that can be
parsed. -/
structure Sample where
  ts : Option Int
  min : Option Control.Scalar
  max : Option Control.Scalar
  avg : Option Control.Scalar
deriving DecidableEq

/-! ## rules and alerts -/

/-- Choices of `AlertRule.alert_type`. -/
inductive AlertType
  | stationOffline
  | otaFailed
  | unexpectedReboot
  | powerWarning
  | storageHealth
  | threshold
deriving DecidableEq, Repr

inductive Operator
  | gt
  | gte
  | lt
  | lte
deriving DecidableEq, Repr

inductive Aggregate
  | avg
  | min
  | max
deriving DecidableEq, Repr

inductive Severity
  | warning
  | critical
deriving DecidableEq, Repr

/-- An `AlertRule` row; a blank operator is `none`. -/
structure AlertRule where
  alertType : AlertType
  threshold : Rat
  severity : Severity
  isActive : Bool := true
  name : String := ""
  metricKey : String := ""
  operator : Option Operator := none
  aggregate : Aggregate := .avg
  durationSeconds : Nat := 0
deriving DecidableEq

/-- An `Alert` row; the rule is null once it was deleted. -/
structure Alert where
  station : Pk
  rule : Option Pk
  severity : Severity
  title : String
  message : String
  createdAt : Time
  isResolved : Bool := false
  resolvedAt : Option Time := none
deriving DecidableEq

structure MetricDefinition where
  label : String := ""
  labelOverride : String := ""
  unit : String := ""
  precision : Nat := 1
  isBlocked : Bool := false
deriving DecidableEq

/-- The unique key of a threshold state. -/
structure StateKey where
  rule : Pk
  station : Pk
  metricKey : String
deriving DecidableEq, Repr

structure ThresholdState where
  breachSince : Option Time := none
  okSince : Option Time := none
  lastEvaluatedAt : Option Time := none
  alert : Option Pk := none
deriving DecidableEq

structure Db where
  stations : Table Pk Station
  /-- The stored `metrics` of each station, `none` if they are not an object; a metric
  that is not an object has no sample. -/
  telemetry : Table Pk (Option (Table String (Option Sample)))
  rules : Table Pk AlertRule
  definitions : Table String MetricDefinition
  states : Table StateKey ThresholdState
  alerts : Table Pk Alert
  /-- The next value of the key sequence of alerts. -/
  nextAlert : Pk

namespace Db

/-- The type of an alert's rule. -/
def typeOf (db : Db) (a : Alert) : Option AlertType :=
  (a.rule.bind db.rules.get?).map AlertRule.alertType

/-- `_create_alert` -/
def createAlert (db : Db) (now : Time) (station rulePk : Pk) (title message : String)
    (severity : Severity) : Db :=
  { db with
    alerts := db.alerts.insert db.nextAlert
      ⟨station, some rulePk, severity, title, message, now, false, none⟩
    nextAlert := db.nextAlert + 1 }

/-- Resolve the open alerts among those that `p` selects. -/
def resolveAlerts (db : Db) (now : Time) (p : Pk → Alert → Bool) : Db :=
  { db with
    alerts := db.alerts.map fun pk a =>
      if p pk a && !a.isResolved then { a with isResolved := true, resolvedAt := some now } else a }

/-- The alerts that are open after resolving are those that were open and not
selected. -/
theorem get?_resolveAlerts_open {db : Db} {now : Time} {p : Pk → Alert → Bool} {pk : Pk}
    {a : Alert} : ((db.resolveAlerts now p).alerts.get? pk = some a ∧ a.isResolved = false) ↔
      db.alerts.get? pk = some a ∧ a.isResolved = false ∧ p pk a = false := by
  simp only [resolveAlerts, Table.get?_map, Option.map_eq_some_iff]
  constructor
  · rintro ⟨⟨b, hb, rfl⟩, hres⟩
    split at hres
    · cases hres
    · next hsel =>
      rw [if_neg hsel]
      exact ⟨hb, hres, by simpa [hres] using hsel⟩
  · rintro ⟨ha, hres, hp⟩
    exact ⟨⟨a, ha, by simp [hp]⟩, hres⟩

end Db

/-- Keys of the sequence are fresh. -/
def Db.AlertsNumbered (db : Db) : Prop := ∀ pk a, db.alerts.get? pk = some a → pk < db.nextAlert

namespace Db.AlertsNumbered

variable {db : Db}

theorem get?_next (h : db.AlertsNumbered) : db.alerts.get? db.nextAlert = none := by
  cases ha : db.alerts.get? db.nextAlert with
  | none => rfl
  | some a => exact absurd (h _ a ha) (Nat.lt_irrefl _)

/-- A new alert, beside the old ones. -/
theorem get?_createAlert (h : db.AlertsNumbered) (now : Time) (station rulePk : Pk)
    (title message : String) (severity : Severity) (pk : Pk) :
    (db.createAlert now station rulePk title message severity).alerts.get? pk =
      if pk = db.nextAlert then
        some ⟨station, some rulePk, severity, title, message, now, false, none⟩
      else db.alerts.get? pk := by
  rw [createAlert, Table.get?_insert, h.get?_next]
  rfl

theorem createAlert (h : db.AlertsNumbered) (now : Time) (station rulePk : Pk)
    (title message : String) (severity : Severity) :
    (db.createAlert now station rulePk title message severity).AlertsNumbered := by
  intro pk a ha
  rw [h.get?_createAlert] at ha
  split at ha
  · next heq => exact heq ▸ Nat.lt_succ_self _
  · exact Nat.lt_succ_of_lt (h pk a ha)

theorem resolveAlerts (h : db.AlertsNumbered) (now : Time) (p : Pk → Alert → Bool) :
    (db.resolveAlerts now p).AlertsNumbered := by
  intro pk a ha
  rw [Db.resolveAlerts, Table.get?_map] at ha
  obtain ⟨b, hb, -⟩ := Option.map_eq_some_iff.mp ha
  exact h pk b hb

end Db.AlertsNumbered

end StationManager.Monitoring
