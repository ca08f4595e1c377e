import Mathlib.Data.List.Dedup
import Mathlib.Data.List.Sort
import StationManager.Lib.Calendar
import StationManager.Lib.Table
import StationManager.Lib.Transition

/-!
# StationManager.MetricHistory.Maintenance

`apps.history`: the samples that heartbeats record, and their upkeep, hourly
compaction, creation of monthly partitions and retention.

A run of `run_maintenance` is a sequence of transactions, and heartbeats commit
between them.  Each chunk of the compaction is one transaction, which upserts
the hours and moves the watermark.  Times are in microseconds from the start of
year 1, in UTC; the values of samples are rationals, and the database computes
averages exactly.
-/

namespace StationManager.MetricHistory

/-! ## time -/

def second : Nat := 1000000

def hour : Nat := 3600 * second

def day : Nat := 24 * hour

/-- `COMPACT_GRACE` -/
def compactGrace : Nat := 300 * second

/-- `hour_floor` -/
def hourFloor (t : Nat) : Nat := t / hour * hour

/-- The month of a time, see `StationManager.Lib.Calendar`. -/
def monthOf (t : Nat) : Nat := Calendar.monthOf (t / day)

/-- The first moment of a month. -/
def startOf (m : Nat) : Nat := Calendar.monthDay m * day

/-- `month_start` -/
def monthStart (t : Nat) : Nat := startOf (monthOf t)

/-! ## tables -/

/-- The primary key of both tables. -/
structure SeriesKey where
  station : Pk
  metricKey : String
  ts : Nat
deriving DecidableEq

/-- The values of a `MetricSample` row. -/
structure Sample where
  min : Rat
  max : Rat
  avg : Rat
deriving DecidableEq

/-- The values of a `MetricHourly` row. -/
structure Hourly extends Sample where
  count : Nat
deriving DecidableEq

/-- The tables, the watermark of `HistoryState`, and the months for which the tables
have a partition. -/
structure Db where
  samples : Table SeriesKey Sample
  hourly : Table SeriesKey Hourly
  compactedUntil : Option Nat
  samplePartitions : List Nat
  hourlyPartitions : List Nat

structure Settings where
  /-- `is_partitioned`: the database is PostgreSQL. -/
  partitioned : Bool
  rawRetentionDays : Int
  hourlyRetentionDays : Int

/-- `effective_retention_days` -/
def effectiveRetentionDays (value : Int) : Nat := if 1 ≤ value then value.toNat else 1

namespace Settings

def rawRetention (cfg : Settings) : Nat := effectiveRetentionDays cfg.rawRetentionDays * day

def hourlyRetention (cfg : Settings) : Nat := effectiveRetentionDays cfg.hourlyRetentionDays * day

end Settings

/-! ## heartbeats -/

/-- `HISTORY_MAX_ABS` -/
def historyMaxAbs : Rat := 1000000000000000

/-- `_recordable` -/
def recordable (v : Sample) : Bool :=
  [v.min, v.max, v.avg].all fun x => -historyMaxAbs ≤ x && x ≤ historyMaxAbs

/-- `record_samples`: the table after it, and the number of rows sent.  A sample whose
partition is missing fails the insert, which is logged only. -/
def recordSamples (cfg : Settings) (db : Db) (station : Pk) (ts : Nat)
    (values : List (String × Sample)) : Table SeriesKey Sample × Nat :=
  let rows := (values.filter fun v => recordable v.2).map fun v => (⟨station, v.1, ts⟩, v.2)
  if cfg.partitioned && !db.samplePartitions.contains (monthOf ts) then (db.samples, 0)
  else (db.samples.insertAll rows, rows.length)

/-! ## compaction -/

/-- The hourly row that a sample counts for. -/
def SeriesKey.hour (k : SeriesKey) : SeriesKey := { k with ts := hourFloor k.ts }

/-- The aggregates of the rows of a group. -/
def aggregate : List Sample → Option Hourly
  | [] => none
  | s :: rest => some {
      min := rest.foldl (fun m r => if r.min < m then r.min else m) s.min
      max := rest.foldl (fun m r => if m < r.max then r.max else m) s.max
      avg := rest.foldl (fun a r => a + r.avg) s.avg / ((rest.length + 1 : Nat) : Rat)
      count := rest.length + 1 }

/-- The samples that count for an hourly row. -/
def hourRows (rows : List (SeriesKey × Sample)) (k : SeriesKey) : List Sample :=
  (rows.filter fun e => e.1.hour = k).map Prod.snd

/-- The rows that `_compact_chunk` upserts. -/
def chunkRows (db : Db) (start stop : Nat) : List (SeriesKey × Hourly) :=
  let rows := db.samples.entries.filter fun e => start ≤ e.1.ts && e.1.ts < stop
  (rows.map fun e => e.1.hour).dedup.filterMap fun k => (aggregate (hourRows rows k)).map (k, ·)

/-- The transaction of a chunk, unless a partition is missing. -/
def compactChunk (cfg : Settings) (db : Db) (start stop : Nat) : Option (Db × Nat) :=
  let rows := chunkRows db start stop
  if cfg.partitioned && rows.any fun r => !db.hourlyPartitions.contains (monthOf r.1.ts) then none
  else some ({ db with hourly := db.hourly.putAll rows, compactedUntil := some stop }, rows.length)

/-- The oldest sample. -/
def oldest (db : Db) : Option Nat := (db.samples.entries.map fun e => e.1.ts).min?

/-! ## partitions and retention -/

inductive TableName
  | sample
  | hourly
deriving DecidableEq

/-- A partition is named after its table and its month. -/
abbrev Partition := TableName × Nat

/-- `ensure_partitions`: the months of a table after it, and those created. -/
def ensurePartitions (months : List Nat) (first count : Nat) : List Nat × List Nat :=
  let created := (List.range' first count).filter fun m => !months.contains m
  (months ++ created, created)

/-- `ensure_future_partitions` -/
def ensureFuturePartitions (cfg : Settings) (db : Db) (now : Nat) : Db × List Partition :=
  if cfg.partitioned then
    let samples := ensurePartitions db.samplePartitions (monthOf now) 2
    let hourly := ensurePartitions db.hourlyPartitions (monthOf now) 2
    ({ db with samplePartitions := samples.1, hourlyPartitions := hourly.1 },
      samples.2.map (.sample, ·) ++ hourly.2.map (.hourly, ·))
  else (db, [])

/-- The rows with `lo <= ts < hi` of month `m`. -/
def inMonth (m : Nat) (k : SeriesKey) : Bool := startOf m ≤ k.ts && k.ts < startOf (m + 1)

/-- `_raw_partition_safe` -/
def rawPartitionSafe (db : Db) (m : Nat) (compactedUntil : Option Nat) : Bool :=
  match compactedUntil with
  | some w => startOf (m + 1) ≤ w
  | none => !db.samples.entries.any fun e => inMonth m e.1

/-- `_months_with_rows` -/
def monthsWithRows (keys : List SeriesKey) (before : Nat) : List Nat :=
  match ((keys.map SeriesKey.ts).filter fun t => t < before).min? with
  | none => []
  | some t => (List.range' (monthOf t) (monthOf before + 1 - monthOf t)).filter fun m =>
    startOf m < before && keys.any (inMonth m)

/-- The months that have expired: partitions, or on other databases months with rows. -/
def expiredMonths (cfg : Settings) (retention now : Nat) (partitions : List Nat)
    (keys : List SeriesKey) : List Nat :=
  if cfg.partitioned then
    (partitions.insertionSort (· ≤ ·)).filter fun m =>
      startOf (m + 1) ≤ now - retention && startOf (m + 1) ≤ now
  else monthsWithRows keys (min (monthStart now) (monthStart (now - retention)))

/-- The tables without the rows, and the partitions, of some months. -/
def dropMonths (db : Db) (samples hourly : List Nat) : Db :=
  { db with
    samples := db.samples.filter fun k _ => !samples.any fun m => inMonth m k
    hourly := db.hourly.filter fun k _ => !hourly.any fun m => inMonth m k
    samplePartitions := db.samplePartitions.filter fun m => !samples.contains m
    hourlyPartitions := db.hourlyPartitions.filter fun m => !hourly.contains m }

/-! ## runs -/

inductive Stage
  | compact
  | ensurePartitions
  | dropExpired
deriving DecidableEq

/-- What `run_maintenance` returns. -/
structure Result where
  compacted : Nat := 0
  created : List Partition := []
  dropped : List Partition := []
  errors : List Stage := []

/-- What a run does next. -/
inductive Phase
  /-- `compact`, with its `chunk_hours` -/
  | compact (chunkHours : Int)
  /-- the first run looks for the oldest sample -/
  | oldest (step stop : Nat)
  /-- the loop of `compact`, with its total -/
  | chunks (step start stop total : Nat)
  | ensure
  /-- `drop_expired` -/
  | drop
  | dropSamples (compactedUntil : Option Nat) (todo dropped : List Nat)
  | dropHourly (samples hourly : List Nat)

structure Run where
  now : Nat
  phase : Phase
  result : Result

/-- The stage in which the run is. -/
def Phase.stage : Phase → Stage
  | .compact _ | .oldest _ _ | .chunks _ _ _ _ => .compact
  | .ensure => .ensurePartitions
  | .drop | .dropSamples _ _ _ | .dropHourly _ _ => .dropExpired

/-- Where the run goes on after the stage. -/
def Stage.next : Stage → Option Phase
  | .compact => some .ensure
  | .ensurePartitions => some .drop
  | .dropExpired => none

/-- `recorded` has every row that was inserted into the samples. -/
structure State where
  clock : Nat
  db : Db
  run : Option Run
  last : Option Result
  recorded : List (SeriesKey × Sample)

inductive Label
  | tick (d : Nat)
  /-- The transaction of a heartbeat that was stamped `ts` commits. -/
  | record (station : Pk) (ts : Nat) (values : List (String × Sample))
  /-- `run_maintenance` is called; its compaction works in chunks of `chunkHours`. -/
  | start (chunkHours : Int)
  /-- The next transaction of the run. -/
  | advance
  /-- The next transaction raises. -/
  | fail
  /-- The process ends. -/
  | crash

namespace State

/-- The run goes on in a phase. -/
def goto (s : State) (r : Run) (phase : Phase) : State :=
  { s with run := some { r with phase } }

/-- The stage has ended with a result. -/
def finish (s : State) (r : Run) (result : Result) : State :=
  match r.phase.stage.next with
  | some phase => { s with run := some ⟨r.now, phase, result⟩ }
  | none => { s with run := none, last := some result }

/-- The stage has raised. -/
def failed (s : State) (r : Run) : State :=
  s.finish r { r.result with errors := r.result.errors ++ [r.phase.stage] }

end State

/-- The next transaction of a run. -/
def advance (cfg : Settings) (s : State) (r : Run) : State :=
  match r.phase with
  | .compact chunkHours =>
    if chunkHours ≤ 0 then s.failed r
    else
      let step := chunkHours.toNat * hour
      let stop := hourFloor (r.now - compactGrace)
      match s.db.compactedUntil with
      | none => s.goto r (.oldest step stop)
      | some w => s.goto r (.chunks step (hourFloor w) stop 0)
  | .oldest step stop =>
    match oldest s.db with
    | none => s.finish r { r.result with compacted := 0 }
    | some t => s.goto r (.chunks step (hourFloor t) stop 0)
  | .chunks step start stop total =>
    if start < stop then
      let chunkEnd := min (start + step) stop
      match compactChunk cfg s.db start chunkEnd with
      | none => s.failed r
      | some (db, n) => { s with db }.goto r (.chunks step chunkEnd stop (total + n))
    else s.finish r { r.result with compacted := total }
  | .ensure =>
    let (db, created) := ensureFuturePartitions cfg s.db r.now
    { s with db }.finish r { r.result with created }
  | .drop =>
    let months := expiredMonths cfg cfg.rawRetention r.now s.db.samplePartitions
      (s.db.samples.entries.map Prod.fst)
    s.goto r (.dropSamples s.db.compactedUntil months [])
  | .dropSamples w (m :: todo) dropped =>
    if rawPartitionSafe s.db m w then s.goto r (.dropSamples w todo (dropped ++ [m]))
    -- without partitions the first month that has to stay ends the loop
    else s.goto r (.dropSamples w (if cfg.partitioned then todo else []) dropped)
  | .dropSamples _ [] dropped =>
    let months := expiredMonths cfg cfg.hourlyRetention r.now s.db.hourlyPartitions
      (s.db.hourly.entries.map Prod.fst)
    s.goto r (.dropHourly dropped months)
  | .dropHourly samples hourly =>
    let dropped := samples.map (.sample, ·) ++ hourly.map (.hourly, ·)
    { s with db := dropMonths s.db samples hourly }.finish r { r.result with dropped }

def step (cfg : Settings) (s : State) : Label → Option State
  | .tick d => some { s with clock := s.clock + d }
  | .record station ts values =>
    let samples := (recordSamples cfg s.db station ts values).1
    let new := samples.entries.drop s.db.samples.entries.length
    some { s with db := { s.db with samples }, recorded := s.recorded ++ new }
  | .start chunkHours =>
    if s.run.isNone then some { s with run := some ⟨s.clock, .compact chunkHours, {}⟩ } else none
  | .advance => s.run.map (advance cfg s)
  | .fail => s.run.map s.failed
  | .crash => some { s with run := none }

end StationManager.MetricHistory
