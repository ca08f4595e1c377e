import StationManager.Monitoring.Engine

/-!
# StationManager.Monitoring.CurrentValues

Which keys a run of the engine evaluates.  `reading` says it for one key, from
the rows of its rule, station, sample and metric definition; the candidate
lists of the engine amount to the same (`reading_eq_some`), and they hold
every station and key at most once (`thresholdCandidates_pairwise`).
-/

namespace StationManager.Monitoring.Thresholds

/-! ## current values -/

/-- The current value of a key under its rule, as a breach or not: the rule is an active
threshold rule that matches the key, the station was seen within the threshold,
the sample is current and numeric, and the metric is defined and not blocked. -/
def reading (db : Db) (now : Time) (k : StateKey) : Option Bool := do
  let rule ← db.lockedRule k.rule
  let st ← db.stations.get? k.station
  let metrics ← (db.telemetry.get? k.station).join
  let sample ← (metrics.get? k.metricKey).join
  let defn ← db.definitions.get? k.metricKey
  if st.current offlineThreshold now && sampleIsCurrent sample now && !defn.isBlocked &&
      keyMatchesPattern k.metricKey rule.metricKey then
    (numeric (sample.get rule.aggregate)).map fun v => compare rule.operator v rule.threshold
  else none

section
variable {db : Db} {now : Time} {k : StateKey}

theorem currentSample_eq_some {e : String × Option Sample} {m : String × Sample} :
    currentSample now e = some m ↔ e = (m.1, some m.2) ∧ sampleIsCurrent m.2 now = true := by
  obtain ⟨key, v⟩ := e
  obtain ⟨key', sample⟩ := m
  simp only [currentSample, Option.map_eq_some_iff, Option.filter_eq_some_iff, Prod.mk.injEq]
  constructor
  · rintro ⟨_, ⟨rfl, hcur⟩, rfl, rfl⟩
    exact ⟨⟨rfl, rfl⟩, hcur⟩
  · rintro ⟨⟨rfl, rfl⟩, hcur⟩
    exact ⟨sample, ⟨rfl, hcur⟩, rfl, rfl⟩

theorem mem_currentSamples {metrics : Option (Table String (Option Sample))}
    {m : String × Sample} : m ∈ currentSamples metrics now ↔
      ∃ t, metrics = some t ∧ t.get? m.1 = some (some m.2) ∧ sampleIsCurrent m.2 now = true := by
  cases metrics with
  | none => simp [currentSamples]
  | some t =>
    simp only [currentSamples, Option.elim_some, List.mem_filterMap, currentSample_eq_some,
      Option.some.injEq, exists_eq_left', ← Table.mem_entries_iff]
    constructor
    · rintro ⟨_, hmem, rfl, hcur⟩
      exact ⟨hmem, hcur⟩
    · rintro ⟨hmem, hcur⟩
      exact ⟨_, hmem, rfl, hcur⟩

theorem currentStation_eq_some {e : Pk × Option (Table String (Option Sample))}
    {c : Pk × Station × List (String × Sample)} :
    db.currentStation now e = some c ↔ e.1 = c.1 ∧ db.stations.get? c.1 = some c.2.1 ∧
      c.2.1.current offlineThreshold now = true ∧ c.2.2 = currentSamples e.2 now := by
  obtain ⟨pk, metrics⟩ := e
  obtain ⟨pk', st, ms⟩ := c
  simp only [Db.currentStation, Option.map_eq_some_iff, Option.filter_eq_some_iff,
    Prod.mk.injEq]
  constructor
  · rintro ⟨_, ⟨hst, hcur⟩, rfl, rfl, rfl⟩
    exact ⟨rfl, hst, hcur, rfl⟩
  · rintro ⟨rfl, hst, hcur, rfl⟩
    exact ⟨st, ⟨hst, hcur⟩, rfl, rfl, rfl⟩

theorem mem_current {c : Pk × Station × List (String × Sample)} :
    c ∈ db.current now ↔ ∃ metrics, db.telemetry.get? c.1 = some metrics ∧
      db.stations.get? c.1 = some c.2.1 ∧ c.2.1.current offlineThreshold now = true ∧
      c.2.2 = currentSamples metrics now := by
  simp only [Db.current, List.mem_filterMap, Prod.exists, currentStation_eq_some,
    Table.mem_entries_iff]
  constructor
  · rintro ⟨_, metrics, hget, rfl, hrest⟩
    exact ⟨metrics, hget, hrest⟩
  · rintro ⟨metrics, hget, hrest⟩
    exact ⟨c.1, metrics, hget, rfl, hrest⟩

theorem thresholdCandidate_eq_some {definitions : Table String MetricDefinition}
    {pattern : String} {station : Pk} {row : Station} {m : String × Sample} {c : Candidate} :
    thresholdCandidate definitions pattern station row m = some c ↔
      station = c.station ∧ row = c.stationRow ∧ m = (c.key, c.sample) ∧
        definitions.get? c.key = some c.definition ∧ keyMatchesPattern c.key pattern = true := by
  obtain ⟨key, sample⟩ := m
  obtain ⟨station', row', key', sample', defn⟩ := c
  simp only [thresholdCandidate, Option.ite_none_right_eq_some, Option.map_eq_some_iff,
    Candidate.mk.injEq, Prod.mk.injEq]
  constructor
  · rintro ⟨hmatch, _, hd, rfl, rfl, rfl, rfl, rfl⟩
    exact ⟨rfl, rfl, ⟨rfl, rfl⟩, hd, hmatch⟩
  · rintro ⟨rfl, rfl, ⟨rfl, rfl⟩, hd, hmatch⟩
    exact ⟨hmatch, defn, hd, rfl, rfl, rfl, rfl, rfl⟩

/-- The candidates of a run, by the rows that they come from. -/
theorem mem_thresholdCandidates {definitions : Table String MetricDefinition}
    {pattern : String} {c : Candidate} :
    c ∈ thresholdCandidates (db.current now) definitions pattern ↔
      db.stations.get? c.station = some c.stationRow ∧
      c.stationRow.current offlineThreshold now = true ∧
      (∃ t, db.telemetry.get? c.station = some (some t) ∧ t.get? c.key = some (some c.sample)) ∧
      sampleIsCurrent c.sample now = true ∧
      definitions.get? c.key = some c.definition ∧ keyMatchesPattern c.key pattern = true := by
  simp only [thresholdCandidates, List.mem_flatMap, List.mem_filterMap,
    thresholdCandidate_eq_some, mem_current]
  constructor
  · rintro ⟨⟨pk, row, ms⟩, ⟨metrics, htel, hst, hcur, rfl⟩, m, hm, rfl, rfl, rfl, hd, hmatch⟩
    obtain ⟨t, rfl, hget, hsample⟩ := mem_currentSamples.mp hm
    exact ⟨hst, hcur, ⟨t, htel, hget⟩, hsample, hd, hmatch⟩
  · rintro ⟨hst, hcur, ⟨t, htel, hget⟩, hsample, hd, hmatch⟩
    refine ⟨(c.station, c.stationRow, currentSamples (some t) now),
      ⟨some t, htel, hst, hcur, rfl⟩, (c.key, c.sample), ?_, rfl, rfl, rfl, hd, hmatch⟩
    exact mem_currentSamples.mpr ⟨t, rfl, hget, hsample⟩

/-- Of a station and a key there is at most one candidate. -/
theorem thresholdCandidates_pairwise (definitions : Table String MetricDefinition)
    (pattern : String) :
    (thresholdCandidates (db.current now) definitions pattern).Pairwise fun c c' =>
      (c.station, c.key) ≠ (c'.station, c'.key) := by
  rw [thresholdCandidates, List.pairwise_flatMap]
  constructor
  · rintro ⟨pk, row, ms⟩ he
    obtain ⟨metrics, -, -, -, hms⟩ := mem_current.mp he
    have hsamples : ms.Pairwise fun m m' => m.1 ≠ m'.1 := by
      cases metrics with
      | none =>
        rw [show ms = [] from hms]
        exact .nil
      | some t =>
        rw [show ms = t.entries.filterMap (currentSample now) from hms]
        refine pairwise_filterMap_key Prod.fst Prod.fst (fun e m hm => ?_)
          (List.pairwise_map.mp t.nodup)
        rw [(currentSample_eq_some.mp hm).1]
    have hkeys := pairwise_filterMap_key Prod.fst Candidate.key
      (f := thresholdCandidate definitions pattern pk row) (fun m c hc => by
        rw [(thresholdCandidate_eq_some.mp hc).2.2.1]) hsamples
    refine hkeys.imp fun {c c'} hne heq => ?_
    exact hne (congrArg Prod.snd heq)
  · have hstations : (db.current now).Pairwise fun e e' => e.1 ≠ e'.1 :=
      pairwise_filterMap_key Prod.fst Prod.fst (fun e c hc => (currentStation_eq_some.mp hc).1.symm)
        (List.pairwise_map.mp db.telemetry.nodup)
    refine hstations.imp fun {e e'} hne c hc c' hc' heq => ?_
    obtain ⟨m, -, hm⟩ := List.mem_filterMap.mp hc
    obtain ⟨m', -, hm'⟩ := List.mem_filterMap.mp hc'
    have hst := (thresholdCandidate_eq_some.mp hm).1
    have hst' := (thresholdCandidate_eq_some.mp hm').1
    rw [hst, hst'] at hne
    exact hne (congrArg Prod.fst heq)

theorem lockedRule_eq_some {pk : Pk} {rule : AlertRule} : db.lockedRule pk = some rule ↔
    db.rules.get? pk = some rule ∧ rule.alertType = .threshold ∧ rule.isActive = true := by
  simp [Db.lockedRule, Option.filter_eq_some_iff]

/-- A key has a current value exactly if it is a candidate of its rule with a number. -/
theorem reading_eq_some {b : Bool} : reading db now k = some b ↔
    ∃ rule c v, db.lockedRule k.rule = some rule ∧
      c ∈ thresholdCandidates (db.current now) (db.definitions.filter fun _ d => !d.isBlocked)
        rule.metricKey ∧
      k = ⟨k.rule, c.station, c.key⟩ ∧ numeric (c.sample.get rule.aggregate) = some v ∧
      b = compare rule.operator v rule.threshold := by
  simp only [reading, mem_thresholdCandidates, Option.bind_eq_bind, Option.bind_eq_some_iff,
    Option.join_eq_some_iff, Option.ite_none_right_eq_some, Bool.and_eq_true,
    Option.map_eq_some_iff, Table.get?_filter, Option.filter_eq_some_iff]
  constructor
  · rintro ⟨rule, hrule, st, hst, t, htel, sample, hget, defn, hd, ⟨⟨⟨hcur, hsample⟩, hblock⟩,
      hmatch⟩, v, hv, rfl⟩
    exact ⟨rule, ⟨k.station, st, k.metricKey, sample, defn⟩, v, hrule,
      ⟨hst, hcur, ⟨t, htel, hget⟩, hsample, ⟨hd, hblock⟩, hmatch⟩, rfl, hv, rfl⟩
  · rintro ⟨rule, c, v, hrule, ⟨hst, hcur, ⟨t, htel, hget⟩, hsample, ⟨hd, hblock⟩, hmatch⟩,
      hk, hv, rfl⟩
    rw [hk]
    exact ⟨rule, hrule, c.stationRow, hst, t, htel, c.sample, hget, c.definition, hd,
      ⟨⟨⟨hcur, hsample⟩, hblock⟩, hmatch⟩, v, hv, rfl⟩

end

end StationManager.Monitoring.Thresholds
