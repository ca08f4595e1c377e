import StationManager.MetricHistory.Hours

/-!
# StationManager.MetricHistory.Compaction

Compaction loses nothing.  The watermark stays behind every sample that can still
arrive, so the hours before it are settled: they gain no samples, and their
rows are the exact aggregates until the retention of hourly rows drops them.
Samples that have not been compacted are never dropped.

`Settled` is what a step does to the hours before the watermark, and `Core` the
invariant of the tables; `PhaseOk` is what a run in progress knows.
-/

namespace StationManager.MetricHistory

variable {cfg : Settings} {s s' s'' : State}

/-! ## the invariant -/

/-- The watermark; before the first compaction no hour is closed. -/
def State.floor (s : State) : Nat := s.db.compactedUntil.getD 0

/-- The retention of hourly rows has passed for the month of a row. -/
def Expired (cfg : Settings) (clock : Nat) (k : SeriesKey) : Prop :=
  startOf (monthOf k.ts + 1) + cfg.hourlyRetention ≤ clock

structure Core (cfg : Settings) (s : State) : Prop where
  /-- No sample has been dropped after the watermark. -/
  kept : s.db.samples.entries.filter (fun e => s.floor ≤ e.1.ts) =
    s.recorded.filter fun e => s.floor ≤ e.1.ts
  aligned : hour ∣ s.floor
  behind : ∀ t < s.floor, t + compactGrace < s.clock
  bounded : ∀ k row, s.db.hourly.get? k = some row → k.ts < s.floor
  exact : ∀ k, k.ts < s.floor → s.db.hourly.get? k = aggregate (hourRows s.recorded k) ∨
    s.db.hourly.get? k = none ∧ Expired cfg s.clock k

/-- The samples of a month that have been recorded are before the watermark. -/
def Droppable (s : State) (m : Nat) : Prop :=
  ∀ e ∈ s.recorded, monthOf e.1.ts = m → e.1.ts < s.floor

/-- The loop of `compact` starts at the watermark, or before every sample it has to
cover. -/
def Starts (s : State) (start stop : Nat) : Prop :=
  s.db.compactedUntil = some start ∨
    s.db.compactedUntil = none ∧ ∀ e ∈ s.recorded, e.1.ts < stop → start ≤ e.1.ts

def PhaseOk (cfg : Settings) (s : State) (now : Nat) : Phase → Prop
  | .compact _ | .ensure | .drop => True
  | .oldest step stop => hour ∣ step ∧ hour ∣ stop ∧ (∀ t < stop, t + compactGrace < s.clock) ∧
      s.db.compactedUntil = none
  | .chunks step start stop _ => hour ∣ step ∧ hour ∣ stop ∧
      (∀ t < stop, t + compactGrace < s.clock) ∧ hour ∣ start ∧ Starts s start stop
  | .dropSamples w todo dropped => w = s.db.compactedUntil ∧
      (∀ m ∈ todo, startOf (m + 1) + day ≤ now) ∧
      ∀ m ∈ dropped, startOf (m + 1) + day ≤ now ∧ Droppable s m
  | .dropHourly samples hourly =>
    (∀ m ∈ samples, startOf (m + 1) + day ≤ now ∧ Droppable s m) ∧
    ∀ m ∈ hourly, startOf (m + 1) + cfg.hourlyRetention ≤ now

structure Inv (cfg : Settings) (s : State) : Prop where
  core : Core cfg s
  phase : ∀ r, s.run = some r → r.now ≤ s.clock ∧ PhaseOk cfg s r.now r.phase

/-- What a step does to the hours before the watermark: they gain no samples, and a row
changes only when its retention has passed. -/
structure Settled (cfg : Settings) (s s' : State) : Prop where
  clock : s.clock ≤ s'.clock
  floor : s.floor ≤ s'.floor
  rows : ∀ k, k.ts < s.floor → hourRows s'.recorded k = hourRows s.recorded k
  hourly : ∀ k, k.ts < s.floor → s'.db.hourly.get? k = s.db.hourly.get? k ∨
    s'.db.hourly.get? k = none ∧ Expired cfg s'.clock k

theorem Settled.refl (s : State) : Settled cfg s s :=
  ⟨Nat.le_refl _, Nat.le_refl _, fun _ _ => rfl, fun _ _ => .inl rfl⟩

theorem Settled.trans (h : Settled cfg s s') (h' : Settled cfg s' s'') : Settled cfg s s'' where
  clock := Nat.le_trans h.clock h'.clock
  floor := Nat.le_trans h.floor h'.floor
  rows k hk := (h'.rows k (Nat.lt_of_lt_of_le hk h.floor)).trans (h.rows k hk)
  hourly k hk := by
    rcases h'.hourly k (Nat.lt_of_lt_of_le hk h.floor) with heq | hgone
    · rw [heq]
      exact (h.hourly k hk).imp id fun hgone => ⟨hgone.1, Nat.le_trans hgone.2 h'.clock⟩
    · exact .inr hgone

/-- The rows of settled hours stay exact. -/
theorem Core.exact_of_settled (hc : Core cfg s) (h : Settled cfg s s') (k : SeriesKey)
    (hk : k.ts < s.floor) : s'.db.hourly.get? k = aggregate (hourRows s'.recorded k) ∨
      s'.db.hourly.get? k = none ∧ Expired cfg s'.clock k := by
  rcases h.hourly k hk with heq | hgone
  · rw [heq, h.rows k hk]
    exact (hc.exact k hk).imp id fun hgone => ⟨hgone.1, Nat.le_trans hgone.2 h.clock⟩
  · exact .inr hgone

/-! ## steps -/

/-- A step of the run that writes neither samples nor hourly rows nor the watermark. -/
structure SameData (s s' : State) : Prop where
  clock : s'.clock = s.clock
  samples : s'.db.samples = s.db.samples
  hourly : s'.db.hourly = s.db.hourly
  compactedUntil : s'.db.compactedUntil = s.db.compactedUntil
  recorded : s'.recorded = s.recorded

theorem SameData.floor (h : SameData s s') : s'.floor = s.floor := by
  rw [State.floor, h.compactedUntil, State.floor]

theorem Core.of_sameData (hc : Core cfg s) (h : SameData s s') : Core cfg s' := by
  refine ⟨?_, ?_, ?_, ?_, ?_⟩ <;>
    simp only [h.floor, h.clock, h.samples, h.hourly, h.recorded]
  · exact hc.kept
  · exact hc.aligned
  · exact hc.behind
  · exact hc.bounded
  · exact hc.exact

theorem Settled.of_sameData (h : SameData s s') : Settled cfg s s' where
  clock := Nat.le_of_eq h.clock.symm
  floor := Nat.le_of_eq h.floor.symm
  rows _ _ := by rw [h.recorded]
  hourly _ _ := .inl (by rw [h.hourly])

variable {start stop : Nat} {p : Phase} {r : Run} {k : SeriesKey}

theorem PhaseOk.of_sameData (h : SameData s s') {now : Nat} (hp : PhaseOk cfg s now p) :
    PhaseOk cfg s' now p := by
  cases p with
  | compact _ | ensure | drop => trivial
  | oldest _ _ | chunks _ _ _ _ | dropSamples _ _ _ | dropHourly _ _ =>
    simpa only [PhaseOk, Starts, Droppable, h.floor, h.clock, h.compactedUntil, h.recorded]
      using hp

/-- What a step of the run has to show. -/
structure Steps (cfg : Settings) (s s' : State) : Prop where
  inv : Inv cfg s'
  settled : Settled cfg s s'

theorem Core.goto (hc : Core cfg s) (hnow : r.now ≤ s.clock) (hp : PhaseOk cfg s r.now p) :
    Inv cfg (s.goto r p) where
  core := hc.of_sameData ⟨rfl, rfl, rfl, rfl, rfl⟩
  phase := by
    rintro _ ⟨⟩
    exact ⟨hnow, hp.of_sameData ⟨rfl, rfl, rfl, rfl, rfl⟩⟩

theorem sameData_goto (r : Run) (p : Phase) : SameData s (s.goto r p) :=
  ⟨rfl, rfl, rfl, rfl, rfl⟩

theorem sameData_finish (r : Run) (result : Result) : SameData s (s.finish r result) := by
  unfold State.finish
  split <;> exact ⟨rfl, rfl, rfl, rfl, rfl⟩

theorem Core.finish (hc : Core cfg s) (hnow : r.now ≤ s.clock) (result : Result) :
    Inv cfg (s.finish r result) where
  core := hc.of_sameData (sameData_finish r result)
  phase := by
    intro r' hr'
    unfold State.finish at hr' ⊢
    cases hst : r.phase.stage with
    | compact | ensurePartitions =>
      rw [hst] at hr'
      cases hr'
      exact ⟨hnow, trivial⟩
    | dropExpired =>
      rw [hst] at hr'
      cases hr'

/-! ### the clock and heartbeats -/

theorem Inv.tick (hi : Inv cfg s) (d : Nat) :
    Steps cfg s { s with clock := s.clock + d } := by
  have hmono : ∀ {t}, t + compactGrace < s.clock → t + compactGrace < s.clock + d :=
    fun h => Nat.lt_of_lt_of_le h (Nat.le_add_right _ _)
  refine ⟨⟨⟨hi.core.kept, hi.core.aligned, fun t ht => hmono (hi.core.behind t ht),
    hi.core.bounded, fun k hk => (hi.core.exact k hk).imp id fun h =>
      ⟨h.1, Nat.le_trans h.2 (Nat.le_add_right _ _)⟩⟩, fun r hr => ?_⟩,
    ⟨Nat.le_add_right _ _, Nat.le_refl _, fun _ _ => rfl, fun _ _ => .inl rfl⟩⟩
  obtain ⟨hnow, hp⟩ := hi.phase r hr
  refine ⟨Nat.le_trans hnow (Nat.le_add_right _ _), ?_⟩
  cases hph : r.phase <;> rw [hph] at hp
  case oldest => exact ⟨hp.1, hp.2.1, fun t ht => hmono (hp.2.2.1 t ht), hp.2.2.2⟩
  case chunks => exact ⟨hp.1, hp.2.1, fun t ht => hmono (hp.2.2.1 t ht), hp.2.2.2⟩
  all_goals exact hp

/-- The rows that a heartbeat adds are stamped with its time. -/
theorem recordSamples_entries (cfg : Settings) (db : Db) (station : Pk) (ts : Nat)
    (values : List (String × Sample)) :
    ∃ new, (recordSamples cfg db station ts values).1.entries = db.samples.entries ++ new ∧
      ∀ e ∈ new, e.1.ts = ts := by
  unfold recordSamples
  dsimp only
  split
  · exact ⟨[], by simp, by simp⟩
  · obtain ⟨new, hnew, hsub⟩ := Table.entries_insertAll db.samples
      ((values.filter fun v => recordable v.2).map fun v => (⟨station, v.1, ts⟩, v.2))
    refine ⟨new, hnew, fun e he => ?_⟩
    obtain ⟨v, -, rfl⟩ := List.mem_map.mp (hsub e he)
    rfl

/-- The commit delay is below the grace. -/
def punctual (s : State) : Label → Bool
  | .record _ ts _ => ts ≤ s.clock && s.clock < ts + compactGrace
  | _ => true

/-- Rows that can still arrive are not before the watermark. -/
theorem Core.record (hc : Core cfg s) {samples : Table SeriesKey Sample}
    {new : List (SeriesKey × Sample)} (hent : samples.entries = s.db.samples.entries ++ new)
    (hnew : ∀ e ∈ new, s.clock < e.1.ts + compactGrace) :
    Core cfg { s with db := { s.db with samples }, recorded := s.recorded ++ new } ∧
      Settled cfg s { s with db := { s.db with samples }, recorded := s.recorded ++ new } := by
  have hlate : ∀ e ∈ new, s.floor ≤ e.1.ts := fun e he =>
    Nat.not_lt.mp fun hlt => Nat.lt_asymm (hnew e he) (hc.behind _ hlt)
  have hset : Settled cfg s
      { s with db := { s.db with samples }, recorded := s.recorded ++ new } := by
    refine ⟨Nat.le_refl _, Nat.le_refl _, fun k hk => ?_, fun _ _ => .inl rfl⟩
    have hnil : hourRows new k = [] := by
      refine hourRows_eq_nil ?_
      rintro e he rfl
      exact absurd hk (Nat.not_lt.mpr ((le_hourFloor_iff hc.aligned).mpr (hlate e he)))
    rw [hourRows_append, hnil, List.append_nil]
  refine ⟨⟨?_, hc.aligned, hc.behind, hc.bounded, hc.exact_of_settled hset⟩, hset⟩
  show samples.entries.filter (fun e => s.floor ≤ e.1.ts) =
    (s.recorded ++ new).filter fun e => s.floor ≤ e.1.ts
  rw [hent, List.filter_append, List.filter_append, hc.kept]

theorem Inv.record (hi : Inv cfg s) {samples : Table SeriesKey Sample}
    {new : List (SeriesKey × Sample)} (hent : samples.entries = s.db.samples.entries ++ new)
    (hnew : ∀ e ∈ new, s.clock < e.1.ts + compactGrace) :
    Steps cfg s { s with db := { s.db with samples }, recorded := s.recorded ++ new } := by
  obtain ⟨hcore, hset⟩ := hi.core.record hent hnew
  refine ⟨⟨hcore, fun r hr => ?_⟩, hset⟩
  obtain ⟨hnow, hp⟩ := hi.phase r hr
  refine ⟨hnow, ?_⟩
  have hdrop : ∀ m, startOf (m + 1) + day ≤ r.now ∧ Droppable s m →
      startOf (m + 1) + day ≤ r.now ∧
        Droppable { s with db := { s.db with samples }, recorded := s.recorded ++ new } m := by
    rintro m ⟨hend, hd⟩
    refine ⟨hend, fun e he hm => ?_⟩
    rcases List.mem_append.mp he with he | he
    · exact hd e he hm
    · -- the month ended a day ago
      have hlt : e.1.ts < startOf (m + 1) := lt_startOf_iff.mpr (hm ▸ Nat.lt_succ_self _)
      have := hnew e he
      have hgrace : compactGrace ≤ day := by decide
      omega
  cases hph : r.phase <;> rw [hph] at hp
  case chunks =>
      refine ⟨hp.1, hp.2.1, hp.2.2.1, hp.2.2.2.1, hp.2.2.2.2.imp id fun h => ⟨h.1, ?_⟩⟩
      intro e he hlt
      rcases List.mem_append.mp he with he | he
      · exact h.2 e he hlt
      · exact absurd (hp.2.2.1 _ hlt) (Nat.lt_asymm (hnew e he))
  case dropSamples => exact ⟨hp.1, hp.2.1, fun m hm => hdrop m (hp.2.2 m hm)⟩
  case dropHourly => exact ⟨fun m hm => hdrop m (hp.1 m hm), hp.2⟩
  all_goals exact hp

/-! ### compaction -/

/-- The rows after a later time agree as well. -/
theorem filter_ts_congr {l l' : List (SeriesKey × Sample)} {a b : Nat} (hab : a ≤ b)
    (h : l.filter (fun e => a ≤ e.1.ts) = l'.filter fun e => a ≤ e.1.ts) :
    l.filter (fun e => b ≤ e.1.ts) = l'.filter fun e => b ≤ e.1.ts := by
  have hsub : ∀ r : List (SeriesKey × Sample), r.filter (fun e => b ≤ e.1.ts) =
      (r.filter fun e => a ≤ e.1.ts).filter fun e => b ≤ e.1.ts := by
    intro r
    rw [List.filter_filter]
    refine List.filter_congr fun e _ => ?_
    by_cases hb : b ≤ e.1.ts
    · simp [hb, Nat.le_trans hab hb]
    · simp [hb]
  rw [hsub l, hsub l', h]

/-- The table has all samples of the hours after the watermark. -/
theorem Core.hourRows_samples (hc : Core cfg s) (hk : s.floor ≤ k.ts) :
    hourRows s.db.samples.entries k = hourRows s.recorded k := by
  have hin : ∀ e : SeriesKey × Sample, e.1.hour = k → decide (s.floor ≤ e.1.ts) = true := by
    rintro e rfl
    exact decide_eq_true ((le_hourFloor_iff hc.aligned).mp hk)
  calc hourRows s.db.samples.entries k
      = hourRows (s.db.samples.entries.filter fun e => s.floor ≤ e.1.ts) k :=
        (hourRows_filter fun e _ he => hin e he).symm
    _ = hourRows (s.recorded.filter fun e => s.floor ≤ e.1.ts) k := by rw [hc.kept]
    _ = hourRows s.recorded k := hourRows_filter fun e _ he => hin e he

theorem Core.get?_hourly_of_le (hc : Core cfg s) (hk : s.floor ≤ k.ts) :
    s.db.hourly.get? k = none := by
  cases hrow : s.db.hourly.get? k with
  | none => rfl
  | some row => exact absurd (hc.bounded k row hrow) (Nat.not_lt.mpr hk)

theorem Starts.floor_le (h : Starts s start stop) : s.floor ≤ start := by
  rcases h with h | ⟨h, -⟩
  · exact Nat.le_of_eq (by rw [State.floor, h, Option.getD_some])
  · rw [State.floor, h, Option.getD_none]
    exact Nat.zero_le _

/-- No sample before the start is left to compact. -/
theorem Starts.hourRows_eq_nil (h : Starts s start stop) (hstart : hour ∣ start)
    (hle : start ≤ stop) (hk : s.floor ≤ k.ts) (hlt : k.ts < start) :
    hourRows s.recorded k = [] := by
  refine MetricHistory.hourRows_eq_nil ?_
  rintro e he rfl
  have hts : e.1.ts < start := (hourFloor_lt_iff hstart).mp hlt
  rcases h with h | ⟨-, h⟩
  · rw [State.floor, h] at hk
    exact Nat.not_le.mpr hlt hk
  · exact Nat.not_le.mpr hts (h e he (Nat.lt_of_lt_of_le hts hle))

/-- The transaction of a chunk. -/
theorem Core.chunk (hc : Core cfg s) {db : Db} {n : Nat} (hstart : hour ∣ start)
    (hstop : hour ∣ stop) (hle : start ≤ stop) (hbehind : ∀ t < stop, t + compactGrace < s.clock)
    (hfrom : Starts s start stop) (h : compactChunk cfg s.db start stop = some (db, n)) :
    db.compactedUntil = some stop ∧ Core cfg { s with db } ∧ Settled cfg s { s with db } := by
  have hfloor := hfrom.floor_le
  have hdb := eq_of_compactChunk h
  have hwatermark : db.compactedUntil = some stop := by rw [hdb]
  have hnew : ({ s with db } : State).floor = stop := by rw [State.floor, hwatermark]; rfl
  have hget : ∀ k, db.hourly.get? k = (aggregate
      (if start ≤ k.ts ∧ k.ts < stop then hourRows s.db.samples.entries k else [])).or
        (s.db.hourly.get? k) := by
    intro k
    rw [hdb]
    exact get?_chunkRows s.db k hstart hstop
  have hout : ∀ k, ¬(start ≤ k.ts ∧ k.ts < stop) → db.hourly.get? k = s.db.hourly.get? k := by
    intro k hk
    rw [hget, if_neg hk]
    rfl
  have hset : Settled cfg s { s with db } := by
    refine ⟨Nat.le_refl _, by rw [hnew]; exact Nat.le_trans hfloor hle, fun _ _ => rfl,
      fun k hk => .inl (hout k fun hin => ?_)⟩
    exact Nat.not_lt.mpr hin.1 (Nat.lt_of_lt_of_le hk hfloor)
  refine ⟨hwatermark, ⟨?_, ?_, ?_, fun k row hrow => ?_, fun k hk => ?_⟩, hset⟩
  · rw [hnew, show ({ s with db } : State).db.samples = s.db.samples by rw [hdb]]
    exact filter_ts_congr (Nat.le_trans hfloor hle) hc.kept
  · rw [hnew]
    exact hstop
  · rw [hnew]
    exact hbehind
  · rw [hnew]
    by_contra hge
    rw [hout k fun hin => hge hin.2] at hrow
    exact hge (Nat.lt_of_lt_of_le (hc.bounded k row hrow) (Nat.le_trans hfloor hle))
  · rw [hnew] at hk
    by_cases hold : k.ts < s.floor
    · exact hc.exact_of_settled hset k hold
    have hold := Nat.not_lt.mp hold
    left
    by_cases hin : start ≤ k.ts
    · show db.hourly.get? k = aggregate (hourRows s.recorded k)
      rw [hget, if_pos ⟨hin, hk⟩, hc.hourRows_samples hold, hc.get?_hourly_of_le hold,
        Option.or_none]
    · show db.hourly.get? k = aggregate (hourRows s.recorded k)
      rw [hout k fun h => hin h.1, hc.get?_hourly_of_le hold,
        hfrom.hourRows_eq_nil hstart hle hold (Nat.not_le.mp hin)]
      rfl

/-! ### retention -/

/-- Dropping months that are compacted, and hourly rows that have expired. -/
theorem Core.drop (hc : Core cfg s) {samples hourly : List Nat}
    (hsamples : ∀ m ∈ samples, Droppable s m)
    (hhourly : ∀ m ∈ hourly, startOf (m + 1) + cfg.hourlyRetention ≤ s.clock) :
    Core cfg { s with db := dropMonths s.db samples hourly } ∧
      Settled cfg s { s with db := dropMonths s.db samples hourly } := by
  have hget : ∀ k, (dropMonths s.db samples hourly).hourly.get? k =
      if monthOf k.ts ∈ hourly then none else s.db.hourly.get? k := by
    intro k
    have hany : (hourly.any fun m => inMonth m k) = decide (monthOf k.ts ∈ hourly) := by
      rw [Bool.eq_iff_iff, List.any_eq_true, decide_eq_true_eq]
      simp only [inMonth_iff, exists_eq_right']
    rw [dropMonths, Table.get?_filter, hany]
    cases s.db.hourly.get? k <;> by_cases hm : monthOf k.ts ∈ hourly <;> simp [hm]
  have hset : Settled cfg s { s with db := dropMonths s.db samples hourly } := by
    refine ⟨Nat.le_refl _, Nat.le_refl _, fun _ _ => rfl, fun k _ => ?_⟩
    show (dropMonths s.db samples hourly).hourly.get? k = _ ∨ _
    rw [hget]
    split
    · next hm => exact .inr ⟨rfl, hhourly _ hm⟩
    · exact .inl rfl
  refine ⟨⟨?_, hc.aligned, hc.behind, fun k row hrow => ?_, hc.exact_of_settled hset⟩, hset⟩
  · show (s.db.samples.entries.filter _).filter (fun e => s.floor ≤ e.1.ts) =
      s.recorded.filter fun e => s.floor ≤ e.1.ts
    rw [← hc.kept, List.filter_filter]
    refine List.filter_congr fun e he => ?_
    by_cases hge : s.floor ≤ e.1.ts
    · have hrec : e ∈ s.recorded := by
        have : e ∈ s.db.samples.entries.filter fun e => s.floor ≤ e.1.ts :=
          List.mem_filter.mpr ⟨he, decide_eq_true hge⟩
        rw [hc.kept] at this
        exact List.mem_of_mem_filter this
      have hnot : (samples.any fun m => inMonth m e.1) = false := by
        rw [List.any_eq_false]
        intro m hm hin
        exact Nat.not_le.mpr (hsamples m hm e hrec (inMonth_iff.mp hin)) hge
      simp [hge, hnot]
    · simp [hge]
  · have hrow : (dropMonths s.db samples hourly).hourly.get? k = some row := hrow
    rw [hget] at hrow
    split at hrow
    · cases hrow
    · exact hc.bounded k row hrow

theorem day_le_retention (value : Int) : day ≤ effectiveRetentionDays value * day := by
  refine Nat.le_mul_of_pos_left _ ?_
  unfold effectiveRetentionDays
  split <;> omega

/-- A month that has expired ended before the retention. -/
theorem expired_of_mem {retention now m : Nat} {partitions : List Nat} {keys : List SeriesKey}
    (h : m ∈ expiredMonths cfg retention now partitions keys) :
    startOf (m + 1) + retention ≤ now := by
  have hpos := startOf_pos m
  unfold expiredMonths at h
  split at h
  · have hm := (List.mem_filter.mp h).2
    simp only [Bool.and_eq_true, decide_eq_true_eq] at hm
    omega
  · unfold monthsWithRows at h
    split at h
    · cases h
    · have hm := (List.mem_filter.mp h).2
      simp only [Bool.and_eq_true, decide_eq_true_eq] at hm
      have hlt : startOf m < monthStart (now - retention) :=
        Nat.lt_of_lt_of_le hm.1 (Nat.min_le_right _ _)
      have hmonth : m < monthOf (now - retention) := startOf_strictMono.lt_iff_lt.mp hlt
      have hend : startOf (m + 1) ≤ now - retention := startOf_le_iff.mpr hmonth
      omega

/-! ### the run -/

theorem Steps.goto (hc : Core cfg s) (hnow : r.now ≤ s.clock) (hp : PhaseOk cfg s r.now p) :
    Steps cfg s (s.goto r p) :=
  ⟨hc.goto hnow hp, .of_sameData (sameData_goto r p)⟩

theorem Steps.finish (hc : Core cfg s) (hnow : r.now ≤ s.clock) (result : Result) :
    Steps cfg s (s.finish r result) :=
  ⟨hc.finish hnow result, .of_sameData (sameData_finish r result)⟩

theorem Steps.after (hset : Settled cfg s s') (h : Steps cfg s' s'') : Steps cfg s s'' :=
  ⟨h.inv, hset.trans h.settled⟩

/-- A month that may be dropped is compacted, or has no samples. -/
theorem Core.droppable (hc : Core cfg s) {m : Nat}
    (h : rawPartitionSafe s.db m s.db.compactedUntil = true) : Droppable s m := by
  intro e he hm
  cases hw : s.db.compactedUntil with
  | some w =>
    rw [hw] at h
    have hend : startOf (m + 1) ≤ w := of_decide_eq_true h
    rw [State.floor, hw]
    exact Nat.lt_of_lt_of_le (lt_startOf_iff.mpr (hm ▸ Nat.lt_succ_self _)) hend
  | none =>
    -- no sample was ever dropped
    have hall : s.db.samples.entries = s.recorded := by
      have := hc.kept
      simpa [State.floor, hw] using this
    rw [hw, rawPartitionSafe, Bool.not_eq_true', List.any_eq_false] at h
    exact absurd (inMonth_iff.mpr hm) (h e (hall ▸ he))

/-- The loop of the first run starts before every sample. -/
theorem Core.starts_oldest (hc : Core cfg s) (hw : s.db.compactedUntil = none) {t : Nat}
    (h : oldest s.db = some t) : Starts s (hourFloor t) stop := by
  refine .inr ⟨hw, fun e he _ => ?_⟩
  have hall : s.db.samples.entries = s.recorded := by
    have := hc.kept
    simpa [State.floor, hw] using this
  have hle := (List.min?_eq_some_iff.mp h).2 e.1.ts (List.mem_map_of_mem (hall ▸ he))
  exact Nat.le_trans (Nat.div_mul_le_self _ _) hle

theorem Inv.advance (hi : Inv cfg s) {r : Run} (hr : s.run = some r) :
    Steps cfg s (advance cfg s r) := by
  obtain ⟨hnow, hp⟩ := hi.phase r hr
  have hc := hi.core
  unfold MetricHistory.advance
  cases hph : r.phase with
  | compact chunkHours =>
    dsimp only
    split
    · exact .finish hc hnow _
    have hbehind : ∀ t < hourFloor (r.now - compactGrace), t + compactGrace < s.clock := by
      intro t ht
      have := Nat.lt_of_lt_of_le ht (Nat.div_mul_le_self _ _)
      omega
    split
    · next hw => exact .goto hc hnow ⟨Nat.dvd_mul_left _ _, hour_dvd_hourFloor, hbehind, hw⟩
    · next w hw =>
      have hfloor : hourFloor w = w := by
        have := hc.aligned
        rw [State.floor, hw] at this
        exact hourFloor_eq_self this
      exact .goto hc hnow ⟨Nat.dvd_mul_left _ _, hour_dvd_hourFloor, hbehind,
        hour_dvd_hourFloor, .inl (by rw [hfloor, hw])⟩
  | oldest step stop =>
    rw [hph] at hp
    obtain ⟨hstep, hstop, hbehind, hw⟩ := hp
    dsimp only
    split
    · exact .finish hc hnow _
    · next t ht =>
      exact .goto hc hnow ⟨hstep, hstop, hbehind, hour_dvd_hourFloor, hc.starts_oldest hw ht⟩
  | chunks step start stop total =>
    rw [hph] at hp
    obtain ⟨hstep, hstop, hbehind, hstart, hfrom⟩ := hp
    dsimp only
    split
    · next hlt =>
      have hend : min (start + step) stop ≤ stop := Nat.min_le_right _ _
      have haligned : hour ∣ min (start + step) stop := by
        rcases Nat.le_total (start + step) stop with h | h
        · rw [Nat.min_eq_left h]
          exact Nat.dvd_add hstart hstep
        · rw [Nat.min_eq_right h]
          exact hstop
      split
      · exact .finish hc hnow _
      · next db n hchunk =>
        have hfrom' : Starts s start (min (start + step) stop) :=
          hfrom.imp id fun h => ⟨h.1, fun e he hts => h.2 e he (Nat.lt_of_lt_of_le hts hend)⟩
        obtain ⟨hwatermark, hcore, hset⟩ := hc.chunk hstart haligned
          (Nat.le_min.mpr ⟨Nat.le_add_right _ _, Nat.le_of_lt hlt⟩)
          (fun t ht => hbehind t (Nat.lt_of_lt_of_le ht hend)) hfrom' hchunk
        exact .after hset (.goto hcore hnow ⟨hstep, hstop, hbehind, haligned,
          .inl hwatermark⟩)
    · exact .finish hc hnow _
  | ensure =>
    dsimp only
    have hsame : SameData s { s with db := (ensureFuturePartitions cfg s.db r.now).1 } := by
      unfold ensureFuturePartitions
      split <;> exact ⟨rfl, rfl, rfl, rfl, rfl⟩
    exact .after (.of_sameData hsame) (.finish (hc.of_sameData hsame) hnow _)
  | drop =>
    dsimp only
    refine .goto hc hnow ⟨rfl, fun m hm => ?_, by simp⟩
    exact Nat.le_trans (Nat.add_le_add_left (day_le_retention _) _) (expired_of_mem hm)
  | dropSamples w todo dropped =>
    rw [hph] at hp
    obtain ⟨rfl, htodo, hdropped⟩ := hp
    cases todo with
    | nil =>
      dsimp only
      exact .goto hc hnow ⟨hdropped, fun m hm => expired_of_mem hm⟩
    | cons m todo =>
      have hrest : ∀ m' ∈ todo, startOf (m' + 1) + day ≤ r.now := fun m' hm' =>
        htodo m' (List.mem_cons_of_mem _ hm')
      dsimp only
      split
      · next hsafe =>
        refine .goto hc hnow ⟨rfl, hrest, fun m' hm' => ?_⟩
        rcases List.mem_append.mp hm' with hm' | hm'
        · exact hdropped m' hm'
        · rw [List.mem_singleton.mp hm']
          exact ⟨htodo m List.mem_cons_self, hc.droppable hsafe⟩
      · refine .goto hc hnow ⟨rfl, fun m' hm' => ?_, hdropped⟩
        split at hm'
        · exact hrest m' hm'
        · cases hm'
  | dropHourly samples hourly =>
    rw [hph] at hp
    obtain ⟨hcore, hset⟩ := hc.drop (fun m hm => (hp.1 m hm).2)
      fun m hm => Nat.le_trans (hp.2 m hm) hnow
    exact .after hset (.finish hcore hnow _)

/-- **A step settles what is closed.** -/
theorem Inv.step (hi : Inv cfg s) {l : Label} (hl : punctual s l = true)
    (h : step cfg s l = some s') : Steps cfg s s' := by
  cases l with
  | tick d =>
    cases h
    exact hi.tick d
  | record station ts values =>
    cases h
    obtain ⟨new, hent, hts⟩ := recordSamples_entries cfg s.db station ts values
    rw [hent, List.drop_left]
    refine hi.record hent fun e he => ?_
    rw [hts e he]
    simp only [punctual, Bool.and_eq_true, decide_eq_true_eq] at hl
    exact hl.2
  | start chunkHours =>
    simp only [MetricHistory.step] at h
    split at h
    · cases h
      have hsame : SameData s
          { s with run := some ⟨s.clock, .compact chunkHours, {}⟩ } := ⟨rfl, rfl, rfl, rfl, rfl⟩
      refine ⟨⟨hi.core.of_sameData hsame, ?_⟩, .of_sameData hsame⟩
      rintro _ ⟨⟩
      exact ⟨Nat.le_refl _, trivial⟩
    · cases h
  | advance =>
    obtain ⟨r, hr, rfl⟩ := Option.map_eq_some_iff.mp h
    exact hi.advance hr
  | fail =>
    obtain ⟨r, hr, rfl⟩ := Option.map_eq_some_iff.mp h
    exact .finish hi.core (hi.phase r hr).1 _
  | crash =>
    cases h
    have hsame : SameData s { s with run := none } := ⟨rfl, rfl, rfl, rfl, rfl⟩
    exact ⟨⟨hi.core.of_sameData hsame, by rintro _ ⟨⟩⟩, .of_sameData hsame⟩

/-! ## runs -/

/-- Nothing has been recorded yet. -/
structure Init (s : State) : Prop where
  samples : s.db.samples = .empty
  hourly : s.db.hourly = .empty
  compactedUntil : s.db.compactedUntil = none
  recorded : s.recorded = []
  run : s.run = none

theorem inv_init (h : Init s) : Inv cfg s := by
  have hfloor : s.floor = 0 := by rw [State.floor, h.compactedUntil]; rfl
  refine ⟨⟨?_, ?_, ?_, ?_, ?_⟩, ?_⟩
  · rw [h.samples, h.recorded]
    rfl
  · rw [hfloor]
    exact Nat.dvd_zero _
  · simp [hfloor]
  · simp [h.hourly, Table.get?, Table.empty]
  · simp [hfloor]
  · simp [h.run]

/-- **Compaction is lossless and exact.**  Whatever the chunks and wherever runs end, the
row of an hour before the watermark has the exact aggregates of all samples recorded in
the hour, until the retention of hourly rows has passed and it is dropped; later runs do
not change it; and a sample is dropped only after its hour is before the watermark. -/
theorem compaction_exact (cfg : Settings) (s₀ s : State) (h₀ : Init s₀)
    (h : Reachable (step cfg) (fun s l => punctual s l = true) s₀ s) :
    (∀ w, s.db.compactedUntil = some w → ∀ k, hour ∣ k.ts → k.ts < w →
      Exact (hourRows s.recorded k) (s.db.hourly.get? k) ∨
        s.db.hourly.get? k = none ∧ Expired cfg s.clock k) ∧
    (∀ w, s.db.compactedUntil = some w → ∀ s',
      Reachable (step cfg) (fun s l => punctual s l = true) s s' → ∀ k, k.ts < w →
        s'.db.hourly.get? k = s.db.hourly.get? k ∨
          s'.db.hourly.get? k = none ∧ Expired cfg s'.clock k) ∧
    ∀ e ∈ s.recorded, s.db.samples.get? e.1 = some e.2 ∨
      ∃ w, s.db.compactedUntil = some w ∧ hourFloor e.1.ts + hour ≤ w := by
  have hi : Inv cfg s := h.invariant (P := Inv cfg) (inv_init h₀) fun _ _ _ hi hl hs =>
    (hi.step hl hs).inv
  have hfloor : ∀ w, s.db.compactedUntil = some w → s.floor = w := by
    intro w hw
    rw [State.floor, hw, Option.getD_some]
  refine ⟨fun w hw k _ hk => ?_, fun w hw s' h' k hk => ?_, fun e he => ?_⟩
  · refine (hi.core.exact k (hfloor w hw ▸ hk)).imp (fun heq => ?_) id
    rw [heq]
    exact exact_aggregate _
  · have hlater : Inv cfg s' ∧ Settled cfg s s' :=
      h'.invariant (P := fun s' => Inv cfg s' ∧ Settled cfg s s') ⟨hi, .refl s⟩
        fun _ _ _ hi hl hs =>
          have hstep := hi.1.step hl hs
          ⟨hstep.inv, hi.2.trans hstep.settled⟩
    exact hlater.2.hourly k (hfloor w hw ▸ hk)
  · by_cases hge : s.floor ≤ e.1.ts
    · left
      have hin : e ∈ s.db.samples.entries.filter fun e => s.floor ≤ e.1.ts := by
        rw [hi.core.kept]
        exact List.mem_filter.mpr ⟨he, decide_eq_true hge⟩
      exact (Table.mem_entries_iff _ _ _).mp (List.mem_of_mem_filter hin)
    · right
      have hlt := Nat.not_le.mp hge
      cases hw : s.db.compactedUntil with
      | none =>
        rw [State.floor, hw] at hlt
        exact absurd hlt (Nat.not_lt_zero _)
      | some w =>
        have haligned := hi.core.aligned
        rw [hfloor w hw] at hlt haligned
        exact ⟨w, rfl, hourFloor_add_le haligned hlt⟩

/-! ## examples -/

def sampleSettings : Settings := ⟨false, 30, 730⟩

/-- An empty history. -/
def emptyHistory : State where
  clock := 10 * hour
  db := ⟨.empty, .empty, none, [], []⟩
  run := none
  last := none
  recorded := []

theorem emptyHistory_init : Init emptyHistory := ⟨rfl, rfl, rfl, rfl, rfl⟩

/-- Two samples in one hour, and two hours later a run. -/
def firstRun : List Label :=
  [.record 1 (10 * hour) [("cpu.temp_c", ⟨40, 44, 42⟩)], .tick (600 * second),
    .record 1 (10 * hour + 600 * second) [("cpu.temp_c", ⟨41, 47, 46⟩)], .tick (2 * hour),
    .start 100000] ++ List.replicate 8 .advance

theorem compaction_exact_firstRun : ∃ s : State,
    Reachable (step sampleSettings) (fun s l => punctual s l = true) emptyHistory s ∧
      s.db.compactedUntil = some (12 * hour) ∧
      s.db.hourly.get? ⟨1, "cpu.temp_c", 10 * hour⟩ = some ⟨⟨40, 47, 44⟩, 2⟩ ∧
      Exact (hourRows s.recorded ⟨1, "cpu.temp_c", 10 * hour⟩) (some ⟨⟨40, 47, 44⟩, 2⟩) := by
  obtain ⟨s, hreach, hw, hrow⟩ := exists_admitted (step sampleSettings) punctual emptyHistory
    firstRun (P := fun s => s.db.compactedUntil = some (12 * hour) ∧
      s.db.hourly.get? ⟨1, "cpu.temp_c", 10 * hour⟩ = some ⟨⟨40, 47, 44⟩, 2⟩)
    (by decide +kernel)
  refine ⟨s, hreach, hw, hrow, ?_⟩
  have hexact := (compaction_exact _ _ _ emptyHistory_init hreach).1 _ hw
    ⟨1, "cpu.temp_c", 10 * hour⟩ (by decide) (by decide)
  rw [hrow] at hexact
  exact hexact.resolve_right fun h => by cases h.1

/-- Three years later another run drops the hourly row. -/
def nextRun : List Label := [.tick (1100 * day), .start 100000] ++ List.replicate 8 .advance

def laterRun : List Label := firstRun ++ nextRun

/-- The hour is before the watermark and had a sample, and its row is gone. -/
theorem hourly_row_expired : ∃ s : State,
    Reachable (step sampleSettings) (fun s l => punctual s l = true) emptyHistory s ∧
      ∃ w, s.db.compactedUntil = some w ∧ hour ∣ 10 * hour ∧ 10 * hour < w ∧
        ¬ Exact (hourRows s.recorded ⟨1, "cpu.temp_c", 10 * hour⟩)
          (s.db.hourly.get? ⟨1, "cpu.temp_c", 10 * hour⟩) := by
  obtain ⟨s, hreach, hw, hrow, hlen⟩ := exists_admitted (step sampleSettings) punctual
    emptyHistory laterRun
    (P := fun s => (s.db.compactedUntil.any fun w => 10 * hour < w) = true ∧
      s.db.hourly.get? ⟨1, "cpu.temp_c", 10 * hour⟩ = none ∧
      (hourRows s.recorded ⟨1, "cpu.temp_c", 10 * hour⟩).length = 2) (by decide +kernel)
  obtain ⟨w, hw, hlt⟩ := (Option.any_eq_true _ _).mp hw
  refine ⟨s, hreach, w, hw, by decide, of_decide_eq_true hlt, fun hexact => ?_⟩
  rw [hrow] at hexact
  rw [show hourRows s.recorded _ = [] from hexact] at hlen
  cases hlen

/-- **The watermark moves forward**, and an hour that it has passed gains no sample. -/
theorem watermark_forward (cfg : Settings) (s₀ s s' : State) (h₀ : Init s₀)
    (h : Reachable (step cfg) (fun s l => punctual s l = true) s₀ s)
    (h' : Reachable (step cfg) (fun s l => punctual s l = true) s s') :
    s.floor ≤ s'.floor ∧
      ∀ k, k.ts < s.floor → hourRows s'.recorded k = hourRows s.recorded k := by
  have hi : Inv cfg s := h.invariant (inv_init h₀) fun _ _ _ hi hl hs => (hi.step hl hs).inv
  have hlater : Inv cfg s' ∧ Settled cfg s s' :=
    h'.invariant (P := fun s' => Inv cfg s' ∧ Settled cfg s s') ⟨hi, .refl s⟩
      fun _ _ _ hi hl hs => ⟨(hi.1.step hl hs).inv, hi.2.trans (hi.1.step hl hs).settled⟩
  exact ⟨hlater.2.floor, hlater.2.rows⟩

/-- The second run finds the samples of the first hour where the first one left them. -/
theorem watermark_forward_firstRun : ∃ s s' : State, s.floor = 12 * hour ∧ s.floor ≤ s'.floor ∧
    s'.floor ≠ s.floor ∧ (hourRows s'.recorded ⟨1, "cpu.temp_c", 10 * hour⟩).length = 2 := by
  obtain ⟨s, hreach, hfloor, hlen, hnext⟩ := exists_admitted (step sampleSettings) punctual
    emptyHistory firstRun (P := fun s => s.floor = 12 * hour ∧
      (hourRows s.recorded ⟨1, "cpu.temp_c", 10 * hour⟩).length = 2 ∧
      (run (avoiding (step sampleSettings) fun s l => !punctual s l) s nextRun).any
        (fun s' => s'.floor ≠ s.floor) = true) (by decide +kernel)
  obtain ⟨s', hreach', hne⟩ := exists_admitted (step sampleSettings) punctual s nextRun hnext
  obtain ⟨hle, hrows⟩ := watermark_forward _ _ s s' emptyHistory_init hreach hreach'
  refine ⟨s, s', hfloor, hle, hne, ?_⟩
  rw [hrows _ (by rw [hfloor]; decide), hlen]

end StationManager.MetricHistory
