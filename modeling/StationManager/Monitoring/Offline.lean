import StationManager.Lib.Transition
import StationManager.Monitoring.Models

/-!
# StationManager.Monitoring.Offline

Heartbeats, the job that marks silent stations as offline and the offline
check of the alert engine, interleaved statement by statement.

The two jobs share the status column.  `_check_station_offline` skips stations
whose status is already offline, and `mark_stale_stations_offline` sets that
status three minutes before the engine's threshold has passed, so the engine
finds a silent station only where the marking came late
(`marked_before_check`).  `offline_alerts` says what a run of the check
establishes, and for which markings an alert is never lost.
-/

namespace StationManager.Monitoring

/-- `OFFLINE_THRESHOLD` of `apps.stations.tasks`: two minutes. -/
def staleThreshold : Time := 2 * 60 * 1000000

namespace Db

/-- `_get_active_rule`; rules of a type other than threshold are unique. -/
def getActiveRule (db : Db) (t : AlertType) : Option (Pk × AlertRule) :=
  db.rules.entries.find? fun e => e.2.alertType = t && e.2.isActive

/-- `_build_unresolved_cache` -/
def unresolvedCache (db : Db) : List (Pk × Option AlertType) :=
  (db.alerts.entries.filter fun e => !e.2.isResolved).map fun e => (e.2.station, db.typeOf e.2)

/-- Some alert of type `t` is open for the station. -/
def hasOpen (db : Db) (t : AlertType) (station : Pk) : Bool :=
  db.alerts.entries.any fun e =>
    !e.2.isResolved && e.2.station = station && db.typeOf e.2 = some t

/-- `_auto_resolve` for one station -/
def autoResolve (db : Db) (now : Time) (t : AlertType) (station : Pk) : Db :=
  db.resolveAlerts now fun _ a => db.typeOf a = some t && a.station = station

end Db

namespace Offline

/-! ## the jobs -/

/-- Where a run of `mark_stale_stations_offline` stands. -/
inductive Mark
  | opened (now : Time)
  | writing (todo : List Pk)
deriving DecidableEq

/-- Where a run of `check_alerts` stands: `now` is the clock reading of
`_check_station_offline`, `cache` the alerts that were open at the start. -/
inductive Check
  | cached (cache : List (Pk × Option AlertType))
  | opened (cache : List (Pk × Option AlertType)) (rule : Pk × AlertRule) (now : Time)
  | creating (cache : List (Pk × Option AlertType)) (rule : Pk × AlertRule) (now : Time)
      (todo : List (Pk × Station))
  | resolving (now : Time) (todo : List Pk)
  | checked (now : Time)
  | skipped
deriving DecidableEq

structure State where
  clock : Time
  db : Db
  mark : Option Mark
  check : Option Check
  /-- The stations that reported since the run in progress asked for the stations
  that are back. -/
  late : List Pk

inductive Label
  | tick (d : Time)
  | heartbeat (station : Pk)
  | mark
  | check
  /-- Another check opens an alert. -/
  | raise (station rule : Pk) (title message : String) (severity : Severity)
  /-- Another check resolves an alert. -/
  | settle (alert : Pk)
deriving DecidableEq

section
variable (stamp : Time → String)

/-- The text of an offline alert; `stamp` prints a time. -/
def offlineMessage (st : Station) : String :=
  "Station " ++ st.name ++ " has not sent a heartbeat for more than 0:05:00. Last seen: " ++
    st.lastSeen.elim "None" stamp ++ "."

/-- One statement of `mark_stale_stations_offline`. -/
def markStep (s : State) : Option Mark → State
  | none => { s with mark := some (.opened s.clock) }
  | some (.opened now) =>
    let stale := s.db.stations.filter fun _ st =>
      st.status = .online && st.silent staleThreshold now
    { s with mark := some (.writing (stale.entries.map Prod.fst)) }
  | some (.writing (pk :: todo)) =>
    { s with
      db := { s.db with
        stations := s.db.stations.modify pk fun st => { st with status := .offline } }
      mark := some (.writing todo) }
  | some (.writing []) => { s with mark := none }

/-- One statement of `check_alerts`; the checks after `_check_station_offline` act
through the labels `raise` and `settle`. -/
def checkStep (s : State) : Option Check → State
  | none => { s with check := some (.cached s.db.unresolvedCache) }
  | some (.cached cache) =>
    match s.db.getActiveRule .stationOffline with
    | none => { s with check := some .skipped }
    | some rule => { s with check := some (.opened cache rule s.clock) }
  | some (.opened cache rule now) =>
    let stale := s.db.stations.filter fun _ st =>
      st.silent offlineThreshold now && st.status ≠ .offline
    { s with check := some (.creating cache rule now stale.entries) }
  | some (.creating cache rule now ((pk, st) :: todo)) =>
    if cache.contains (pk, some .stationOffline) then
      { s with check := some (.creating cache rule now todo) }
    else
      { s with
        db := s.db.createAlert s.clock pk rule.1 ("Station offline: " ++ st.name)
          (offlineMessage stamp st) rule.2.severity
        check := some (.creating cache rule now todo) }
  | some (.creating _ _ now []) =>
    let back := s.db.stations.filter fun _ st => st.current offlineThreshold now
    { s with check := some (.resolving now (back.entries.map Prod.fst)), late := [] }
  | some (.resolving now (pk :: todo)) =>
    { s with
      db := s.db.autoResolve s.clock .stationOffline pk
      check := some (.resolving now todo) }
  | some (.resolving now []) => { s with check := some (.checked now) }
  | some (.checked _) | some .skipped => { s with check := none }

/-- One step of the system.  Rules do not change. -/
def step (s : State) : Label → Option State
  | .tick d => some { s with clock := s.clock + d }
  | .heartbeat pk =>
    some { s with
      db := { s.db with
        stations := s.db.stations.modify pk fun st =>
          { st with lastSeen := some s.clock, status := .online } }
      late := pk :: s.late }
  | .mark => some (markStep s s.mark)
  | .check => some (checkStep stamp s s.check)
  | .raise station rule title message severity =>
    if (s.db.rules.get? rule).any fun r => r.alertType ≠ .stationOffline then
      some { s with db := s.db.createAlert s.clock station rule title message severity }
    else none
  | .settle pk =>
    some { s with
      db := s.db.resolveAlerts s.clock fun j a =>
        j = pk && s.db.typeOf a ≠ some .stationOffline }

end

/-! ## what a marking can hide -/

/-- The clock reading that counts for a station's silence: that of the check in
progress, if it has made one. -/
def State.horizon (s : State) : Time :=
  match s.check with
  | some (.opened _ _ now) | some (.creating _ _ now _) | some (.resolving now _)
  | some (.checked now) => now
  | _ => s.clock

/-- The step marks a station as offline whose alert is not open, or that the
engine's threshold still counts as online. -/
def hides (s : State) : Label → Bool
  | .mark => match s.mark with
      | some (.writing (pk :: _)) =>
        !(s.db.hasOpen .stationOffline pk &&
          (s.db.stations.get? pk).all fun st => st.silent offlineThreshold s.horizon)
      | _ => false
  | _ => false

/-- A start: no station has sent a heartbeat yet, no job is running and there is an
active rule. -/
structure Init (s : State) : Prop where
  idle : s.mark = none ∧ s.check = none
  unseen : ∀ pk st, s.db.stations.get? pk = some st → st.lastSeen = none
  numbered : s.db.AlertsNumbered
  rule : s.db.getActiveRule .stationOffline ≠ none

/-! ## open alerts -/

theorem hasOpen_iff {db : Db} {t : AlertType} {station : Pk} :
    db.hasOpen t station = true ↔ ∃ pk a, db.alerts.get? pk = some a ∧ a.isResolved = false ∧
      a.station = station ∧ db.typeOf a = some t := by
  simp only [Db.hasOpen, List.any_eq_true, Prod.exists, Table.mem_entries_iff, Bool.and_eq_true,
    Bool.not_eq_true', decide_eq_true_eq, and_assoc]

theorem mem_unresolvedCache {db : Db} {t : AlertType} {station : Pk} :
    (station, some t) ∈ db.unresolvedCache ↔ db.hasOpen t station = true := by
  simp [Db.unresolvedCache, Db.hasOpen, and_assoc]

theorem hasOpen_createAlert {db : Db} (hn : db.AlertsNumbered) (now : Time) (station rulePk : Pk)
    (title message : String) (severity : Severity) (t : AlertType) (pk : Pk) :
    (db.createAlert now station rulePk title message severity).hasOpen t pk = (db.hasOpen t pk ||
        decide (station = pk ∧ (db.rules.get? rulePk).map AlertRule.alertType = some t)) := by
  rw [Bool.eq_iff_iff, Bool.or_eq_true, decide_eq_true_eq, hasOpen_iff, hasOpen_iff]
  constructor
  · rintro ⟨k, a, ha, hres, hst, hty⟩
    rw [hn.get?_createAlert] at ha
    split at ha
    · cases ha
      exact .inr ⟨hst, hty⟩
    · exact .inl ⟨k, a, ha, hres, hst, hty⟩
  · rintro (⟨k, a, ha, hres, hst, hty⟩ | ⟨hst, hty⟩)
    · have hne : k ≠ db.nextAlert := Nat.ne_of_lt (hn k a ha)
      exact ⟨k, a, by rw [hn.get?_createAlert, if_neg hne, ha], hres, hst, hty⟩
    · refine ⟨db.nextAlert, ⟨station, some rulePk, severity, title, message, now, false, none⟩,
        ?_, rfl, hst, hty⟩
      rw [hn.get?_createAlert, if_pos rfl]

/-- Resolving leaves exactly the open alerts that were not selected. -/
theorem hasOpen_resolveAlerts (db : Db) (now : Time) (p : Pk → Alert → Bool) (t : AlertType)
    (station : Pk) : (db.resolveAlerts now p).hasOpen t station = true ↔
      ∃ pk a, db.alerts.get? pk = some a ∧ a.isResolved = false ∧ a.station = station ∧
        db.typeOf a = some t ∧ p pk a = false := by
  rw [hasOpen_iff]
  constructor
  · rintro ⟨pk, a, ha, hres, hst, hty⟩
    obtain ⟨ha, hres, hp⟩ := Db.get?_resolveAlerts_open.mp ⟨ha, hres⟩
    exact ⟨pk, a, ha, hres, hst, hty, hp⟩
  · rintro ⟨pk, a, ha, hres, hst, hty, hp⟩
    obtain ⟨ha, hres⟩ := Db.get?_resolveAlerts_open.mpr ⟨ha, hres, hp⟩
    exact ⟨pk, a, ha, hres, hst, hty⟩

theorem hasOpen_autoResolve (db : Db) (now : Time) (t : AlertType) (station pk : Pk) :
    (db.autoResolve now t station).hasOpen t pk = (db.hasOpen t pk && decide (pk ≠ station)) := by
  rw [Bool.eq_iff_iff, Db.autoResolve, hasOpen_resolveAlerts, Bool.and_eq_true, hasOpen_iff,
    decide_eq_true_eq]
  constructor
  · rintro ⟨k, a, ha, hres, hst, hty, hp⟩
    refine ⟨⟨k, a, ha, hres, hst, hty⟩, ?_⟩
    simpa [hty, hst] using hp
  · rintro ⟨⟨k, a, ha, hres, hst, hty⟩, hne⟩
    exact ⟨k, a, ha, hres, hst, hty, by simpa [hty, hst] using hne⟩

/-! ## what a run of the check knows -/

section
variable {stamp : Time → String} {s s' : State} {now : Time}

abbrev State.open (s : State) (pk : Pk) : Bool := s.db.hasOpen .stationOffline pk

/-- The alerts in the cache are still open. -/
def CacheOpen (s : State) (cache : List (Pk × Option AlertType)) : Prop :=
  ∀ pk, (pk, some .stationOffline) ∈ cache → s.open pk = true

def OfflineRule (s : State) (rule : Pk × AlertRule) : Prop :=
  (s.db.rules.get? rule.1).map AlertRule.alertType = some .stationOffline

/-- Of the stations seen within the threshold only those in `todo`, or those that
reported after the query, can have an open alert. -/
def Resolved (s : State) (now : Time) (todo : List Pk) : Prop :=
  (∀ pk ∈ todo, ∃ st, s.db.stations.get? pk = some st ∧ st.current offlineThreshold now = true) ∧
  ∀ pk st, s.db.stations.get? pk = some st → st.current offlineThreshold now = true →
    pk ∉ s.late → pk ∈ todo ∨ s.open pk = false

/-- Every silent station outside `todo` has its alert. -/
def Raised (s : State) (now : Time) (todo : List Pk) : Prop :=
  ∀ pk st, s.db.stations.get? pk = some st → st.silent offlineThreshold now = true →
    s.open pk = true ∨ pk ∈ todo

/-- What each phase has established whatever the markings are. -/
def Phase (s : State) : Option Check → Prop
  | some (.opened _ rule _) | some (.creating _ rule _ _) => OfflineRule s rule
  | some (.resolving now todo) => Resolved s now todo
  | some (.checked now) => Resolved s now []
  | some .skipped => False
  | _ => True

/-- What each phase has established when no marking hides a station. -/
def AlertPhase (s : State) : Option Check → Prop
  | some (.cached cache) | some (.opened cache _ _) => CacheOpen s cache
  | some (.creating cache _ now todo) => CacheOpen s cache ∧ Raised s now (todo.map Prod.fst)
  | some (.resolving now _) | some (.checked now) => Raised s now []
  | _ => True

structure Inv (s : State) : Prop where
  numbered : s.db.AlertsNumbered
  rule : s.db.getActiveRule .stationOffline ≠ none
  horizon : s.horizon ≤ s.clock
  phase : Phase s s.check

structure AlertInv (s : State) : Prop where
  /-- A station that was marked as offline has its alert, and the engine counts it as
  silent. -/
  marked : ∀ pk st, s.db.stations.get? pk = some st → st.status = .offline →
    st.lastSeen ≠ none → s.open pk = true ∧ st.silent offlineThreshold s.horizon = true
  phase : AlertPhase s s.check

/-! ### steps between those of the check -/

/-- What the steps of the others leave to a run of the check: a station can only
become current, and what it read before stays true. -/
structure Frame (s s' : State) : Prop where
  rules : s'.db.rules = s.db.rules
  alerts : ∀ pk, s'.open pk = s.open pk
  check : s'.check = s.check
  clock : s.clock ≤ s'.clock
  numbered : s'.db.AlertsNumbered
  silent : ∀ pk st', s'.db.stations.get? pk = some st' → ∀ now ≤ s.clock,
    st'.silent offlineThreshold now = true →
    ∃ st, s.db.stations.get? pk = some st ∧ st.silent offlineThreshold now = true
  current : ∀ pk st', s'.db.stations.get? pk = some st' → pk ∉ s'.late → pk ∉ s.late ∧
    ∀ now, st'.current offlineThreshold now = true →
      ∃ st, s.db.stations.get? pk = some st ∧ st.current offlineThreshold now = true
  kept : ∀ pk st, s.db.stations.get? pk = some st → ∀ now ≤ s.clock,
    st.current offlineThreshold now = true →
    ∃ st', s'.db.stations.get? pk = some st' ∧ st'.current offlineThreshold now = true

/-- A step that does not touch the stations. -/
theorem Frame.of_stations (hst : s'.db.stations = s.db.stations) (hlate : s'.late = s.late)
    (hrules : s'.db.rules = s.db.rules) (halerts : ∀ pk, s'.open pk = s.open pk)
    (hcheck : s'.check = s.check) (hclock : s.clock ≤ s'.clock)
    (hnum : s'.db.AlertsNumbered) : Frame s s' where
  rules := hrules
  alerts := halerts
  check := hcheck
  clock := hclock
  numbered := hnum
  silent _ st' h _ _ hs := ⟨st', hst ▸ h, hs⟩
  current _ st' h hl := ⟨hlate ▸ hl, fun _ hc => ⟨st', hst ▸ h, hc⟩⟩
  kept _ st h _ _ hc := ⟨st, hst.symm ▸ h, hc⟩

theorem Frame.horizon_le (h : Frame s s') : s.horizon ≤ s'.horizon := by
  unfold State.horizon
  rw [h.check]
  split
  all_goals first
    | exact Nat.le_refl _
    | exact h.clock

theorem Frame.resolved (h : Frame s s') {todo : List Pk} (hnow : now ≤ s.clock)
    (hr : Resolved s now todo) : Resolved s' now todo := by
  refine ⟨fun pk hpk => ?_, fun pk st' hst' hc hlate => ?_⟩
  · obtain ⟨st, hst, hc⟩ := hr.1 pk hpk
    exact h.kept pk st hst now hnow hc
  · obtain ⟨hl, hback⟩ := h.current pk st' hst' hlate
    obtain ⟨st, hst, hc⟩ := hback now hc
    rw [h.alerts]
    exact hr.2 pk st hst hc hl

theorem Frame.raised (h : Frame s s') {todo : List Pk} (hnow : now ≤ s.clock)
    (hr : Raised s now todo) : Raised s' now todo := by
  intro pk st' hst' hs
  obtain ⟨st, hst, hs⟩ := h.silent pk st' hst' now hnow hs
  rw [h.alerts]
  exact hr pk st hst hs

theorem Frame.inv (h : Frame s s') (hi : Inv s) : Inv s' where
  numbered := h.numbered
  rule := by
    rw [Db.getActiveRule, h.rules]
    exact hi.rule
  horizon := by
    have hh := hi.horizon
    unfold State.horizon at hh ⊢
    rw [h.check]
    split at hh
    all_goals first
      | exact Nat.le_trans hh h.clock
      | exact Nat.le_refl _
  phase := by
    have hp := hi.phase
    have hh := hi.horizon
    unfold State.horizon at hh
    rw [h.check]
    cases hc : s.check with
    | none => trivial
    | some c =>
      rw [hc] at hp hh
      cases c with
      | cached cache => trivial
      | opened cache rule now =>
        rw [Phase, OfflineRule, h.rules]
        exact hp
      | creating cache rule now todo =>
        rw [Phase, OfflineRule, h.rules]
        exact hp
      | resolving now todo => exact h.resolved hh hp
      | checked now => exact h.resolved hh hp
      | skipped => exact hp

theorem Frame.alertInv (h : Frame s s') (hi : Inv s) (ha : AlertInv s)
    (hmark : ∀ pk st', s'.db.stations.get? pk = some st' → st'.status = .offline →
      st'.lastSeen ≠ none →
      s.open pk = true ∧ st'.silent offlineThreshold s.horizon = true) : AlertInv s' where
  marked pk st hst hoff hseen := by
    obtain ⟨hopen, hsil⟩ := hmark pk st hst hoff hseen
    rw [h.alerts]
    exact ⟨hopen, Station.silent_mono h.horizon_le hsil⟩
  phase := by
    have hp := ha.phase
    have hh := hi.horizon
    unfold State.horizon at hh
    rw [h.check]
    cases hc : s.check with
    | none => trivial
    | some c =>
      rw [hc] at hp hh
      cases c with
      | cached cache =>
        simp only [AlertPhase, CacheOpen, h.alerts]
        exact hp
      | opened cache rule now =>
        simp only [AlertPhase, CacheOpen, h.alerts]
        exact hp
      | creating cache rule now todo =>
        simp only [AlertPhase, CacheOpen, h.alerts]
        exact ⟨hp.1, h.raised hh hp.2⟩
      | resolving now todo => exact h.raised hh hp
      | checked now => exact h.raised hh hp
      | skipped => trivial

theorem frame_heartbeat (hn : s.db.AlertsNumbered) {pk : Pk}
    (h : step stamp s (.heartbeat pk) = some s') : Frame s s' := by
  cases h
  refine ⟨rfl, fun _ => rfl, rfl, Nat.le_refl _, hn, ?_, ?_, ?_⟩
  · intro j st' hst' now hnow hs
    simp only [Table.get?_modify] at hst'
    split at hst'
    · obtain ⟨st, -, rfl⟩ := Option.map_eq_some_iff.mp hst'
      obtain ⟨ls, hls, hlt⟩ := Station.silent_iff.mp hs
      cases hls
      exact absurd (Nat.lt_of_lt_of_le hlt hnow) (Nat.not_lt.mpr (Nat.le_add_right _ _))
    · exact ⟨st', hst', hs⟩
  · intro j st' hst' hlate
    simp only [List.mem_cons, not_or] at hlate
    simp only [Table.get?_modify, if_neg hlate.1] at hst'
    exact ⟨hlate.2, fun now hc => ⟨st', hst', hc⟩⟩
  · intro j st hst now hnow hc
    simp only [Table.get?_modify]
    split
    · refine ⟨_, by rw [hst]; rfl, Station.current_iff.mpr ⟨s.clock, rfl, ?_⟩⟩
      exact Nat.le_trans hnow (Nat.le_add_right _ _)
    · exact ⟨st, hst, hc⟩

/-- A station row after its status was written. -/
theorem get?_marked {t : Table Pk Station} {pk j : Pk} {st' : Station}
    (h : (t.modify pk fun st => { st with status := .offline }).get? j = some st') :
    ∃ st, t.get? j = some st ∧ st'.lastSeen = st.lastSeen ∧ (j ≠ pk → st' = st) := by
  rw [Table.get?_modify] at h
  split at h
  · next hj =>
    obtain ⟨st, hst, rfl⟩ := Option.map_eq_some_iff.mp h
    exact ⟨st, hst, rfl, fun hne => absurd hj hne⟩
  · exact ⟨st', h, rfl, fun _ => rfl⟩

theorem frame_mark (hn : s.db.AlertsNumbered) (h : step stamp s .mark = some s') : Frame s s' := by
  cases h
  unfold markStep
  split
  case h_3 pk todo hm =>
      refine ⟨rfl, fun _ => rfl, rfl, Nat.le_refl _, hn, ?_, ?_, ?_⟩
      · intro j st' hst' now hnow hs
        obtain ⟨st, hst, hls, -⟩ := get?_marked hst'
        refine ⟨st, hst, ?_⟩
        rwa [Station.silent, ← hls]
      · intro j st' hst' hlate
        obtain ⟨st, hst, hls, -⟩ := get?_marked hst'
        refine ⟨hlate, fun now hc => ⟨st, hst, ?_⟩⟩
        rwa [Station.current, ← hls]
      · intro j st hst now hnow hc
        simp only [Table.get?_modify]
        split
        · exact ⟨{ st with status := .offline }, by rw [hst]; rfl, hc⟩
        · exact ⟨st, hst, hc⟩
  all_goals exact .of_stations rfl rfl rfl (fun _ => rfl) rfl (Nat.le_refl _) hn

theorem frame_raise (hn : s.db.AlertsNumbered) {station rule : Pk} {title message : String}
    {severity : Severity}
    (h : step stamp s (.raise station rule title message severity) = some s') : Frame s s' := by
  simp only [step, Option.ite_none_right_eq_some, Option.some.injEq] at h
  obtain ⟨hrule, rfl⟩ := h
  refine .of_stations rfl rfl rfl (fun pk => ?_) rfl (Nat.le_refl _) (hn.createAlert _ _ _ _ _ _)
  obtain ⟨r, hr, hty⟩ := (Option.any_eq_true _ _).mp hrule
  show Db.hasOpen _ _ _ = _
  rw [hasOpen_createAlert hn, hr]
  simp_all

theorem frame_settle (hn : s.db.AlertsNumbered) {pk : Pk}
    (h : step stamp s (.settle pk) = some s') : Frame s s' := by
  cases h
  refine .of_stations rfl rfl rfl (fun station => ?_) rfl (Nat.le_refl _) (hn.resolveAlerts _ _)
  show Db.hasOpen _ _ _ = Db.hasOpen _ _ _
  rw [Bool.eq_iff_iff, hasOpen_resolveAlerts, hasOpen_iff]
  constructor
  · rintro ⟨k, a, ha, hres, hst, hty, -⟩
    exact ⟨k, a, ha, hres, hst, hty⟩
  · rintro ⟨k, a, ha, hres, hst, hty⟩
    exact ⟨k, a, ha, hres, hst, hty, by simp [hty]⟩

/-- Every step that is not one of the check is framed. -/
theorem frame_step (hn : s.db.AlertsNumbered) {l : Label} (hl : l ≠ .check)
    (h : step stamp s l = some s') : Frame s s' := by
  cases l with
  | tick d =>
    cases h
    exact .of_stations rfl rfl rfl (fun _ => rfl) rfl (Nat.le_add_right _ _) hn
  | heartbeat pk => exact frame_heartbeat hn h
  | mark => exact frame_mark hn h
  | check => exact absurd rfl hl
  | raise station rule title message severity => exact frame_raise hn h
  | settle pk => exact frame_settle hn h

/-- Away from the marking job a status can only become online. -/
theorem marked_step (ha : AlertInv s) {l : Label} (hl : l ≠ .check) (hhide : hides s l = false)
    (h : step stamp s l = some s') : ∀ pk st', s'.db.stations.get? pk = some st' →
      st'.status = .offline → st'.lastSeen ≠ none →
      s.open pk = true ∧ st'.silent offlineThreshold s.horizon = true := by
  intro j st' hst' hoff hseen
  cases l with
  | tick d =>
    cases h
    exact ha.marked j st' hst' hoff hseen
  | heartbeat pk =>
    cases h
    simp only [Table.get?_modify] at hst'
    split at hst'
    · obtain ⟨st, -, rfl⟩ := Option.map_eq_some_iff.mp hst'
      cases hoff
    · exact ha.marked j st' hst' hoff hseen
  | mark =>
    cases h
    unfold markStep at hst'
    split at hst'
    case h_3 pk todo hm =>
        obtain ⟨st, hst, hls, hne⟩ := get?_marked hst'
        by_cases hj : j = pk
        · subst hj
          simp only [hides, hm, hst, Option.all_some, Bool.not_eq_false', Bool.and_eq_true]
            at hhide
          refine ⟨hhide.1, ?_⟩
          rw [Station.silent, hls]
          exact hhide.2
        · rw [hne hj] at hoff hseen ⊢
          exact ha.marked j st hst hoff hseen
    all_goals exact ha.marked j st' hst' hoff hseen
  | check => exact absurd rfl hl
  | raise station rule title message severity =>
    simp only [step, Option.ite_none_right_eq_some, Option.some.injEq] at h
    obtain ⟨-, rfl⟩ := h
    exact ha.marked j st' hst' hoff hseen
  | settle pk =>
    cases h
    exact ha.marked j st' hst' hoff hseen

/-! ### the steps of the check -/

theorem getActiveRule_type {db : Db} {t : AlertType} {rule : Pk × AlertRule}
    (h : db.getActiveRule t = some rule) :
    (db.rules.get? rule.1).map AlertRule.alertType = some t := by
  have hmem := List.mem_of_find?_eq_some h
  have hty := List.find?_some h
  rw [(Table.mem_entries_iff _ rule.1 rule.2).mp hmem]
  simp only [Bool.and_eq_true, decide_eq_true_eq] at hty
  exact congrArg some hty.1

theorem mem_keys_filter {t : Table Pk Station} {p : Pk → Station → Bool} {pk : Pk} :
    pk ∈ (t.filter p).entries.map Prod.fst ↔ ∃ st, t.get? pk = some st ∧ p pk st = true := by
  simp only [List.mem_map, Prod.exists, Table.mem_entries_iff, Table.get?_filter,
    Option.filter_eq_some_iff, exists_and_right, exists_eq_right]

theorem inv_check (hi : Inv s) (h : step stamp s .check = some s') : Inv s' := by
  have hh := hi.horizon
  have hp := hi.phase
  obtain ⟨rule, hrule⟩ := Option.ne_none_iff_exists'.mp hi.rule
  simp only [step, Option.some.injEq] at h
  subst h
  unfold State.horizon at hh
  cases hc : s.check with
  | none => exact ⟨hi.numbered, hi.rule, Nat.le_refl _, trivial⟩
  | some c =>
    rw [hc] at hh hp
    cases c with
    | cached cache =>
      rw [checkStep, hrule]
      exact ⟨hi.numbered, hi.rule, Nat.le_refl _, getActiveRule_type hrule⟩
    | opened cache rule now => exact ⟨hi.numbered, hi.rule, hh, hp⟩
    | creating cache rule now todo =>
      cases todo with
      | nil =>
        refine ⟨hi.numbered, hi.rule, hh, fun pk hpk => ?_, fun pk st hst hcur _ => ?_⟩
        · exact mem_keys_filter.mp hpk
        · exact .inl (mem_keys_filter.mpr ⟨st, hst, hcur⟩)
      | cons e todo =>
        obtain ⟨pk, st⟩ := e
        rw [checkStep]
        split
        · exact ⟨hi.numbered, hi.rule, hh, hp⟩
        · exact ⟨hi.numbered.createAlert _ _ _ _ _ _, hi.rule, hh, hp⟩
    | resolving now todo =>
      cases todo with
      | nil => exact ⟨hi.numbered, hi.rule, hh, hp⟩
      | cons pk todo =>
        refine ⟨hi.numbered.resolveAlerts _ _, hi.rule, hh,
          fun j hj => hp.1 j (List.mem_cons_of_mem _ hj), fun j st hst hcur hlate => ?_⟩
        show j ∈ todo ∨
          (s.db.autoResolve s.clock .stationOffline pk).hasOpen .stationOffline j = false
        rw [hasOpen_autoResolve]
        rcases hp.2 j st hst hcur hlate with hmem | hno
        · rcases List.mem_cons.mp hmem with rfl | hmem
          · simp
          · exact .inl hmem
        · rw [show s.db.hasOpen .stationOffline j = false from hno]
          exact .inr rfl
    | checked now => exact ⟨hi.numbered, hi.rule, Nat.le_refl _, trivial⟩
    | skipped => exact ⟨hi.numbered, hi.rule, Nat.le_refl _, trivial⟩

theorem alertInv_check (hi : Inv s) (ha : AlertInv s) (h : step stamp s .check = some s') :
    AlertInv s' := by
  have hh := hi.horizon
  have hp := hi.phase
  have hap := ha.phase
  have hm := ha.marked
  obtain ⟨rule, hrule⟩ := Option.ne_none_iff_exists'.mp hi.rule
  simp only [step, Option.some.injEq] at h
  subst h
  unfold State.horizon at hh hm
  cases hc : s.check with
  | none =>
    rw [hc] at hm
    exact ⟨hm, fun pk hpk => mem_unresolvedCache.mp hpk⟩
  | some c =>
    rw [hc] at hh hp hm hap
    cases c with
    | cached cache =>
      rw [checkStep, hrule]
      exact ⟨hm, hap⟩
    | opened cache rule now =>
      refine ⟨hm, hap, fun pk st hst hsil => ?_⟩
      -- the query leaves out the stations that are marked, and they have their alert
      by_cases hoff : st.status = .offline
      · obtain ⟨ls, hls, -⟩ := Station.silent_iff.mp hsil
        exact .inl (hm pk st hst hoff (by simp [hls])).1
      · exact .inr (mem_keys_filter.mpr ⟨st, hst, by simp [hsil, hoff]⟩)
    | creating cache rule now todo =>
      cases todo with
      | nil =>
        refine ⟨hm, fun pk st hst hsil => ?_⟩
        exact hap.2 pk st hst hsil
      | cons e todo =>
        obtain ⟨pk, row⟩ := e
        rw [checkStep]
        split
        · next hcache =>
          refine ⟨hm, hap.1, fun j st hst hsil => ?_⟩
          rcases hap.2 j st hst hsil with hopen | hmem
          · exact .inl hopen
          · rcases List.mem_cons.mp hmem with rfl | hmem
            · exact .inl (hap.1 j (List.contains_iff_mem.mp hcache))
            · exact .inr hmem
        · have hopen : ∀ j, (s.db.createAlert s.clock pk rule.1
              ("Station offline: " ++ row.name) (offlineMessage stamp row)
              rule.2.severity).hasOpen .stationOffline j = (s.open j || decide (pk = j)) := by
            intro j
            have hty : (s.db.rules.get? rule.1).map AlertRule.alertType =
              some .stationOffline := hp
            rw [hasOpen_createAlert hi.numbered, hty]
            simp
          refine ⟨fun j st hst hoff hseen => ?_, fun j hj => ?_, fun j st hst hsil => ?_⟩
          · obtain ⟨ho, hs⟩ := hm j st hst hoff hseen
            exact ⟨by rw [State.open, hopen, ho, Bool.true_or], hs⟩
          · rw [State.open, hopen, hap.1 j hj, Bool.true_or]
          · rw [State.open, hopen]
            rcases hap.2 j st hst hsil with ho | hmem
            · exact .inl (by rw [ho, Bool.true_or])
            · rcases List.mem_cons.mp hmem with rfl | hmem
              · exact .inl (by simp)
              · exact .inr hmem
    | resolving now todo =>
      cases todo with
      | nil => exact ⟨hm, hap⟩
      | cons pk todo =>
        -- a silent station is not among those that are back
        have hkeep : ∀ j st, s.db.stations.get? j = some st →
            st.silent offlineThreshold now = true → s.open j = true →
            (s.db.autoResolve s.clock .stationOffline pk).hasOpen .stationOffline j =
              true := by
          intro j st hst hsil hopen
          have hne : j ≠ pk := by
            rintro rfl
            obtain ⟨st', hst', hcur⟩ := hp.1 j List.mem_cons_self
            cases hst.symm.trans hst'
            rw [Station.not_current hsil] at hcur
            cases hcur
          rw [hasOpen_autoResolve]
          simp [hne, show s.db.hasOpen .stationOffline j = true from hopen]
        refine ⟨fun j st hst hoff hseen => ?_, fun j st hst hsil => .inl ?_⟩
        · obtain ⟨ho, hs⟩ := hm j st hst hoff hseen
          exact ⟨hkeep j st hst hs ho, hs⟩
        · rcases hap j st hst hsil with ho | hmem
          · exact hkeep j st hst hsil ho
          · cases hmem
    | checked now =>
      refine ⟨fun j st hst hoff hseen => ?_, trivial⟩
      obtain ⟨ho, hs⟩ := hm j st hst hoff hseen
      exact ⟨ho, Station.silent_mono hh hs⟩
    | skipped => exact ⟨hm, trivial⟩

/-! ## runs -/

variable {s₀ : State}

theorem inv_init (h : Init s) : Inv s := by
  have hhorizon : s.horizon = s.clock := by rw [State.horizon, h.idle.2]
  refine ⟨h.numbered, h.rule, Nat.le_of_eq hhorizon, ?_⟩
  simp only [h.idle.2, Phase]

theorem alertInv_init (h : Init s) : AlertInv s := by
  refine ⟨fun pk st hst _ hseen => absurd (h.unseen pk st hst) hseen, ?_⟩
  rw [h.idle.2]
  trivial

theorem inv_step {l : Label} (hi : Inv s) (h : step stamp s l = some s') : Inv s' := by
  by_cases hl : l = .check
  · subst hl
    exact inv_check hi h
  · exact (frame_step hi.numbered hl h).inv hi

theorem alertInv_step {l : Label} (hi : Inv s) (ha : AlertInv s) (hhide : hides s l = false)
    (h : step stamp s l = some s') : AlertInv s' := by
  by_cases hl : l = .check
  · subst hl
    exact alertInv_check hi ha h
  · exact (frame_step hi.numbered hl h).alertInv hi ha (marked_step ha hl hhide h)

theorem reachable_inv {ok : State → Label → Prop} (h₀ : Init s₀)
    (h : Reachable (step stamp) ok s₀ s) : Inv s :=
  h.invariant (inv_init h₀) fun _ _ _ hi _ hs => inv_step hi hs

theorem reachable_alertInv (h₀ : Init s₀)
    (h : Reachable (step stamp) (fun s l => hides s l = false) s₀ s) : AlertInv s := by
  have hboth : Inv s ∧ AlertInv s := by
    refine h.invariant (P := fun s => Inv s ∧ AlertInv s)
      ⟨inv_init h₀, alertInv_init h₀⟩ ?_
    rintro u l v ⟨hi, ha⟩ hhide hs
    exact ⟨inv_step hi hs, alertInv_step hi ha hhide hs⟩
  exact hboth.2

/-- **The offline alerts after a run of the check** with clock reading `now`: no
station seen within the threshold has one, unless it reported only after the
run had asked; and every station that has been silent for longer has one, in
every run in which no marking hides a station. -/
theorem offline_alerts (h₀ : Init s₀) (h : Reachable (step stamp) (fun _ _ => True) s₀ s)
    (hrun : s.check = some (.checked now)) (hend : step stamp s .check = some s') :
    s'.check = none ∧
    (∀ pk st, s'.db.stations.get? pk = some st → st.current offlineThreshold now = true →
      pk ∉ s'.late → s'.open pk = false) ∧
    (Reachable (step stamp) (fun s l => hides s l = false) s₀ s →
      ∀ pk st, s'.db.stations.get? pk = some st → st.silent offlineThreshold now = true →
        s'.open pk = true) := by
  simp only [step, hrun, checkStep, Option.some.injEq] at hend
  subst hend
  refine ⟨rfl, fun pk st hst hcur hlate => ?_, fun hkept pk st hst hsil => ?_⟩
  · have hphase := (reachable_inv h₀ h).phase
    rw [hrun] at hphase
    exact (hphase.2 pk st hst hcur hlate).resolve_left List.not_mem_nil
  · have hphase := (reachable_alertInv h₀ hkept).phase
    rw [hrun] at hphase
    exact (hphase pk st hst hsil).resolve_right List.not_mem_nil

end

/-! ## examples -/

/-- One station that has not reported yet, and the rule for its silence. -/
def oneStation : State where
  clock := 0
  db :=
    { stations := ⟨[(1, ⟨"OE5XRX", .offline, none⟩)], by decide⟩
      telemetry := .empty
      rules := ⟨[(1, { alertType := .stationOffline, threshold := 5, severity := .critical })],
        by decide⟩
      definitions := .empty
      states := .empty
      alerts := .empty
      nextAlert := 1 }
  mark := none
  check := none
  late := []

theorem oneStation_init : Init oneStation where
  idle := ⟨rfl, rfl⟩
  unseen pk st h := by
    have hmem := (Table.mem_entries_iff _ pk st).mpr h
    simp only [oneStation, List.mem_singleton, Prod.mk.injEq] at hmem
    rw [hmem.2]
  numbered pk a h := by cases h
  rule := by decide

def minute : Time := 60 * 1000000

/-- The statements of a whole run of a job. -/
def statements (l : Label) (n : Nat) : List Label := List.replicate n l

/-- The station reports and falls silent.  The engine notices it before the marking
does, the marking follows, and the next run of the check keeps the alert. -/
def noticedThenMarked : List Label :=
  [.heartbeat 1, .tick (6 * minute)] ++ statements .check 7 ++ statements .mark 4 ++
    statements .check 5

/-- After `noticedThenMarked` the station is marked, silent and has its alert. -/
theorem offline_alerts_noticedThenMarked : ∃ s s' : State,
    s.check = some (.checked (6 * minute)) ∧ step (fun _ => "") s .check = some s' ∧
    ((s'.db.stations.get? 1).map Station.status) = some .offline ∧ s'.open 1 = true := by
  obtain ⟨s, hkept, hcheck, hst⟩ := exists_avoiding (step fun _ => "") hides oneStation
    noticedThenMarked (P := fun s => s.check = some (.checked (6 * minute)) ∧
      s.db.stations.get? 1 = some ⟨"OE5XRX", .offline, some 0⟩) (by decide)
  have hend : step (fun _ => "") s .check = some { s with check := none } := by
    rw [step, hcheck]
    rfl
  have hsilent : (⟨"OE5XRX", .offline, some 0⟩ : Station).silent offlineThreshold (6 * minute) =
      true := by decide
  have halerts := offline_alerts oneStation_init (hkept.mono fun _ _ _ => trivial) hcheck hend
  exact ⟨s, _, hcheck, hend, by rw [hst]; rfl, halerts.2.2 hkept 1 _ hst hsilent⟩

/-- The same silence, but the marking comes first, as soon as its own threshold has
passed. -/
def markedFirst : List Label :=
  [.heartbeat 1, .tick (3 * minute)] ++ statements .mark 4 ++ [.tick (3 * minute)] ++
    statements .check 5

/-- A station that was marked before the engine's threshold passed gets no alert. -/
theorem marked_before_check : ∃ s s' : State, Init oneStation ∧
    Reachable (step fun _ => "") (fun _ _ => True) oneStation s ∧
    s.check = some (.checked (6 * minute)) ∧ step (fun _ => "") s .check = some s' ∧
    (∃ st, s'.db.stations.get? 1 = some st ∧ st.silent offlineThreshold (6 * minute) = true) ∧
    s'.open 1 = false := by
  obtain ⟨s, hreach, hcheck, hst, hopen⟩ := exists_reachable (step fun _ => "") oneStation
    markedFirst (P := fun s => s.check = some (.checked (6 * minute)) ∧
      s.db.stations.get? 1 = some ⟨"OE5XRX", .offline, some 0⟩ ∧ s.open 1 = false) (by decide)
  have hend : step (fun _ => "") s .check = some { s with check := none } := by
    rw [step, hcheck]
    rfl
  exact ⟨s, _, oneStation_init, hreach, hcheck, hend, ⟨_, hst, by decide⟩, hopen⟩

end Offline
end StationManager.Monitoring
