import StationManager.Lib.Transition
import StationManager.Monitoring.CurrentValues
import StationManager.Monitoring.Writes

/-!
# StationManager.Monitoring.Thresholds

Durations and hysteresis of threshold rules, over whole sequences of engine
runs with any samples, and operators that resolve alerts in between.
`Progress.evaluateRules` follows one run through its rules, and
`threshold_hysteresis` is what holds for every sequence.
-/

namespace StationManager.Monitoring.Thresholds

/-! ## the system -/

structure State where
  db : Db
  /-- The time of the last run. -/
  clock : Time
  /-- What the engine did so far, newest first. -/
  log : List Record

inductive Label
  /-- Heartbeats and the metric ingest: the rows that a run reads, changed in any way. -/
  | observe (stations : Table Pk Station)
      (telemetry : Table Pk (Option (Table String (Option Sample))))
      (definitions : Table String MetricDefinition)
  /-- `_check_thresholds` -/
  | run (now : Time)
  /-- An operator resolves an alert. -/
  | resolve (alert : Pk) (now : Time)

def step (s : State) : Label → Option State
  | .observe stations telemetry definitions =>
    some { s with db := { s.db with stations, telemetry, definitions } }
  | .run now =>
    if s.clock < now then
      let r := s.db.checkThresholds now
      some ⟨r.1, now, r.2.reverse ++ s.log⟩
    else none
  | .resolve alert now => some { s with db := s.db.resolveAlerts now fun pk _ => pk = alert }

/-! ## a run -/

section
variable {db : Db} {log : List Record} {now : Time} {k : StateKey}

/-- The keys and values of the records are those of the outcomes. -/
theorem applyOutcomes_records (db : Db) (now : Time) (os : List Outcome) :
    (db.applyOutcomes now os).2.map (fun r => (r.key, r.breach)) =
      os.map fun o => (o.key, o.breach) := by
  induction os generalizing db with
  | nil => rfl
  | cons o os ih =>
    rw [Db.applyOutcomes, List.map_cons, List.map_cons, ih, applyOutcome_record.2.1,
      applyOutcome_record.2.2]

/-- The transaction of a rule whose candidates are all unblocked. -/
theorem evaluateRule_eq {l : Loaded} {e : Pk × AlertRule} (hrule : db.lockedRule e.1 = some e.2)
    (hblocked : ∀ c ∈ thresholdCandidates l.current l.definitions e.2.metricKey,
      (db.definitions.get? c.key).any MetricDefinition.isBlocked = false) :
    db.evaluateRule l e = db.applyOutcomes l.now
      (evaluateThresholdRule e.1 e.2 (thresholdCandidates l.current l.definitions e.2.metricKey)
        db.states db.alerts l.now) := by
  rw [Db.evaluateRule, hrule]
  dsimp only
  generalize thresholdCandidates l.current l.definitions e.2.metricKey = cs at hblocked ⊢
  have hnone : db.blockedKeys cs = [] := by
    rw [Db.blockedKeys, List.filter_eq_nil_iff]
    rintro key hkey
    obtain ⟨c, hc, rfl⟩ := List.mem_map.mp hkey
    rw [hblocked c hc]
    simp
  cases cs with
  | nil => rfl
  | cons c cs =>
    rw [hnone]
    simp

/-- In a run nothing is blocked between the load and the evaluation. -/
theorem evaluateRule_load {db₀ : Db} {e : Pk × AlertRule}
    (hrule : db.lockedRule e.1 = some e.2) (hdefs : db.definitions = db₀.definitions) :
    db.evaluateRule (db₀.load now) e = db.applyOutcomes now
      (evaluateThresholdRule e.1 e.2 (thresholdCandidates (db₀.current now)
        (db₀.definitions.filter fun _ d => !d.isBlocked) e.2.metricKey)
        db.states db.alerts now) := by
  refine evaluateRule_eq hrule fun c hc => ?_
  obtain ⟨-, -, -, -, hd, -⟩ := mem_thresholdCandidates.mp hc
  rw [Db.load, Table.get?_filter, Option.filter_eq_some_iff] at hd
  rw [hdefs, hd.1]
  simpa using hd.2

/-- What a run knows of its database: nothing that it loaded has changed. -/
def SameInputs (db db₀ : Db) : Prop :=
  db.rules = db₀.rules ∧ db.definitions = db₀.definitions ∧ db.stations = db₀.stations ∧
    db.telemetry = db₀.telemetry

theorem mem_load_rules {e : Pk × AlertRule} :
    e ∈ (db.load now).rules ↔ db.lockedRule e.1 = some e.2 := by
  rw [lockedRule_eq_some, Db.load, List.mem_filter, ← Table.mem_entries_iff]
  simp

section
variable {db₀ : Db}

/-- **The evaluation of one rule** -/
theorem Progress.evaluateRule (hi : Inv db log) (hin : SameInputs db db₀) {e : Pk × AlertRule}
    (he : e ∈ (db₀.load now).rules) (hlog : ∀ r ∈ log, r.key.rule = e.1 → r.now < now) :
    Progress now db log (db.evaluateRule (db₀.load now) e).1
      (db.evaluateRule (db₀.load now) e).2 := by
  have hrule₀ := mem_load_rules.mp he
  have hrule : db.lockedRule e.1 = some e.2 := by
    rw [Db.lockedRule, hin.1]
    exact hrule₀
  rw [evaluateRule_load hrule hin.2.1]
  refine .applyAll hi ?_ ?_ ?_
  · intro o ho
    obtain ⟨c, -, hc⟩ := List.mem_filterMap.mp ho
    exact evaluateCandidate_fresh (lockedRule_eq_some.mp hrule).1 hc
  · rw [evaluateThresholdRule]
    refine pairwise_filterMap_key (fun c => (⟨e.1, c.station, c.key⟩ : StateKey)) Outcome.key
      (fun c o hc => evaluateCandidate_key hc) ?_
    refine (thresholdCandidates_pairwise _ _).imp fun {c c'} hne heq => ?_
    simp only [StateKey.mk.injEq, true_and] at heq
    exact hne (by rw [heq.1, heq.2])
  · intro o ho r hr hrk
    obtain ⟨c, -, hc⟩ := List.mem_filterMap.mp ho
    exact hlog r hr (by rw [hrk, evaluateCandidate_key hc])

/-- Its records are the current values of the rule. -/
theorem evaluateRule_records (hin : SameInputs db db₀) {e : Pk × AlertRule}
    (he : e ∈ (db₀.load now).rules) {b : Bool} :
    (∃ r ∈ (db.evaluateRule (db₀.load now) e).2, r.key = k ∧ r.breach = b) ↔
      k.rule = e.1 ∧ reading db₀ now k = some b := by
  have hrule₀ := mem_load_rules.mp he
  have hrule : db.lockedRule e.1 = some e.2 := by
    rw [Db.lockedRule, hin.1]
    exact hrule₀
  rw [evaluateRule_load hrule hin.2.1]
  have hmem : ∀ os, (∃ r ∈ (db.applyOutcomes now os).2, r.key = k ∧ r.breach = b) ↔
      ∃ o ∈ os, o.key = k ∧ o.breach = b := by
    intro os
    have hrec := congrArg ((k, b) ∈ ·) (applyOutcomes_records db now os)
    simpa only [List.mem_map, Prod.mk.injEq, eq_iff_iff] using hrec
  rw [hmem, reading_eq_some]
  constructor
  · rintro ⟨o, ho, rfl, rfl⟩
    obtain ⟨c, hc, hco⟩ := List.mem_filterMap.mp ho
    obtain ⟨v, hv, rfl⟩ := Option.map_eq_some_iff.mp hco
    exact ⟨rfl, e.2, c, v, hrule₀, hc, rfl, hv, rfl⟩
  · rintro ⟨hk, rule, c, v, hlock, hc, hkey, hv, rfl⟩
    rw [hk] at hlock hkey
    cases hrule₀.symm.trans hlock
    refine ⟨_, List.mem_filterMap.mpr ⟨c, hc, Option.map_eq_some_iff.mpr ⟨v, hv, rfl⟩⟩, ?_, rfl⟩
    exact hkey.symm

theorem Progress.sameInputs {db' : Db} {rs : List Record} (h : Progress now db log db' rs)
    (hin : SameInputs db db₀) : SameInputs db' db₀ :=
  ⟨h.inputs.1.trans hin.1, h.inputs.2.1.trans hin.2.1, h.inputs.2.2.1.trans hin.2.2.1,
    h.inputs.2.2.2.trans hin.2.2.2⟩

/-- **The evaluation of a list of rules** -/
theorem Progress.evaluateRules {es : List (Pk × AlertRule)} (hi : Inv db log)
    (hin : SameInputs db db₀) (hes : ∀ e ∈ es, e ∈ (db₀.load now).rules)
    (hdist : es.Pairwise fun e e' => e.1 ≠ e'.1)
    (hlog : ∀ e ∈ es, ∀ r ∈ log, r.key.rule = e.1 → r.now < now) :
    Progress now db log (db.evaluateRules (db₀.load now) es).1
      (db.evaluateRules (db₀.load now) es).2 ∧
    ∀ k b, (∃ r ∈ (db.evaluateRules (db₀.load now) es).2, r.key = k ∧ r.breach = b) ↔
      (∃ e ∈ es, k.rule = e.1) ∧ reading db₀ now k = some b := by
  induction es generalizing db log with
  | nil => exact ⟨.refl hi, by simp [Db.evaluateRules]⟩
  | cons e es ih =>
    obtain ⟨hne, hdist⟩ := List.pairwise_cons.mp hdist
    have he := hes e List.mem_cons_self
    have hfirst := Progress.evaluateRule hi hin he (hlog e List.mem_cons_self)
    obtain ⟨hrest, hrecs⟩ := ih hfirst.inv (hfirst.sameInputs hin)
      (fun e' he' => hes e' (List.mem_cons_of_mem _ he')) hdist (by
        intro e' he' r hr hrk
        rcases List.mem_append.mp hr with hr | hr
        · -- the records of this rule are not those of a later one
          have hthis := (evaluateRule_records hin he).mp
            ⟨r, List.mem_reverse.mp hr, rfl, rfl⟩
          exact absurd (hthis.1.symm.trans hrk) (hne e' he')
        · exact hlog e' (List.mem_cons_of_mem _ he') r hr hrk)
    refine ⟨hfirst.trans hrest, fun k b => ?_⟩
    simp only [Db.evaluateRules, List.mem_append, List.mem_cons, or_and_right, exists_or,
      exists_eq_left, hrecs k b, evaluateRule_records hin he]

end

/-! ## sequences of runs -/

variable {s s' s₀ : State}

/-- A start: the rules have not been evaluated yet. -/
structure Init (s : State) : Prop where
  states : ∀ k, s.db.states.get? k = none
  log : s.log = []
  numbered : s.db.AlertsNumbered

structure Sound (s : State) : Prop where
  inv : Inv s.db s.log
  past : ∀ r ∈ s.log, r.now ≤ s.clock

theorem sound_init (h : Init s) : Sound s where
  inv := by
    rw [h.log]
    have hown : ∀ k a, ¬ Owns [] k a := by simp [Owns]
    exact
      { numbered := h.numbered
        issued := fun k a hk => absurd hk (hown k a)
        owner := fun k _ a hk => absurd hk (hown k a)
        referred := fun k st a hst => by rw [h.states k] at hst; cases hst
        isReferred := fun k a hk => absurd hk (hown k a)
        timed := fun k st hst => by rw [h.states k] at hst; cases hst
        fired := by simp
        cleared := by simp }
  past := by simp [h.log]

/-- **One run**, with its records. -/
theorem Sound.run (h : Sound s) (hs : step s (.run now) = some s') :
    ∃ rs, s'.log = rs.reverse ++ s.log ∧ s'.clock = now ∧ s.clock < now ∧
      Progress now s.db s.log s'.db rs ∧
      ∀ k b, (∃ r ∈ rs, r.key = k ∧ r.breach = b) ↔ reading s.db now k = some b := by
  simp only [step, Option.ite_none_right_eq_some, Option.some.injEq] at hs
  obtain ⟨hlt, rfl⟩ := hs
  have hdist : (s.db.load now).rules.Pairwise fun e e' => e.1 ≠ e'.1 :=
    (List.pairwise_map.mp s.db.rules.nodup).filter _
  obtain ⟨hprog, hrecs⟩ := Progress.evaluateRules h.inv
    ⟨rfl, rfl, rfl, rfl⟩ (fun e he => he) hdist
    (fun e _ r hr _ => Nat.lt_of_le_of_lt (h.past r hr) hlt)
  refine ⟨_, rfl, rfl, hlt, hprog, fun k b => ?_⟩
  refine (hrecs k b).trans (and_iff_right_of_imp fun hread => ?_)
  obtain ⟨rule, -, -, hrule, -⟩ := reading_eq_some.mp hread
  exact ⟨(k.rule, rule), mem_load_rules.mpr hrule, rfl⟩

theorem Sound.step {l : Label} (h : Sound s) (hs : step s l = some s') : Sound s' := by
  cases l with
  | observe stations telemetry definitions =>
    cases hs
    exact ⟨{ h.inv with }, h.past⟩
  | run now =>
    obtain ⟨rs, hlog, hclock, hlt, hprog, -⟩ := h.run hs
    refine ⟨hlog ▸ hprog.inv, fun r hr => ?_⟩
    rw [hlog] at hr
    rw [hclock]
    rcases List.mem_append.mp hr with hr | hr
    · exact Nat.le_of_eq (hprog.times r (List.mem_reverse.mp hr))
    · exact Nat.le_of_lt (Nat.lt_of_le_of_lt (h.past r hr) hlt)
  | resolve alert now =>
    cases hs
    have hi := h.inv
    refine ⟨{ hi with
      numbered := hi.numbered.resolveAlerts _ _
      issued := fun k a hk => (hi.issued k a hk).resolveAlerts
      isReferred := fun k a hk ho => hi.isReferred k a hk ?_ }, h.past⟩
    obtain ⟨row, hrow⟩ := ho
    obtain ⟨hrow, hres, -⟩ := Db.get?_resolveAlerts_open.mp hrow
    exact ⟨row, hrow, hres⟩

/-- **Durations and hysteresis**, in every state that runs at increasing times and
operator resolutions can lead to, whatever samples the runs see.  An open alert
of a key is the one that the state of the key refers to, so there is at most
one.  And of the next run: it evaluates exactly the keys with a current value;
an alert that it creates belongs to a key whose values have been a breach for
the duration of the rule, without a longer gap; an alert that it resolves
belongs to one whose values have been ok in the same way; and a key without a
current value keeps its state and its alerts. -/
theorem threshold_hysteresis (h₀ : Init s₀) (h : Reachable step (fun _ _ => True) s₀ s) :
    (∀ k a, Owns s.log k a → AlertOpen s.db a →
      IssuedFor s.db k a ∧ (∃ st, s.db.states.get? k = some st ∧ st.alert = some a) ∧
        ∀ a', Owns s.log k a' → AlertOpen s.db a' → a' = a) ∧
    ∀ now s', step s (.run now) = some s' →
      (∀ k b, (now, b) ∈ evals s'.log k ↔ reading s.db now k = some b) ∧
      (∀ a, s.db.alerts.get? a = none → s'.db.alerts.get? a ≠ none →
        ∃ k rule, Owns s'.log k a ∧ s.db.rules.get? k.rule = some rule ∧
          Confirmed (evals s'.log k) rule.duration true now) ∧
      (∀ a, AlertOpen s.db a → ¬ AlertOpen s'.db a →
        ∃ k rule, Owns s'.log k a ∧ s.db.rules.get? k.rule = some rule ∧
          Confirmed (evals s'.log k) rule.duration false now) ∧
      (∀ k, reading s.db now k = none → s'.db.states.get? k = s.db.states.get? k ∧
        ∀ a, Owns s.log k a → s'.db.alerts.get? a = s.db.alerts.get? a) := by
  have hsound : Sound s := h.invariant (P := Sound) (sound_init h₀) fun _ _ _ hi _ hs => hi.step hs
  have hi := hsound.inv
  refine ⟨fun k a hk ho => ⟨hi.issued k a hk, hi.isReferred k a hk ho, fun a' hk' ho' => ?_⟩, ?_⟩
  · obtain ⟨st, hst, ha⟩ := hi.isReferred k a hk ho
    obtain ⟨st', hst', ha'⟩ := hi.isReferred k a' hk' ho'
    cases hst.symm.trans hst'
    cases ha.symm.trans ha'
    rfl
  intro now s' hs
  have hsound' := hsound.step hs
  obtain ⟨rs, hlog, -, hlt, hprog, hrecs⟩ := hsound.run hs
  have hrule : ∀ r ∈ rs, ∃ rule, s.db.rules.get? r.key.rule = some rule ∧
      durationOf s'.db r.key.rule = rule.duration := by
    intro r hr
    obtain ⟨rule, -, -, hlock, -⟩ :=
      reading_eq_some.mp ((hrecs r.key r.breach).mp ⟨r, hr, rfl, rfl⟩)
    have hget := (lockedRule_eq_some.mp hlock).1
    exact ⟨rule, hget, by rw [durationOf, hprog.inputs.1, hget]; rfl⟩
  have hmem : ∀ r ∈ rs, r ∈ s'.log := fun r hr => by
    rw [hlog]
    exact List.mem_append_left _ (List.mem_reverse.mpr hr)
  refine ⟨fun k b => ?_, fun a hnone hsome => ?_, fun a ho hno => ?_, fun k hread => ?_⟩
  · rw [← hrecs, mem_evals, hlog]
    constructor
    · rintro ⟨r, hr, hk, heq⟩
      simp only [Prod.mk.injEq] at heq
      rcases List.mem_append.mp hr with hr | hr
      · exact ⟨r, List.mem_reverse.mp hr, hk, heq.2⟩
      · exact absurd (hsound.past r hr) (by rw [heq.1]; exact Nat.not_le.mpr hlt)
    · rintro ⟨r, hr, hk, hb⟩
      exact ⟨r, List.mem_append_left _ (List.mem_reverse.mpr hr), hk,
        by rw [hprog.times r hr, hb]⟩
  · obtain ⟨r, hr, hf⟩ := hprog.created a hnone hsome
    obtain ⟨rule, hget, hdur⟩ := hrule r hr
    have hconf := hsound'.inv.fired r (hmem r hr) (by simp [hf])
    rw [hdur, hprog.times r hr] at hconf
    exact ⟨r.key, rule, ⟨r, hmem r hr, rfl, hf⟩, hget, hconf⟩
  · obtain ⟨r, hr, hc⟩ := hprog.resolved a ho hno
    obtain ⟨rule, hget, hdur⟩ := hrule r hr
    obtain ⟨hown, hconf⟩ := hsound'.inv.cleared r (hmem r hr) a hc
    rw [hdur, hprog.times r hr] at hconf
    exact ⟨r.key, rule, hown, hget, hconf⟩
  · refine hprog.untouched k fun r hr hk => ?_
    have hsome := (hrecs k r.breach).mp ⟨r, hr, hk, rfl⟩
    rw [hread] at hsome
    cases hsome

end

/-! ## an example -/

def second : Time := 1000000

def hotRule : AlertRule where
  alertType := .threshold
  threshold := 80
  severity := .warning
  metricKey := "cpu.temp_c"
  operator := some .gt
  durationSeconds := 60

def hotSample : Sample := ⟨some (600 * second), some (.int 90), some (.int 90), some (.int 90)⟩

/-- A rule with a duration of one minute, and a station whose sample breaches it. -/
def hotStation : State where
  db :=
    { stations := ⟨[(1, ⟨"OE5XRX", .online, some (600 * second)⟩)], by decide⟩
      telemetry := ⟨[(1, some ⟨[("cpu.temp_c", some hotSample)], by decide⟩)], by decide⟩
      rules := ⟨[(1, hotRule)], by decide⟩
      definitions := ⟨[("cpu.temp_c", { label := "CPU", unit := "C" })], by decide⟩
      states := .empty
      alerts := .empty
      nextAlert := 1 }
  clock := 0
  log := []

/-- Two runs a minute apart: the second one fires. -/
def twoRuns : List Label := [.run (600 * second), .run (660 * second)]

theorem threshold_hysteresis_twoRuns : ∃ s : State,
    run step hotStation twoRuns = some s ∧ AlertOpen s.db 1 ∧
    ∃ st, s.db.states.get? ⟨1, 1, "cpu.temp_c"⟩ = some st ∧ st.alert = some 1 := by
  have h : (run step hotStation twoRuns).map (fun s => decide
      (s.log.head? = some ⟨660 * second, ⟨1, 1, "cpu.temp_c"⟩, true, some 1, none⟩ ∧
        (s.db.alerts.get? 1).map Alert.isResolved = some false)) = some true := by
    decide +kernel
  obtain ⟨s, hs, hfacts⟩ := Option.map_eq_some_iff.mp h
  obtain ⟨hlog, halert⟩ := of_decide_eq_true hfacts
  have hinit : Init hotStation := ⟨fun _ => rfl, rfl, fun _ _ h => by cases h⟩
  have hopen : AlertOpen s.db 1 := by
    obtain ⟨row, hrow, hres⟩ := Option.map_eq_some_iff.mp halert
    exact ⟨row, hrow, hres⟩
  have howns : Owns s.log ⟨1, 1, "cpu.temp_c"⟩ 1 :=
    ⟨_, List.mem_of_mem_head? hlog, rfl, rfl⟩
  exact ⟨s, hs, hopen, ((threshold_hysteresis hinit (reachable_of_run hs)).1 _ _ howns hopen).2.1⟩

end StationManager.Monitoring.Thresholds
