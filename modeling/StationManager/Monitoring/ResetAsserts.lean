import StationManager.Monitoring.CurrentValues
import StationManager.Monitoring.References
import StationManager.Monitoring.Resets

/-!
# StationManager.Monitoring.ResetAsserts

What a process knows between two of its statements.  Under the lock of a rule the
engine knows the row it has read and that the states it will write are still
those it has evaluated; a reset of a metric knows that it holds every rule that
could still write a state of the metric.

`Asserts` states this for each point of a process, and the lemmas after it say
which writes of another process keep it.
-/

namespace StationManager.Monitoring.Resets

open Thresholds

/-! ## the writes of resets -/

section
variable {db : Db} {now : Time} {p : Pk → Alert → Bool} {q : StateKey → Bool} {k : StateKey}
  {pk : Pk} {row : AlertRule} {st : ThresholdState}

variable {a : Pk}

theorem alertOpen_clear : AlertOpen (db.clear now p q) a ↔
    ∃ row, db.alerts.get? a = some row ∧ row.isResolved = false ∧ p a row = false := by
  unfold AlertOpen
  exact exists_congr fun row => Db.get?_resolveAlerts_open

theorem get?_clear_states :
    (db.clear now p q).states.get? k = some st ↔ db.states.get? k = some st ∧ q k = false := by
  simp [Db.clear, Table.get?_filter, Option.filter_eq_some_iff]

/-- Resolving leaves the rule of an alert alone. -/
theorem clear_ruled {r : Pk} (h : ∃ row, db.alerts.get? a = some row ∧ row.rule = some r) :
    ∃ row, (db.clear now p q).alerts.get? a = some row ∧ row.rule = some r := by
  obtain ⟨row, hrow, hr⟩ := h
  refine ⟨_, by rw [Db.clear, Db.resolveAlerts, Table.get?_map, hrow]; rfl, ?_⟩
  dsimp only
  split <;> exact hr

theorem refs_clear (hr : Refs db) : Refs (db.clear now p q) where
  numbered := hr.numbered.resolveAlerts _ _
  ruled k st a hst ha := clear_ruled (hr.ruled k st a (get?_clear_states.mp hst).1 ha)
  injective k k' st st' a hst hst' ha ha' :=
    hr.injective k k' st st' a (get?_clear_states.mp hst).1 (get?_clear_states.mp hst').1 ha ha'

/-- Open alerts stay covered if the states of those that are left are kept. -/
theorem covers_clear {ok ok' : StateKey → Prop} (hcov : Covers db ok)
    (hkeep : ∀ k st a row, db.states.get? k = some st → st.alert = some a →
      db.alerts.get? a = some row → row.isResolved = false → p a row = false → ok k →
      q k = false ∧ ok' k) : Covers (db.clear now p q) ok' := by
  intro a ho
  obtain ⟨row, hrow, hres, hp⟩ := alertOpen_clear.mp ho
  obtain ⟨k, st, hst, ha, hk⟩ := hcov a ⟨row, hrow, hres⟩
  obtain ⟨hq, hk'⟩ := hkeep k st a row hst ha hrow hres hp hk
  exact ⟨k, st, get?_clear_states.mpr ⟨hst, hq⟩, ha, hk'⟩

/-- An up to date outcome that the reset does not concern stays up to date. -/
theorem fresh_clear {t : Time} {o : Outcome} (hf : Fresh db t o) (hq : q o.key = false)
    (hp : ∀ st a row, db.states.get? o.key = some st → st.alert = some a →
      db.alerts.get? a = some row → p a row = false) : Fresh (db.clear now p q) t o := by
  refine hf.of_same ?_ rfl fun a ha => ?_
  · ext st
    exact ⟨fun h => (get?_clear_states.mp h).1, fun h => get?_clear_states.mpr ⟨h, hq⟩⟩
  · obtain ⟨st, hst, hsta⟩ := stateOf_alert ha
    rw [alertOpen_clear]
    exact exists_congr fun row => ⟨fun h => ⟨h.1, h.2.1⟩,
      fun h => ⟨h.1, h.2, hp st a row hst hsta h.1⟩⟩

theorem get?_putRule (r : Pk) :
    (db.putRule pk row).rules.get? r = if r = pk then some row else db.rules.get? r :=
  Table.get?_put _ _ _ _

theorem get?_eraseRule_rules (r : Pk) :
    (db.eraseRule now pk).rules.get? r = if r = pk then none else db.rules.get? r :=
  Table.get?_erase ..

theorem get?_eraseRule_states : (db.eraseRule now pk).states.get? k = some st ↔
    db.states.get? k = some st ∧ k.rule ≠ pk := by
  rw [show (db.eraseRule now pk).states = (db.clear now (fun _ _ => false)
    fun k => k.rule = pk).states from rfl, get?_clear_states, decide_eq_false_iff_not]

theorem alertOpen_eraseRule : AlertOpen (db.eraseRule now pk) a ↔ AlertOpen db a := by
  have hrow : (db.eraseRule now pk).alerts.get? a = (db.alerts.get? a).map fun b =>
      if b.rule = some pk then { b with rule := none } else b := by
    simp only [Db.eraseRule, Db.clear, Db.resolveAlerts, Table.get?_map, Bool.false_and,
      Option.map_map]
    rfl
  unfold AlertOpen
  rw [hrow]
  constructor
  · rintro ⟨_, hget, hres⟩
    obtain ⟨b, hb, rfl⟩ := Option.map_eq_some_iff.mp hget
    refine ⟨b, hb, ?_⟩
    split at hres <;> exact hres
  · rintro ⟨b, hb, hres⟩
    refine ⟨_, by rw [hb]; rfl, ?_⟩
    dsimp only
    split <;> exact hres

theorem refs_eraseRule (hr : Refs db) : Refs (db.eraseRule now pk) := by
  have hc : Refs (db.clear now (fun _ _ => false) fun k => k.rule = pk) := refs_clear hr
  refine ⟨fun a row ha => ?_, fun k st a hst ha => ?_, fun k k' st st' a hst hst' ha ha' => ?_⟩
  · obtain ⟨b, hb, -⟩ := Option.map_eq_some_iff.mp ((Table.get?_map ..).symm.trans ha)
    exact hc.numbered a b hb
  · obtain ⟨hst, hne⟩ := get?_eraseRule_states.mp hst
    obtain ⟨row, hrow, hrule⟩ := hc.ruled k st a
      (get?_clear_states.mpr ⟨hst, decide_eq_false hne⟩) ha
    refine ⟨row, ?_, hrule⟩
    show (Table.map _ _).get? a = _
    rw [Table.get?_map, hrow]
    simp [hrule, hne]
  · exact hr.injective k k' st st' a (get?_eraseRule_states.mp hst).1
      (get?_eraseRule_states.mp hst').1 ha ha'

end

/-! ## what the processes know -/

/-- The rules that can write states of the key are still to be locked, or are locked by
the process. -/
def Guards (s : Shared) (j : Nat) (key : String) (todo : List Pk) : Prop :=
  (∀ r, s.db.matchesKey r key = true → r ∈ todo ∨ s.ruleLocks.get? r = some j) ∧
  ∀ k st, s.db.states.get? k = some st → k.metricKey = key →
    k.rule ∈ todo ∨ s.ruleLocks.get? k.rule = some j

/-- The open alerts of the metric are among those that were read, and those belong to no
other metric. -/
def Collected (db : Db) (key : String) (ids : List Pk) : Prop :=
  (∀ k st a, db.states.get? k = some st → k.metricKey = key → st.alert = some a →
    AlertOpen db a → a ∈ ids) ∧
  ∀ a ∈ ids, a < db.nextAlert ∧
    ∀ k st, db.states.get? k = some st → st.alert = some a → k.metricKey = key

/-- Whatever rule is evaluated, every station and key comes up once. -/
def Distinct (l : Loaded) : Prop :=
  ∀ pattern, (thresholdCandidates l.current l.definitions pattern).Pairwise fun c c' =>
    (c.station, c.key) ≠ (c'.station, c'.key)

/-- An engine run holds the lock of its rule and evaluates the row as it is. -/
structure Evaluating (s : Shared) (j : Nat) (pk : Pk) (rule : AlertRule) : Prop where
  lock : s.ruleLocks.get? pk = some j
  row : s.db.lockedRule pk = some rule

/-- Candidates of the rule, each station and key once. -/
structure CandidatesOf (rule : AlertRule) (cs : List Candidate) : Prop where
  matching : ∀ c ∈ cs, keyMatchesPattern c.key rule.metricKey = true
  distinct : cs.Pairwise fun c c' => (c.station, c.key) ≠ (c'.station, c'.key)

/-- Outcomes of the rule that are up to date, each key once. -/
structure OutcomesOf (db : Db) (now : Time) (pk : Pk) (rule : AlertRule) (os : List Outcome) :
    Prop where
  matching : ∀ o ∈ os, o.key.rule = pk ∧ keyMatchesPattern o.key.metricKey rule.metricKey = true
  fresh : ∀ o ∈ os, Fresh db now o
  distinct : os.Pairwise fun o o' => o.key ≠ o'.key

/-- What process `j` knows where it stands. -/
def Asserts (j : Nat) (q : Proc) (s : Shared) : Prop :=
  match q with
  | .lockRule l _ => Distinct l
  | .checkBlocked l _ pk rule cs | .readStates l _ pk rule cs =>
    Distinct l ∧ Evaluating s j pk rule ∧ CandidatesOf rule cs
  | .commitRule l _ pk rule os =>
    Distinct l ∧ Evaluating s j pk rule ∧ OutcomesOf s.db l.now pk rule os
  | .commitSave save _ => s.ruleLocks.get? save.pk = some j
  | .commitReset pk | .commitDelete pk => s.ruleLocks.get? pk = some j
  | .lockRules save todo => Guards s j save.key todo
  | .readAlerts save => Guards s j save.key []
  | .commitBlock save ids => Guards s j save.key [] ∧ Collected s.db save.key ids
  | _ => True

namespace Proc

/-- The process will reset the rule. -/
def owesRule (r : Pk) : Proc → Prop
  | .lockReset pk | .commitReset pk => r = pk
  | _ => False

/-- The process will reset the metric, whose block is visible already. -/
def owesKey (k : String) : Proc → Prop
  | .collectRules save | .lockRules save _ | .readAlerts save | .commitBlock save _ =>
    save.mode = .autocommit ∧ k = save.key
  | _ => False

/-- The keys that an engine run has found unblocked. -/
def keys : Proc → List String
  | .readStates _ _ _ _ cs => cs.map Candidate.key
  | .commitRule _ _ _ _ os => os.map fun o => o.key.metricKey
  | _ => []

/-- An engine run. -/
def isEngine : Proc → Bool
  | .loadRules _ | .loadDefinitions _ _ | .loadTelemetry _ _ _ | .lockRule _ _
  | .checkBlocked _ _ _ _ _ | .readStates _ _ _ _ _ | .commitRule _ _ _ _ _ => true
  | _ => false

/-- A save of a rule, or its reset. -/
def isSave : Proc → Bool
  | .detectChange _ | .updateRule _ _ | .commitSave _ _ | .lockReset _ | .commitReset _ => true
  | _ => false

/-- A delete of a rule. -/
def isDelete : Proc → Bool
  | .lockDelete _ _ | .commitDelete _ => true
  | _ => false

/-- A save of a metric definition, or its reset. -/
def isMetric : Proc → Bool
  | .detectBlock _ | .updateMetric _ _ | .commitMetric _ | .collectRules _ | .lockRules _ _
  | .readAlerts _ | .commitBlock _ _ => true
  | _ => false

/-- A change of what the engine reads. -/
def isInput : Proc → Bool
  | .ingest _ _ | .describe _ _ => true
  | _ => false

/-- The process has evaluated a rule and is about to write. -/
def evaluates : Proc → Bool
  | .commitRule _ _ _ _ _ => true
  | _ => false

/-- The metric whose rules a reset has collected. -/
def collected : Proc → Option String
  | .lockRules save _ | .readAlerts save | .commitBlock save _ => some save.key
  | _ => none

end Proc

/-! ### what others can do to it -/

section
variable {s s' : Shared} {j : Nat} {q : Proc}

/-- What the process knows stays true if its locks and the rows of its rules stay, if
outcomes under its locks stay up to date, and, for a metric whose rules it has
collected, if no other rule comes to match it and the alerts it has read stay
those of the metric. -/
theorem Asserts.frame (h : Asserts j q s)
    (hlocks : ∀ r, s.ruleLocks.get? r = some j → s'.ruleLocks.get? r = some j)
    (hrows : ∀ r, s.ruleLocks.get? r = some j → s'.db.rules.get? r = s.db.rules.get? r)
    (hfresh : q.evaluates = true → ∀ t o, s.ruleLocks.get? o.key.rule = some j →
      s.db.matchesKey o.key.rule o.key.metricKey = true → Fresh s.db t o → Fresh s'.db t o)
    (hmatch : ∀ key, q.collected = some key → ∀ r, s'.db.matchesKey r key = true →
      s.db.matchesKey r key = true)
    (hstates : ∀ key, q.collected = some key → ∀ k st, s'.db.states.get? k = some st →
      k.metricKey = key → s.db.states.get? k ≠ none ∨ s.db.matchesKey k.rule key = true)
    (hread : ∀ key ids, Guards s j key [] → Collected s.db key ids → Collected s'.db key ids) :
    Asserts j q s' := by
  have hev : ∀ pk rule, Evaluating s j pk rule → Evaluating s' j pk rule := by
    intro pk rule h
    refine ⟨hlocks pk h.lock, ?_⟩
    rw [Db.lockedRule, hrows pk h.lock]
    exact h.row
  have hgu : ∀ key todo, q.collected = some key → Guards s j key todo → Guards s' j key todo := by
    intro key todo hkey h
    refine ⟨fun r hr => (h.1 r (hmatch key hkey r hr)).imp_right (hlocks r),
      fun k st hst hk => ?_⟩
    rcases hstates key hkey k st hst hk with hold | hmatches
    · obtain ⟨st', hst'⟩ := Option.ne_none_iff_exists'.mp hold
      exact (h.2 k st' hst' hk).imp_right (hlocks k.rule)
    · exact (h.1 k.rule hmatches).imp_right (hlocks k.rule)
  cases q with
  | lockRule l rest => exact h
  | checkBlocked l rest pk rule cs => exact ⟨h.1, hev pk rule h.2.1, h.2.2⟩
  | readStates l rest pk rule cs => exact ⟨h.1, hev pk rule h.2.1, h.2.2⟩
  | commitRule l rest pk rule os =>
    refine ⟨h.1, hev pk rule h.2.1, h.2.2.matching, fun o ho => ?_, h.2.2.distinct⟩
    obtain ⟨hrule, hmatches⟩ := h.2.2.matching o ho
    refine hfresh rfl l.now o (hrule ▸ h.2.1.lock) ?_ (h.2.2.fresh o ho)
    obtain ⟨hget, htype, -⟩ := lockedRule_eq_some.mp h.2.1.row
    simp [Db.matchesKey, hrule, hget, htype, hmatches]
  | commitSave save reset => exact hlocks _ h
  | commitReset pk => exact hlocks _ h
  | commitDelete pk => exact hlocks _ h
  | lockRules save todo => exact hgu save.key todo rfl h
  | readAlerts save => exact hgu save.key [] rfl h
  | commitBlock save ids => exact ⟨hgu save.key [] rfl h.1, hread save.key ids h.1 h.2⟩
  | loadRules _ | loadDefinitions _ _ | loadTelemetry _ _ _ | detectChange _ | updateRule _ _
  | lockReset _ | lockDelete _ _ | detectBlock _ | updateMetric _ _ | commitMetric _
  | collectRules _ | ingest _ _ | describe _ _ => trivial

/-- Rules, states and alerts are the same rows. -/
structure SameRows (db db' : Db) : Prop where
  rules : db'.rules = db.rules
  states : db'.states = db.states
  alerts : db'.alerts = db.alerts
  next : db'.nextAlert = db.nextAlert

theorem SameRows.refl (db : Db) : SameRows db db := ⟨rfl, rfl, rfl, rfl⟩

variable {db' : Db}

theorem SameRows.alertOpen {db : Db} (h : SameRows db db') {a : Pk} :
    AlertOpen db' a ↔ AlertOpen db a := by
  rw [AlertOpen, h.alerts, AlertOpen]

theorem SameRows.refs {db : Db} (h : SameRows db db') (hr : Refs db) : Refs db' := by
  refine ⟨?_, ?_, ?_⟩
  · rw [Db.AlertsNumbered, h.alerts, h.next]
    exact hr.numbered
  · rw [h.states, h.alerts]
    exact hr.ruled
  · rw [h.states]
    exact hr.injective

/-- Locks of the process stay, and the rows are the same. -/
theorem Asserts.of_sameRows (h : Asserts j q s) (hdb : SameRows s.db s'.db)
    (hlocks : ∀ r, s.ruleLocks.get? r = some j → s'.ruleLocks.get? r = some j) :
    Asserts j q s' := by
  refine h.frame hlocks (fun r _ => by rw [hdb.rules]) (fun _ t o _ _ hf => ?_)
    (fun key _ r hr => ?_) (fun key _ k st hst _ => .inl ?_) (fun key ids _ hc => ?_)
  · exact hf.of_same (by rw [hdb.states]) (by rw [hdb.rules]) fun a _ => hdb.alertOpen
  · rw [Db.matchesKey, hdb.rules] at hr
    exact hr
  · rw [← hdb.states, hst]
    simp
  · simp only [Collected, hdb.states, hdb.alertOpen, hdb.next]
    exact hc

/-- A reset that does not concern the outcomes under the locks of the process. -/
theorem Asserts.clear (h : Asserts j q s) {now : Time} {psel : Pk → Alert → Bool}
    {qsel : StateKey → Bool} (hsafe : q.evaluates = true → ∀ k, s.ruleLocks.get? k.rule = some j →
      s.db.matchesKey k.rule k.metricKey = true → qsel k = false ∧
      ∀ st a row, s.db.states.get? k = some st → st.alert = some a →
        s.db.alerts.get? a = some row → psel a row = false) :
    Asserts j q (s.write (s.db.clear now psel qsel)) := by
  refine h.frame (fun _ h => h) (fun r _ => rfl) (fun hev t o hlock hmatches hf => ?_)
    (fun key _ r hr => hr) (fun key _ k st hst _ => .inl ?_) (fun key ids _ hc => ?_)
  · obtain ⟨hq, hp⟩ := hsafe hev o.key hlock hmatches
    exact fresh_clear hf hq hp
  · rw [(get?_clear_states.mp hst).1]
    simp
  · refine ⟨fun k st a hst hk ha ho => ?_, fun a ha => ⟨(hc.2 a ha).1, fun k st hst => ?_⟩⟩
    · obtain ⟨row, hrow, hres, -⟩ := alertOpen_clear.mp ho
      exact hc.1 k st a (get?_clear_states.mp hst).1 hk ha ⟨row, hrow, hres⟩
    · exact (hc.2 a ha).2 k st (get?_clear_states.mp hst).1

/-- The row of a rule that the process has not locked is written. -/
theorem Asserts.putRule (h : Asserts j q s) {pk : Pk} {row : AlertRule}
    (hlock : s.ruleLocks.get? pk ≠ some j)
    (hmatch : ∀ key, q.collected = some key → row.alertType = .threshold →
      keyMatchesPattern key row.metricKey = true → s.db.matchesKey pk key = true) :
    Asserts j q (s.write (s.db.putRule pk row)) := by
  have hsame : ∀ r, s.ruleLocks.get? r = some j →
      (s.db.putRule pk row).rules.get? r = s.db.rules.get? r := by
    intro r hr
    have hne : r ≠ pk := by
      rintro rfl
      exact hlock hr
    rw [get?_putRule, if_neg hne]
  refine h.frame (fun _ h => h) hsame (fun _ t o hl _ hf => ?_) (fun key hkey r hr => ?_)
    (fun key _ k st hst _ => .inl ?_) (fun key ids _ hc => hc)
  · exact hf.of_same rfl (hsame _ hl) fun a _ => Iff.rfl
  · simp only [Shared.write, Db.matchesKey, get?_putRule] at hr
    split at hr
    · next hrpk =>
      subst hrpk
      simp only [Option.any_some, Bool.and_eq_true, decide_eq_true_eq] at hr
      exact hmatch key hkey hr.1 hr.2
    · exact hr
  · rw [show s.db.states.get? k = some st from hst]
    simp

/-- A rule that the process has not locked is deleted. -/
theorem Asserts.eraseRule (h : Asserts j q s) (now : Time) {pk : Pk}
    (hlock : s.ruleLocks.get? pk ≠ some j) : Asserts j q (s.write (s.db.eraseRule now pk)) := by
  have hne : ∀ r, s.ruleLocks.get? r = some j → r ≠ pk := by
    rintro r hr rfl
    exact hlock hr
  refine h.frame (fun _ h => h) (fun r hr => ?_) (fun _ t o hl _ hf => ?_)
    (fun key _ r hr => ?_) (fun key _ k st hst _ => .inl ?_) (fun key ids _ hc => ?_)
  · rw [Shared.write, get?_eraseRule_rules, if_neg (hne r hr)]
  · refine hf.of_same ?_ ?_ fun a _ => alertOpen_eraseRule
    · ext st
      exact ⟨fun h => (get?_eraseRule_states.mp h).1,
        fun h => get?_eraseRule_states.mpr ⟨h, hne _ hl⟩⟩
    · rw [Shared.write, get?_eraseRule_rules, if_neg (hne _ hl)]
  · simp only [Shared.write, Db.matchesKey, get?_eraseRule_rules] at hr
    split at hr
    · cases hr
    · exact hr
  · rw [(get?_eraseRule_states.mp hst).1]
    simp
  · refine ⟨fun k st a hst hk ha ho => ?_, fun a ha => ⟨(hc.2 a ha).1, fun k st hst => ?_⟩⟩
    · exact hc.1 k st a (get?_eraseRule_states.mp hst).1 hk ha (alertOpen_eraseRule.mp ho)
    · exact (hc.2 a ha).2 k st (get?_eraseRule_states.mp hst).1

/-- The outcomes of a rule that the process has not locked are written. -/
theorem Asserts.applied (h : Asserts j q s) {os : List Outcome} (happ : Applied s.db db' os)
    (hlock : ∀ o ∈ os, s.ruleLocks.get? o.key.rule ≠ some j)
    (hmatch : ∀ o ∈ os, s.db.matchesKey o.key.rule o.key.metricKey = true) :
    Asserts j q (s.write db') := by
  -- the keys of the outcomes are not those of a reset that holds its locks
  have hfree : ∀ key, Guards s j key [] → ∀ o ∈ os, o.key.metricKey ≠ key := by
    intro key hg o ho hk
    have hheld := hg.1 o.key.rule (hk ▸ hmatch o ho)
    exact hlock o ho (hheld.resolve_left List.not_mem_nil)
  refine h.frame (fun _ h => h) (fun r _ => by rw [Shared.write, happ.inputs.1])
    (fun _ t o hl _ hf => ?_) (fun key _ r hr => ?_) (fun key _ k st hst hk => ?_)
    (fun key ids hg hc => ?_)
  · have hne : ∀ o' ∈ os, o.key ≠ o'.key := by
      intro o' ho' heq
      exact hlock o' ho' (heq ▸ hl)
    obtain ⟨hst, hal⟩ := happ.other o.key hne
    refine hf.of_same hst (by rw [Shared.write, happ.inputs.1]) fun a ha => ?_
    obtain ⟨st, hget, hsta⟩ := stateOf_alert ha
    rw [AlertOpen, Shared.write, hal st a hget hsta, AlertOpen]
  · rw [Shared.write, Db.matchesKey, happ.inputs.1] at hr
    exact hr
  · by_cases hother : ∀ o ∈ os, k ≠ o.key
    · left
      rw [← (happ.other k hother).1, show db'.states.get? k = some st from hst]
      simp
    · push Not at hother
      obtain ⟨o, ho, rfl⟩ := hother
      exact .inr (hk ▸ hmatch o ho)
  · refine ⟨fun k st a hst hk ha hopen => ?_, fun a ha => ⟨?_, fun k st hst hsta => ?_⟩⟩
    · obtain ⟨hsame, hal⟩ := happ.other k fun o ho heq => hfree key hg o ho (heq ▸ hk)
      have hold : s.db.states.get? k = some st := hsame.symm.trans hst
      rw [AlertOpen, Shared.write, hal st a hold ha] at hopen
      exact hc.1 k st a hold hk ha hopen
    · exact Nat.lt_of_lt_of_le (hc.2 a ha).1 happ.next
    · obtain ⟨st', hst', ha'⟩ := happ.reference k st a hst hsta (hc.2 a ha).1
      exact (hc.2 a ha).2 k st' hst' ha'

end

/-! ## reading and locking -/

section
variable {s s' : Shared} {i : Nat}

/-- A rule row was free and is taken. -/
structure Taken (s s' : Shared) (i : Nat) (pk : Pk) : Prop where
  db : s'.db = s.db
  held : s'.ruleLocks.get? pk = some i
  kept : ∀ j r, s.ruleLocks.get? r = some j → s'.ruleLocks.get? r = some j
  free : ∀ j, j ≠ i → s.ruleLocks.get? pk ≠ some j

variable {pk : Pk} {key : String}

theorem taken_of_takeRule (h : s.takeRule i pk = some s') : Taken s s' i pk := by
  obtain ⟨l, hl, rfl⟩ := Option.map_eq_some_iff.mp h
  refine ⟨rfl, RowLocks.holds_of_acquire hl List.mem_cons_self,
    fun j r hj => RowLocks.acquire_holds hl hj, fun j hji hj => ?_⟩
  have hheld := RowLocks.acquire_holds hl hj
  rw [RowLocks.holds_of_acquire hl List.mem_cons_self] at hheld
  exact hji (Option.some.inj hheld).symm

theorem takeMetric_eq (h : s.takeMetric i key = some s') :
    s'.db = s.db ∧ s'.ruleLocks = s.ruleLocks := by
  obtain ⟨l, -, rfl⟩ := Option.map_eq_some_iff.mp h
  exact ⟨rfl, rfl⟩

theorem keyMatches_of_mem {current : List (Pk × Station × List (String × Sample))}
    {definitions : Table String MetricDefinition} {pattern : String} {c : Candidate}
    (h : c ∈ thresholdCandidates current definitions pattern) :
    keyMatchesPattern c.key pattern = true := by
  obtain ⟨e, -, hc⟩ := List.mem_flatMap.mp h
  obtain ⟨m, -, hm⟩ := List.mem_filterMap.mp hc
  exact (thresholdCandidate_eq_some.mp hm).2.2.2.2

/-- The candidates that are left after the blocked keys were read again. -/
theorem blocked_of_mem_filter {db : Db} {cs : List Candidate}
    (h : key ∈ (cs.filter fun c => !(db.blockedKeys cs).contains c.key).map Candidate.key) :
    db.blocked key = false := by
  obtain ⟨c, hc, rfl⟩ := List.mem_map.mp h
  obtain ⟨hmem, hnot⟩ := List.mem_filter.mp hc
  by_contra hb
  have hblocked : c.key ∈ db.blockedKeys cs :=
    List.mem_filter.mpr ⟨List.mem_map.mpr ⟨c, hmem, rfl⟩, Bool.not_eq_false _ |>.mp hb⟩
  rw [List.contains_iff_mem.mpr hblocked] at hnot
  cases hnot

/-- What an evaluation under the lock yields. -/
theorem outcomesOf_evaluate {rule : AlertRule} {cs : List Candidate} {now : Time}
    (hev : Evaluating s i pk rule) (hcs : CandidatesOf rule cs) : OutcomesOf s.db now pk rule
      (evaluateThresholdRule pk rule cs s.db.states s.db.alerts now) := by
  refine ⟨fun o ho => ?_, fun o ho => ?_, ?_⟩
  · obtain ⟨c, hc, hco⟩ := List.mem_filterMap.mp ho
    rw [evaluateCandidate_key hco]
    exact ⟨rfl, hcs.matching c hc⟩
  · obtain ⟨c, -, hco⟩ := List.mem_filterMap.mp ho
    exact evaluateCandidate_fresh (lockedRule_eq_some.mp hev.row).1 hco
  · refine pairwise_filterMap_key (fun c => (⟨pk, c.station, c.key⟩ : StateKey)) Outcome.key
      (fun c o hc => evaluateCandidate_key hc) (hcs.distinct.imp fun {c c'} hne heq => ?_)
    simp only [StateKey.mk.injEq, true_and] at heq
    exact hne (by rw [heq.1, heq.2])

/-- All rules that can write states of the key are collected. -/
theorem guards_resetRuleIds (key : String) : Guards s i key (s.db.resetRuleIds key) := by
  refine ⟨fun r hr => .inl ?_, fun k st hst hk => .inl ?_⟩
  · rw [Db.resetRuleIds, List.mem_insertionSort, List.mem_dedup, List.mem_append]
    refine .inl (List.mem_filter.mpr ⟨?_, hr⟩)
    rw [Table.mem_keys_iff]
    cases hget : s.db.rules.get? r with
    | none =>
      rw [Db.matchesKey, hget] at hr
      cases hr
    | some row => rfl
  · rw [Db.resetRuleIds, List.mem_insertionSort, List.mem_dedup, List.mem_append]
    refine .inr (List.mem_map.mpr ⟨k, List.mem_filter.mpr ⟨?_, decide_eq_true hk⟩, rfl⟩)
    rw [Table.mem_keys_iff, hst]
    rfl

theorem collected_alertsOfMetric (hr : Refs s.db) (key : String) :
    Collected s.db key (s.db.alertsOfMetric key) := by
  have hmem : ∀ a, a ∈ s.db.alertsOfMetric key ↔
      ∃ k st, s.db.states.get? k = some st ∧ k.metricKey = key ∧ st.alert = some a := by
    intro a
    simp only [Db.alertsOfMetric, List.mem_filterMap, Prod.exists, Table.mem_entries_iff,
      Option.ite_none_right_eq_some]
  refine ⟨fun k st a hst hk ha _ => (hmem a).mpr ⟨k, st, hst, hk, ha⟩, fun a ha => ?_⟩
  obtain ⟨k, st, hst, hk, hsta⟩ := (hmem a).mp ha
  refine ⟨hr.lt_nextAlert hst hsta, fun k' st' hst' hsta' => ?_⟩
  rw [hr.injective k' k st' st a hst' hst hsta' hsta, hk]

/-- A deleted rule need not be locked. -/
theorem Guards.skip {todo : List Pk} (h : Guards s i key (pk :: todo))
    (hnone : s.db.rules.get? pk = none)
    (hrows : ∀ k st, s.db.states.get? k = some st → s.db.rules.get? k.rule ≠ none) :
    Guards s i key todo := by
  refine ⟨fun r hr => ?_, fun k st hst hk => ?_⟩
  · refine (h.1 r hr).imp_left fun hmem => (List.mem_cons.mp hmem).resolve_left ?_
    rintro rfl
    rw [Db.matchesKey, hnone] at hr
    cases hr
  · refine (h.2 k st hst hk).imp_left fun hmem => (List.mem_cons.mp hmem).resolve_left fun heq => ?_
    exact hrows k st hst (heq ▸ hnone)

theorem Guards.take {todo : List Pk} (h : Guards s i key (pk :: todo)) (ht : Taken s s' i pk) :
    Guards s' i key todo := by
  have hstep : ∀ r, r ∈ pk :: todo ∨ s.ruleLocks.get? r = some i →
      r ∈ todo ∨ s'.ruleLocks.get? r = some i := by
    rintro r (hmem | hheld)
    · rcases List.mem_cons.mp hmem with rfl | hmem
      · exact .inr ht.held
      · exact .inl hmem
    · exact .inr (ht.kept i r hheld)
  refine ⟨fun r hr => hstep r (h.1 r ?_), fun k st hst hk => hstep k.rule (h.2 k st ?_ hk)⟩
  · rw [← ht.db]
    exact hr
  · rw [← ht.db]
    exact hst

end

end StationManager.Monitoring.Resets
