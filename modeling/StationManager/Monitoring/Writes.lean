import StationManager.Monitoring.Timers

/-!
# StationManager.Monitoring.Writes

The writes of the evaluations of a run.  Beside the tables the engine's actions
are collected in a log; `Inv` is what holds between log and tables: who owns
which alert, which alert a state refers to, and what was confirmed when an
alert was fired or cleared.  `Inv.apply` keeps it over the writes of one
evaluation, `Progress` composes them, and `Progress.applyAll` is the list of
outcomes of one rule.
-/

namespace StationManager.Monitoring.Thresholds

/-! ## alerts and their owners -/

/-- The evaluations of one key: time, and whether the value was a breach. -/
def evals (log : List Record) (k : StateKey) : List (Time × Bool) :=
  (log.filter fun r => r.key = k).map fun r => (r.now, r.breach)

/-- The alert was created for the key. -/
def Owns (log : List Record) (k : StateKey) (a : Pk) : Prop :=
  ∃ r ∈ log, r.key = k ∧ r.fired = some a

/-- The alert exists and is not resolved. -/
def AlertOpen (db : Db) (a : Pk) : Prop :=
  ∃ row, db.alerts.get? a = some row ∧ row.isResolved = false

/-- The alert exists, with the rule and the station of the key. -/
def IssuedFor (db : Db) (k : StateKey) (a : Pk) : Prop :=
  ∃ row, db.alerts.get? a = some row ∧ row.station = k.station ∧ row.rule = some k.rule

/-- The duration of a rule. -/
def durationOf (db : Db) (rule : Pk) : Time := (db.rules.get? rule).elim 0 AlertRule.duration

/-- What holds between two evaluations. -/
structure Inv (db : Db) (log : List Record) : Prop where
  numbered : db.AlertsNumbered
  issued : ∀ k a, Owns log k a → IssuedFor db k a
  owner : ∀ k k' a, Owns log k a → Owns log k' a → k = k'
  referred : ∀ k st a, db.states.get? k = some st → st.alert = some a → Owns log k a
  isReferred : ∀ k a, Owns log k a → AlertOpen db a →
    ∃ st, db.states.get? k = some st ∧ st.alert = some a
  timed : ∀ k st, db.states.get? k = some st → Timed (evals log k) (durationOf db k.rule) st
  fired : ∀ r ∈ log, r.fired ≠ none →
    Confirmed (evals log r.key) (durationOf db r.key.rule) true r.now
  cleared : ∀ r ∈ log, ∀ a, r.cleared = some a → Owns log r.key a ∧
    Confirmed (evals log r.key) (durationOf db r.key.rule) false r.now

/-! ## the writes of one evaluation -/

section
variable {db : Db} {log : List Record} {now : Time} {o : Outcome} {k : StateKey} {r : Record}

theorem evals_cons_self : evals (r :: log) r.key = (r.now, r.breach) :: evals log r.key := by
  simp [evals]

theorem evals_cons_ne (h : r.key ≠ k) : evals (r :: log) k = evals log k := by
  simp [evals, h]

theorem mem_evals {e : Time × Bool} :
    e ∈ evals log k ↔ ∃ r ∈ log, r.key = k ∧ (r.now, r.breach) = e := by
  simp [evals, and_assoc]

variable {a pk : Pk} {st : ThresholdState}

theorem owns_cons : Owns (r :: log) k a ↔ (r.key = k ∧ r.fired = some a) ∨ Owns log k a := by
  simp [Owns]

/-- What was confirmed stays confirmed. -/
theorem Confirmed.cons {d t : Time} {b : Bool} (h : Confirmed (evals log k) d b t)
    (hnew : r.key = k → t < r.now) : Confirmed (evals (r :: log) k) d b t := by
  obtain ⟨t₀, hd, hs⟩ := h
  by_cases hk : r.key = k
  · subst hk
    rw [evals_cons_self]
    exact ⟨t₀, hd, hs.push (hnew rfl)⟩
  · rw [evals_cons_ne hk]
    exact ⟨t₀, hd, hs⟩

section
variable {before : Option ThresholdState} {after : ThresholdState}

@[simp] theorem saveState_alerts : (db.saveState k before after).alerts = db.alerts := by
  unfold Db.saveState
  split
  · rfl
  · split <;> rfl

@[simp] theorem saveState_nextAlert : (db.saveState k before after).nextAlert = db.nextAlert := by
  unfold Db.saveState
  split
  · rfl
  · split <;> rfl

@[simp] theorem saveState_rules : (db.saveState k before after).rules = db.rules := by
  unfold Db.saveState
  split
  · rfl
  · split <;> rfl

theorem saveState_other {j : StateKey} (h : j ≠ k) :
    (db.saveState k before after).states.get? j = db.states.get? j := by
  unfold Db.saveState
  split
  · rfl
  · split
    · simp [Table.get?_insert, h]
    · simp [h]

/-- The state that was saved is there, unless there was none and it is blank. -/
theorem saveState_own (h : before = db.states.get? k) :
    (db.saveState k before after).states.get? k = some after ∨
      ((db.saveState k before after).states.get? k = none ∧ after = {}) := by
  subst h
  unfold Db.saveState
  cases hk : db.states.get? k with
  | none =>
    simp only [Option.getD_none]
    split
    · next hb => exact .inr ⟨hk, hb⟩
    · exact .inl (by simp [Table.get?_insert, hk])
  | some st =>
    simp only [Option.getD_some]
    split
    · next hb => exact .inl (by rw [hk, hb])
    · exact .inl (by simp [hk])

end

/-- The state of a key; a missing row is a blank one. -/
def stateOf (db : Db) (k : StateKey) : ThresholdState := (db.states.get? k).getD {}

theorem stateOf_alert (h : (stateOf db k).alert = some a) :
    ∃ st, db.states.get? k = some st ∧ st.alert = some a := by
  unfold stateOf at h
  cases hk : db.states.get? k with
  | none =>
    rw [hk] at h
    cases h
  | some st =>
    rw [hk] at h
    exact ⟨st, rfl, h⟩

theorem openAlert_eq_some :
    st.openAlert db.alerts = some a ↔ st.alert = some a ∧ AlertOpen db a := by
  simp [ThresholdState.openAlert, AlertOpen, Option.filter_eq_some_iff, Option.any_eq_true]

theorem IssuedFor.resolveAlerts {p : Pk → Alert → Bool} (h : IssuedFor db k a) :
    IssuedFor (db.resolveAlerts now p) k a := by
  obtain ⟨row, hrow, hst, hrule⟩ := h
  refine ⟨_, by rw [Db.resolveAlerts, Table.get?_map, hrow]; rfl, ?_, ?_⟩
  · dsimp only
    split <;> exact hst
  · dsimp only
    split <;> exact hrule

theorem Inv.timed_stateOf (hi : Inv db log) (k : StateKey) :
    Timed (evals log k) (durationOf db k.rule) (stateOf db k) := by
  unfold stateOf
  cases hk : db.states.get? k with
  | none => exact Timed.empty _ _
  | some st => exact hi.timed k st hk

theorem Inv.lt_nextAlert (hi : Inv db log) (h : Owns log k a) : a < db.nextAlert := by
  obtain ⟨row, hrow, -⟩ := hi.issued k a h
  exact hi.numbered a row hrow

/-- The invariant after the alerts were written (`db₁`), a record was added and the
state of its key was saved. -/
theorem Inv.save (hi : Inv db log) (db₁ : Db) (hlog : ∀ r' ∈ log, r'.key = r.key → r'.now < r.now)
    (hstates : db₁.states = db.states) (hrules : db₁.rules = db.rules)
    (hnum : db₁.AlertsNumbered) (hrows : ∀ k a, IssuedFor db k a → IssuedFor db₁ k a)
    (hissued : ∀ a, r.fired = some a → db.nextAlert ≤ a ∧ IssuedFor db₁ r.key a)
    (hopen : ∀ a, AlertOpen db₁ a → AlertOpen db a ∨ r.fired = some a)
    {after : ThresholdState} (hrefers : ∀ a, after.alert = some a → Owns (r :: log) r.key a)
    (hreferred : ∀ a, Owns (r :: log) r.key a → AlertOpen db₁ a → after.alert = some a)
    (htimed : Timed ((r.now, r.breach) :: evals log r.key) (durationOf db r.key.rule) after)
    (hfired : r.fired ≠ none →
      Confirmed (evals (r :: log) r.key) (durationOf db r.key.rule) true r.now)
    (hcleared : ∀ a, r.cleared = some a → Owns log r.key a ∧
      Confirmed (evals (r :: log) r.key) (durationOf db r.key.rule) false r.now) :
    Inv (db₁.saveState r.key (db.states.get? r.key) after) (r :: log) := by
  have hown : (db₁.saveState r.key (db.states.get? r.key) after).states.get? r.key = some after ∨
      ((db₁.saveState r.key (db.states.get? r.key) after).states.get? r.key = none ∧
        after = {}) :=
    saveState_own (congrArg (Table.get? · r.key) hstates.symm)
  have hdur : ∀ pk, durationOf (db₁.saveState r.key (db.states.get? r.key) after) pk =
      durationOf db pk := by
    intro pk
    rw [durationOf, saveState_rules, hrules, durationOf]
  have hisOpen : ∀ a, AlertOpen (db₁.saveState r.key (db.states.get? r.key) after) a ↔
      AlertOpen db₁ a := by
    intro a
    rw [AlertOpen, saveState_alerts, AlertOpen]
  refine ⟨?_, ?_, ?_, ?_, ?_, ?_, ?_, ?_⟩
  · intro pk a ha
    rw [saveState_alerts] at ha
    rw [saveState_nextAlert]
    exact hnum pk a ha
  · intro k a hk
    rw [IssuedFor, saveState_alerts]
    rcases owns_cons.mp hk with ⟨rfl, hf⟩ | hk
    · exact (hissued a hf).2
    · exact hrows k a (hi.issued k a hk)
  · -- a new alert has no earlier owner
    have hnew : ∀ k a, r.fired = some a → ¬ Owns log k a := fun k a hf hk =>
      absurd (hi.lt_nextAlert hk) (Nat.not_lt.mpr (hissued a hf).1)
    intro k k' a hk hk'
    rcases owns_cons.mp hk with ⟨hrk, hf⟩ | hk
    · rcases owns_cons.mp hk' with ⟨hrk', -⟩ | hk'
      · exact hrk.symm.trans hrk'
      · exact absurd hk' (hnew k' a hf)
    · rcases owns_cons.mp hk' with ⟨-, hf⟩ | hk'
      · exact absurd hk (hnew k a hf)
      · exact hi.owner k k' a hk hk'
  · intro k st a hst ha
    by_cases hk : k = r.key
    · subst hk
      rcases hown with hown | ⟨hown, -⟩
      · cases hown.symm.trans hst
        exact hrefers a ha
      · cases hown.symm.trans hst
    · rw [saveState_other hk, hstates] at hst
      exact owns_cons.mpr (.inr (hi.referred k st a hst ha))
  · intro k a hk ho
    rw [hisOpen] at ho
    by_cases hrk : k = r.key
    · subst hrk
      have ha := hreferred a hk ho
      rcases hown with hown | ⟨-, hblank⟩
      · exact ⟨after, hown, ha⟩
      · rw [hblank] at ha
        cases ha
    · rw [saveState_other hrk, hstates]
      have hk' : Owns log k a :=
        (owns_cons.mp hk).resolve_left fun hr => hrk hr.1.symm
      rcases hopen a ho with ho | hf
      · exact hi.isReferred k a hk' ho
      · exact absurd (hi.lt_nextAlert hk') (Nat.not_lt.mpr (hissued a hf).1)
  · intro k st hst
    rw [hdur]
    by_cases hk : k = r.key
    · subst hk
      rcases hown with hown | ⟨hown, -⟩
      · cases hown.symm.trans hst
        rw [evals_cons_self]
        exact htimed
      · cases hown.symm.trans hst
    · rw [saveState_other hk, hstates] at hst
      rw [evals_cons_ne (Ne.symm hk)]
      exact hi.timed k st hst
  · intro r' hr' hf
    rw [hdur]
    rcases List.mem_cons.mp hr' with rfl | hr'
    · exact hfired hf
    · exact (hi.fired r' hr' hf).cons fun hk => hlog r' hr' hk.symm
  · intro r' hr' a hc
    rw [hdur]
    rcases List.mem_cons.mp hr' with rfl | hr'
    · exact ⟨owns_cons.mpr (.inr (hcleared a hc).1), (hcleared a hc).2⟩
    · obtain ⟨hown', hconf⟩ := hi.cleared r' hr' a hc
      exact ⟨owns_cons.mpr (.inr hown'), hconf.cons fun hk => hlog r' hr' hk.symm⟩

/-- The action that a turn asks for. -/
inductive ActionFor (openAlert : Option Pk) : ThresholdState.Turn → Action → Prop
  | keep : ActionFor openAlert .keep .keep
  | fire (since : Time) (title message : String) :
      ActionFor openAlert (.fire since) (.fire title message)
  | clear (pk : Pk) : openAlert = some pk → ActionFor openAlert .clear (.clear pk)

/-- The outcome is an evaluation of the rows as they are now. -/
structure Fresh (db : Db) (now : Time) (o : Outcome) : Prop where
  before : o.before = db.states.get? o.key
  evaluated : ∃ turn,
    Evaluates (stateOf db o.key) (durationOf db o.key.rule) now
      ((stateOf db o.key).openAlert db.alerts).isSome o.breach (o.after, turn) ∧
    ActionFor ((stateOf db o.key).openAlert db.alerts) turn o.action

theorem actionFor_spec (rule : AlertRule) (c : Candidate) (v : Rat) (oa : Option Pk)
    {turn : ThresholdState.Turn} (h : turn = .clear → oa.isSome = true) :
    ActionFor oa turn (actionFor rule c v now oa turn) := by
  cases turn with
  | keep => exact .keep
  | fire since => exact .fire since _ _
  | clear =>
    obtain ⟨pk, rfl⟩ := Option.isSome_iff_exists.mp (h rfl)
    exact .clear pk rfl

/-- An evaluation on the rows of the database is up to date. -/
theorem evaluateCandidate_fresh {rule : AlertRule} {c : Candidate} {o : Outcome}
    (hrule : db.rules.get? pk = some rule)
    (h : evaluateCandidate pk rule db.states db.alerts now c = some o) : Fresh db now o := by
  obtain ⟨v, -, rfl⟩ := Option.map_eq_some_iff.mp h
  have heval := evaluates (stateOf db ⟨pk, c.station, c.key⟩) (durationOf db pk) now
    ((stateOf db ⟨pk, c.station, c.key⟩).openAlert db.alerts).isSome
    (compare rule.operator v rule.threshold)
  have hdur : durationOf db pk = rule.duration := by
    rw [durationOf, hrule]
    rfl
  rw [hdur] at heval
  refine ⟨rfl, _, ?_, actionFor_spec rule c v _ fun hclear => ?_⟩
  · show Evaluates _ (durationOf db pk) _ _ _ _
    rw [hdur]
    exact heval
  · exact heval.open_of_clear hclear

theorem evaluateCandidate_key {rule : AlertRule} {c : Candidate} {o : Outcome}
    {states : Table StateKey ThresholdState} {alerts : Table Pk Alert}
    (h : evaluateCandidate pk rule states alerts now c = some o) :
    o.key = ⟨pk, c.station, c.key⟩ := by
  obtain ⟨v, -, rfl⟩ := Option.map_eq_some_iff.mp h
  rfl

/-- **The writes of one evaluation** keep the invariant. -/
theorem Inv.apply (hi : Inv db log) (hlog : ∀ r ∈ log, r.key = o.key → r.now < now)
    (hf : Fresh db now o) : Inv (db.applyOutcome now o).1 ((db.applyOutcome now o).2 :: log) := by
  obtain ⟨turn, heval, hact⟩ := hf.evaluated
  have htimes : ∀ e ∈ evals log o.key, e.1 < now := by
    intro e he
    obtain ⟨r, hr, hk, rfl⟩ := mem_evals.mp he
    exact hlog r hr hk
  have hev := (hi.timed_stateOf o.key).evaluate htimes (fun ho => by
    obtain ⟨a, ha⟩ := Option.isSome_iff_exists.mp ho
    rw [(openAlert_eq_some.mp ha).1]
    simp) heval
  have hopenOwn : ∀ a, Owns log o.key a → AlertOpen db a →
      (stateOf db o.key).openAlert db.alerts = some a := by
    intro a ha ho
    obtain ⟨st, hst, hsta⟩ := hi.isReferred o.key a ha ho
    refine openAlert_eq_some.mpr ⟨?_, ho⟩
    rw [stateOf, hst]
    exact hsta
  have hrefers : ∀ a, o.after.alert = some a → Owns log o.key a := by
    intro a ha
    obtain ⟨st, hst, hsta⟩ := stateOf_alert (heval.alert_eq ha)
    exact hi.referred o.key st a hst hsta
  unfold Db.applyOutcome
  rw [hf.before]
  generalize hoa : (stateOf db o.key).openAlert db.alerts = oa at *
  cases hact' : o.action with
  | keep =>
    rw [hact'] at hact
    cases hact
    refine hi.save (r := ⟨now, o.key, o.breach, none, none⟩) db hlog rfl rfl hi.numbered
      (fun _ _ h => h) (by simp) (fun a ho => .inl ho) ?_ ?_ hev.timed (by simp) (by simp)
    · intro a ha
      exact owns_cons.mpr (.inr (hrefers a ha))
    · intro a ha ho
      have ha' : Owns log o.key a := (owns_cons.mp ha).resolve_left (by simp)
      have hopen := hopenOwn a ha' ho
      subst hopen
      rw [heval.alert_of_open rfl rfl]
      exact (openAlert_eq_some.mp hoa).1
  | fire title message =>
    rw [hact'] at hact
    cases hact with
    | fire since =>
      obtain ⟨hconf, htimed⟩ := hev.fired since rfl
      have hnone := heval.not_open_of_fire
      refine hi.save (r := ⟨now, o.key, o.breach, some db.nextAlert, none⟩)
        (db.createAlert now o.key.station o.key.rule title message o.severity) hlog rfl rfl
        (hi.numbered.createAlert _ _ _ _ _ _) ?_ ?_ ?_ ?_ ?_ (htimed _) ?_ (by simp)
      · rintro k a ⟨row, hrow, hrest⟩
        refine ⟨row, ?_, hrest⟩
        rw [hi.numbered.get?_createAlert, if_neg (Nat.ne_of_lt (hi.numbered a row hrow)), hrow]
      · rintro a ⟨⟩
        refine ⟨Nat.le_refl _, ⟨o.key.station, some o.key.rule, o.severity, title, message,
          now, false, none⟩, ?_, rfl, rfl⟩
        rw [hi.numbered.get?_createAlert, if_pos rfl]
      · rintro a ⟨row, hrow, hres⟩
        rw [hi.numbered.get?_createAlert] at hrow
        split at hrow
        · next ha => exact .inr (by rw [ha])
        · exact .inl ⟨row, hrow, hres⟩
      · rintro a ⟨⟩
        exact owns_cons.mpr (.inl ⟨rfl, rfl⟩)
      · intro a ha ho
        rcases owns_cons.mp ha with ⟨-, hfired⟩ | ha
        · exact hfired
        · -- an open alert of the key would have kept the rule from firing
          obtain ⟨row, hrow, hres⟩ := ho
          have hne : a ≠ db.nextAlert := Nat.ne_of_lt (hi.lt_nextAlert ha)
          rw [hi.numbered.get?_createAlert, if_neg hne] at hrow
          have hopen := hopenOwn a ha ⟨row, hrow, hres⟩
          rw [hopen] at hnone
          cases hnone
      · intro _
        rw [evals_cons_self (r := ⟨now, o.key, o.breach, some db.nextAlert, none⟩)]
        exact hconf
  | clear pk =>
    rw [hact'] at hact
    cases hact with
    | clear _ hpk =>
      subst hpk
      obtain ⟨hpka, hpko⟩ := openAlert_eq_some.mp hoa
      have hpkown : Owns log o.key pk := by
        obtain ⟨st, hst, hsta⟩ := stateOf_alert hpka
        exact hi.referred o.key st pk hst hsta
      have hopen : ∀ a, AlertOpen (db.resolveAlerts now fun j _ => j = pk) a →
          AlertOpen db a ∧ a ≠ pk := by
        rintro a ⟨row, hrow⟩
        obtain ⟨hrow, hres, hne⟩ := Db.get?_resolveAlerts_open.mp hrow
        exact ⟨⟨row, hrow, hres⟩, of_decide_eq_false hne⟩
      refine hi.save (r := ⟨now, o.key, o.breach, none, some pk⟩)
        (db.resolveAlerts now fun j _ => j = pk) hlog rfl rfl
        (hi.numbered.resolveAlerts _ _) (fun _ _ h => h.resolveAlerts) (by simp)
        (fun a ho => .inl (hopen a ho).1) ?_ ?_ hev.timed (by simp) ?_
      · intro a ha
        exact owns_cons.mpr (.inr (hrefers a ha))
      · intro a ha ho
        have ha' : Owns log o.key a := (owns_cons.mp ha).resolve_left (by simp)
        have hsame := hopenOwn a ha' (hopen a ho).1
        exact absurd (Option.some.inj hsame).symm (hopen a ho).2
      · rintro a ⟨⟩
        rw [evals_cons_self (r := ⟨now, o.key, o.breach, none, some pk⟩)]
        exact ⟨hpkown, hev.cleared rfl⟩

/-! ## the writes of a run -/

/-- What a part of a run at `now` has done, with its records in order. -/
structure Progress (now : Time) (db : Db) (log : List Record) (db' : Db) (rs : List Record) :
    Prop where
  inv : Inv db' (rs.reverse ++ log)
  inputs : db'.rules = db.rules ∧ db'.definitions = db.definitions ∧
    db'.stations = db.stations ∧ db'.telemetry = db.telemetry
  times : ∀ r ∈ rs, r.now = now
  /-- A key without a record keeps its state and its alerts. -/
  untouched : ∀ k, (∀ r ∈ rs, r.key ≠ k) → db'.states.get? k = db.states.get? k ∧
    ∀ a, Owns log k a → db'.alerts.get? a = db.alerts.get? a
  created : ∀ a, db.alerts.get? a = none → db'.alerts.get? a ≠ none →
    ∃ r ∈ rs, r.fired = some a
  resolved : ∀ a, AlertOpen db a → ¬ AlertOpen db' a → ∃ r ∈ rs, r.cleared = some a

namespace Progress
variable {db' db'' : Db} {rs rs' : List Record}

theorem refl (hi : Inv db log) : Progress now db log db [] where
  inv := hi
  inputs := ⟨rfl, rfl, rfl, rfl⟩
  times := by simp
  untouched _ _ := ⟨rfl, fun _ _ => rfl⟩
  created _ h h' := absurd h h'
  resolved _ h h' := absurd h h'

theorem trans (h : Progress now db log db' rs)
    (h' : Progress now db' (rs.reverse ++ log) db'' rs') :
    Progress now db log db'' (rs ++ rs') where
  inv := by
    rw [List.reverse_append, List.append_assoc]
    exact h'.inv
  inputs := by
    obtain ⟨h₁, h₂, h₃, h₄⟩ := h.inputs
    obtain ⟨h₁', h₂', h₃', h₄'⟩ := h'.inputs
    exact ⟨h₁'.trans h₁, h₂'.trans h₂, h₃'.trans h₃, h₄'.trans h₄⟩
  times r hr := by
    rcases List.mem_append.mp hr with hr | hr
    · exact h.times r hr
    · exact h'.times r hr
  untouched k hk := by
    obtain ⟨hst, hal⟩ := h.untouched k fun r hr => hk r (List.mem_append_left _ hr)
    obtain ⟨hst', hal'⟩ := h'.untouched k fun r hr => hk r (List.mem_append_right _ hr)
    refine ⟨hst'.trans hst, fun a ha => ?_⟩
    obtain ⟨r, hr, hrk⟩ := ha
    exact (hal' a ⟨r, List.mem_append_right _ hr, hrk⟩).trans (hal a ⟨r, hr, hrk⟩)
  created a hnone hsome := by
    by_cases hmid : db'.alerts.get? a = none
    · obtain ⟨r, hr, hf⟩ := h'.created a hmid hsome
      exact ⟨r, List.mem_append_right _ hr, hf⟩
    · obtain ⟨r, hr, hf⟩ := h.created a hnone hmid
      exact ⟨r, List.mem_append_left _ hr, hf⟩
  resolved a hopen hnot := by
    by_cases hmid : AlertOpen db' a
    · obtain ⟨r, hr, hc⟩ := h'.resolved a hmid hnot
      exact ⟨r, List.mem_append_right _ hr, hc⟩
    · obtain ⟨r, hr, hc⟩ := h.resolved a hopen hmid
      exact ⟨r, List.mem_append_left _ hr, hc⟩

end Progress

@[simp] theorem saveState_inputs {before : Option ThresholdState} {after : ThresholdState} :
    (db.saveState k before after).definitions = db.definitions ∧
    (db.saveState k before after).stations = db.stations ∧
    (db.saveState k before after).telemetry = db.telemetry := by
  unfold Db.saveState
  split
  · exact ⟨rfl, rfl, rfl⟩
  · split <;> exact ⟨rfl, rfl, rfl⟩

@[simp] theorem applyOutcome_record : (db.applyOutcome now o).2.now = now ∧
    (db.applyOutcome now o).2.key = o.key ∧ (db.applyOutcome now o).2.breach = o.breach := by
  unfold Db.applyOutcome
  split <;> exact ⟨rfl, rfl, rfl⟩

/-- A clear is about the open alert of its own state. -/
theorem Fresh.of_clear (hf : Fresh db now o) (h : o.action = .clear pk) :
    (∃ st, db.states.get? o.key = some st ∧ st.alert = some pk) ∧ AlertOpen db pk := by
  obtain ⟨turn, -, hact⟩ := hf.evaluated
  rw [h] at hact
  cases hact with
  | clear _ hpk =>
    obtain ⟨ha, ho⟩ := openAlert_eq_some.mp hpk
    exact ⟨stateOf_alert ha, ho⟩

/-- An alert that is neither new nor cleared is left alone. -/
theorem applyOutcome_alert (hn : db.AlertsNumbered) (hlt : a < db.nextAlert)
    (hclear : ∀ pk, o.action = .clear pk → a ≠ pk) :
    (db.applyOutcome now o).1.alerts.get? a = db.alerts.get? a := by
  unfold Db.applyOutcome
  cases haction : o.action with
  | keep => rw [saveState_alerts]
  | fire title message => rw [saveState_alerts, hn.get?_createAlert, if_neg (Nat.ne_of_lt hlt)]
  | clear pk => simp [Db.resolveAlerts, hclear pk haction]

/-- Alerts of other keys are left alone. -/
theorem Inv.apply_alert_other (hi : Inv db log) (hf : Fresh db now o) (ha : Owns log k a)
    (hne : k ≠ o.key) : (db.applyOutcome now o).1.alerts.get? a = db.alerts.get? a := by
  refine applyOutcome_alert hi.numbered (hi.lt_nextAlert ha) fun pk hpk => ?_
  rintro rfl
  obtain ⟨⟨st, hst, hsta⟩, -⟩ := hf.of_clear hpk
  exact hne (hi.owner k o.key a ha (hi.referred o.key st a hst hsta))

theorem applyOutcome_state_other (hne : k ≠ o.key) :
    (db.applyOutcome now o).1.states.get? k = db.states.get? k := by
  unfold Db.applyOutcome
  split <;> exact saveState_other hne

theorem applyOutcome_inputs : (db.applyOutcome now o).1.rules = db.rules ∧
    (db.applyOutcome now o).1.definitions = db.definitions ∧
    (db.applyOutcome now o).1.stations = db.stations ∧
    (db.applyOutcome now o).1.telemetry = db.telemetry := by
  unfold Db.applyOutcome
  split <;> exact ⟨saveState_rules, saveState_inputs⟩

theorem Progress.apply (hi : Inv db log) (hlog : ∀ r ∈ log, r.key = o.key → r.now < now)
    (hf : Fresh db now o) :
    Progress now db log (db.applyOutcome now o).1 [(db.applyOutcome now o).2] where
  inv := hi.apply hlog hf
  inputs := applyOutcome_inputs
  times := by simp
  untouched k hk := by
    have hne : k ≠ o.key := by
      have := hk _ List.mem_cons_self
      rw [applyOutcome_record.2.1] at this
      exact this.symm
    exact ⟨applyOutcome_state_other hne, fun a ha => hi.apply_alert_other hf ha hne⟩
  created a hnone hsome := by
    refine ⟨_, List.mem_cons_self, ?_⟩
    unfold Db.applyOutcome at hsome ⊢
    cases haction : o.action with
    | keep =>
      rw [haction, saveState_alerts] at hsome
      exact absurd hnone hsome
    | fire title message =>
      rw [haction, saveState_alerts, hi.numbered.get?_createAlert] at hsome
      split at hsome
      · next ha => exact congrArg some ha.symm
      · exact absurd hnone hsome
    | clear pk =>
      rw [haction, saveState_alerts, Db.resolveAlerts, Table.get?_map, hnone] at hsome
      exact absurd rfl hsome
  resolved a hopen hnot := by
    refine ⟨_, List.mem_cons_self, ?_⟩
    unfold Db.applyOutcome at hnot ⊢
    cases haction : o.action with
    | keep =>
      rw [haction, AlertOpen, saveState_alerts] at hnot
      exact absurd hopen hnot
    | fire title message =>
      obtain ⟨row, hrow, hres⟩ := hopen
      rw [haction, AlertOpen, saveState_alerts] at hnot
      refine absurd ⟨row, ?_, hres⟩ hnot
      rw [hi.numbered.get?_createAlert, if_neg (Nat.ne_of_lt (hi.numbered a row hrow)), hrow]
    | clear pk =>
      obtain ⟨row, hrow, hres⟩ := hopen
      rw [haction, AlertOpen, saveState_alerts] at hnot
      by_cases hapk : a = pk
      · rw [hapk]
      · exact absurd ⟨row, Db.get?_resolveAlerts_open.mpr ⟨hrow, hres, by simp [hapk]⟩⟩ hnot

/-- An outcome stays up to date while its rule, its state and the alert of the state
stay as they are. -/
theorem Fresh.of_same {db' : Db} (hf : Fresh db now o)
    (hst : db'.states.get? o.key = db.states.get? o.key)
    (hrule : db'.rules.get? o.key.rule = db.rules.get? o.key.rule)
    (hopen : ∀ a, (stateOf db o.key).alert = some a → (AlertOpen db' a ↔ AlertOpen db a)) :
    Fresh db' now o := by
  have hstate : stateOf db' o.key = stateOf db o.key := by rw [stateOf, hst, stateOf]
  have hdur : durationOf db' o.key.rule = durationOf db o.key.rule := by
    rw [durationOf, hrule, durationOf]
  have halert : (stateOf db o.key).openAlert db'.alerts =
      (stateOf db o.key).openAlert db.alerts := by
    ext a
    rw [openAlert_eq_some, openAlert_eq_some]
    exact and_congr_right (hopen a)
  refine ⟨hf.before.trans hst.symm, ?_⟩
  rw [hstate, hdur, halert]
  exact hf.evaluated

/-! ## references -/

/-- The states refer to alerts of their rule, and no two to the same one. -/
structure Refs (db : Db) : Prop where
  numbered : db.AlertsNumbered
  ruled : ∀ k st a, db.states.get? k = some st → st.alert = some a →
    ∃ row, db.alerts.get? a = some row ∧ row.rule = some k.rule
  injective : ∀ k k' st st' a, db.states.get? k = some st → db.states.get? k' = some st' →
    st.alert = some a → st'.alert = some a → k = k'

theorem Inv.refs (hi : Inv db log) : Refs db where
  numbered := hi.numbered
  ruled k st a hst ha := by
    obtain ⟨row, hrow, -, hrule⟩ := hi.issued k a (hi.referred k st a hst ha)
    exact ⟨row, hrow, hrule⟩
  injective k k' st st' a hst hst' ha ha' :=
    hi.owner k k' a (hi.referred k st a hst ha) (hi.referred k' st' a hst' ha')

theorem Refs.lt_nextAlert (hr : Refs db) (hst : db.states.get? k = some st) (ha : st.alert = some a) :
    a < db.nextAlert := by
  obtain ⟨row, hrow, -⟩ := hr.ruled k st a hst ha
  exact hr.numbered a row hrow

/-- The alert of the state of another key is left alone. -/
theorem Refs.apply_alert_other (hr : Refs db) (hf : Fresh db now o)
    (hst : db.states.get? k = some st) (ha : st.alert = some a) (hne : k ≠ o.key) :
    (db.applyOutcome now o).1.alerts.get? a = db.alerts.get? a := by
  refine applyOutcome_alert hr.numbered (hr.lt_nextAlert hst ha) fun pk hpk => ?_
  rintro rfl
  obtain ⟨⟨st', hst', ha'⟩, -⟩ := hf.of_clear hpk
  exact hne (hr.injective k o.key st st' a hst hst' ha ha')

/-- An outcome stays up to date while those of other keys are written. -/
theorem Fresh.progress {o' : Outcome} (hr : Refs db) (hf : Fresh db now o)
    (hf' : Fresh db now o') (hne : o'.key ≠ o.key) : Fresh (db.applyOutcome now o).1 now o' := by
  refine hf'.of_same (applyOutcome_state_other hne) (by rw [applyOutcome_inputs.1]) ?_
  intro a ha
  obtain ⟨st, hst, hsta⟩ := stateOf_alert ha
  rw [AlertOpen, hr.apply_alert_other hf hst hsta hne, AlertOpen]

/-- **The writes of a list of outcomes**, one for each key. -/
theorem Progress.applyAll {os : List Outcome} (hi : Inv db log)
    (hfresh : ∀ o ∈ os, Fresh db now o) (hkeys : os.Pairwise fun o o' => o.key ≠ o'.key)
    (hlog : ∀ o ∈ os, ∀ r ∈ log, r.key = o.key → r.now < now) :
    Progress now db log (db.applyOutcomes now os).1 (db.applyOutcomes now os).2 := by
  induction os generalizing db log with
  | nil => exact .refl hi
  | cons o os ih =>
    obtain ⟨hne, hkeys⟩ := List.pairwise_cons.mp hkeys
    have ho := hfresh o List.mem_cons_self
    have hfirst := Progress.apply hi (hlog o List.mem_cons_self) ho
    refine hfirst.trans (ih hfirst.inv ?_ hkeys ?_)
    · intro o' ho'
      exact ho.progress hi.refs (hfresh o' (List.mem_cons_of_mem _ ho')) (hne o' ho').symm
    · intro o' ho' r hr hrk
      rcases List.mem_cons.mp hr with rfl | hr
      · rw [applyOutcome_record.2.1] at hrk
        exact absurd hrk (hne o' ho')
      · exact hlog o' (List.mem_cons_of_mem _ ho') r hr hrk

end

end StationManager.Monitoring.Thresholds
