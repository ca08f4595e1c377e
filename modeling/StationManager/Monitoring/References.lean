import StationManager.Monitoring.Writes

/-!
# StationManager.Monitoring.References

What the writes of the engine do to open alerts and to the states that refer to
them, whatever the rules are and however they change in between.  `Applied`
says it for a list of outcomes that are up to date: states refer to distinct
alerts of their rule, an open alert has a state that refers to it, and states
of other keys are left alone.
-/

namespace StationManager.Monitoring.Thresholds

/-! ## open alerts and the states that refer to them -/

/-- Every open alert is the one of a state whose key is `ok`. -/
def Covers (db : Db) (ok : StateKey → Prop) : Prop :=
  ∀ a, AlertOpen db a → ∃ k st, db.states.get? k = some st ∧ st.alert = some a ∧ ok k

section
variable {db : Db} {now : Time} {o : Outcome} {k : StateKey}

/-- The state that an outcome leaves behind; `new` is the key of an alert that fires. -/
def savedState (o : Outcome) (new : Pk) : ThresholdState :=
  match o.action with
  | .fire _ _ => { o.after with alert := some new }
  | _ => o.after

theorem applyOutcome_own (hf : Fresh db now o) :
    (db.applyOutcome now o).1.states.get? o.key = some (savedState o db.nextAlert) ∨
      ((db.applyOutcome now o).1.states.get? o.key = none ∧ savedState o db.nextAlert = {}) := by
  unfold Db.applyOutcome savedState
  rw [hf.before]
  cases o.action with
  | keep => exact saveState_own rfl
  | fire title message => exact saveState_own rfl
  | clear pk => exact saveState_own rfl

/-- It refers to a new alert, or to the one of the old state. -/
theorem savedState_alert (hf : Fresh db now o) {new a : Pk}
    (ha : (savedState o new).alert = some a) :
    (a = new ∧ ∃ title message, o.action = .fire title message) ∨
      (o.action = .keep ∧ ∃ st, db.states.get? o.key = some st ∧ st.alert = some a) := by
  obtain ⟨turn, heval, hact⟩ := hf.evaluated
  unfold savedState at ha
  cases haction : o.action with
  | keep =>
    rw [haction] at ha
    exact .inr ⟨rfl, stateOf_alert (heval.alert_eq ha)⟩
  | fire title message =>
    rw [haction] at ha
    cases ha
    exact .inl ⟨rfl, title, message, rfl⟩
  | clear pk =>
    rw [haction] at ha hact
    cases hact
    rw [heval.alert_of_clear] at ha
    cases ha

/-- The reference to an open alert stays, unless the outcome clears it. -/
theorem savedState_of_open (hf : Fresh db now o) {new a : Pk} {st : ThresholdState}
    (hst : db.states.get? o.key = some st) (ha : st.alert = some a) (ho : AlertOpen db a) :
    (savedState o new).alert = some a ∨ o.action = .clear a := by
  have hopen : (stateOf db o.key).openAlert db.alerts = some a :=
    openAlert_eq_some.mpr ⟨by rw [stateOf, hst]; exact ha, ho⟩
  obtain ⟨turn, heval, hact⟩ := hf.evaluated
  rw [hopen] at heval hact
  unfold savedState
  generalize o.action = action at hact ⊢
  cases hact with
  | keep =>
    left
    rw [heval.alert_of_open rfl rfl]
    exact (openAlert_eq_some.mp hopen).1
  | fire since title message => exact absurd heval.not_open_of_fire (by simp)
  | clear pk hpk =>
    cases hpk
    exact .inr rfl

theorem applyOutcome_numbered (hn : db.AlertsNumbered) : (db.applyOutcome now o).1.AlertsNumbered ∧
      db.nextAlert ≤ (db.applyOutcome now o).1.nextAlert := by
  unfold Db.applyOutcome
  cases o.action with
  | keep =>
    refine ⟨fun pk a ha => ?_, by simp⟩
    rw [saveState_alerts] at ha
    rw [saveState_nextAlert]
    exact hn pk a ha
  | fire title message =>
    refine ⟨fun pk a ha => ?_, ?_⟩
    · rw [saveState_alerts] at ha
      rw [saveState_nextAlert]
      exact hn.createAlert _ _ _ _ _ _ pk a ha
    · rw [saveState_nextAlert]
      exact Nat.le_succ _
  | clear pk =>
    refine ⟨fun j a ha => ?_, by rw [saveState_nextAlert]; exact Nat.le_refl _⟩
    rw [saveState_alerts] at ha
    rw [saveState_nextAlert]
    exact hn.resolveAlerts _ _ j a ha

/-- An open alert is new, with the state of the outcome referring to it, or it was open
and was not cleared. -/
theorem applyOutcome_open (hn : db.AlertsNumbered) {a : Pk}
    (h : AlertOpen (db.applyOutcome now o).1 a) :
    (a = db.nextAlert ∧ ∃ title message, o.action = .fire title message) ∨
      (AlertOpen db a ∧ o.action ≠ .clear a) := by
  obtain ⟨row, hrow, hres⟩ := h
  unfold Db.applyOutcome at hrow
  cases haction : o.action with
  | keep =>
    rw [haction, saveState_alerts] at hrow
    exact .inr ⟨⟨row, hrow, hres⟩, by simp⟩
  | fire title message =>
    rw [haction, saveState_alerts, hn.get?_createAlert] at hrow
    split at hrow
    · next ha => exact .inl ⟨ha, title, message, rfl⟩
    · exact .inr ⟨⟨row, hrow, hres⟩, by simp⟩
  | clear pk =>
    rw [haction, saveState_alerts] at hrow
    obtain ⟨hrow, hres, hne⟩ := Db.get?_resolveAlerts_open.mp ⟨hrow, hres⟩
    refine .inr ⟨⟨row, hrow, hres⟩, ?_⟩
    rintro ⟨⟩
    simp at hne

/-- What the writes of outcomes do to states, alerts and their references. -/
structure Applied (db db' : Db) (os : List Outcome) : Prop where
  refs : Refs db'
  inputs : db'.rules = db.rules ∧ db'.definitions = db.definitions
  next : db.nextAlert ≤ db'.nextAlert
  other : ∀ k, (∀ o ∈ os, k ≠ o.key) → db'.states.get? k = db.states.get? k ∧
    ∀ st a, db.states.get? k = some st → st.alert = some a →
      db'.alerts.get? a = db.alerts.get? a
  /-- References are old ones, or to new alerts. -/
  reference : ∀ k st a, db'.states.get? k = some st → st.alert = some a →
    a < db.nextAlert → ∃ st', db.states.get? k = some st' ∧ st'.alert = some a
  covers : ∀ ok, Covers db ok → (∀ o ∈ os, ok o.key) → Covers db' ok

theorem Applied.refl (hr : Refs db) : Applied db db [] where
  refs := hr
  inputs := ⟨rfl, rfl⟩
  next := Nat.le_refl _
  other _ _ := ⟨rfl, fun _ _ _ _ => rfl⟩
  reference _ st _ hst ha _ := ⟨st, hst, ha⟩
  covers _ h _ := h

theorem Refs.applyOutcome (hr : Refs db) (hf : Fresh db now o) :
    Refs (db.applyOutcome now o).1 := by
  have hother : ∀ k st a, k ≠ o.key →
      (db.applyOutcome now o).1.states.get? k = some st → st.alert = some a →
      db.states.get? k = some st ∧
        (db.applyOutcome now o).1.alerts.get? a = db.alerts.get? a := by
    intro k st a hk hst ha
    rw [applyOutcome_state_other hk] at hst
    exact ⟨hst, hr.apply_alert_other hf hst ha hk⟩
  have hown : ∀ st a, (db.applyOutcome now o).1.states.get? o.key = some st →
      st.alert = some a →
      (a = db.nextAlert ∧ ∃ title message, o.action = .fire title message) ∨
        (o.action = .keep ∧ ∃ st', db.states.get? o.key = some st' ∧ st'.alert = some a) := by
    intro st a hst ha
    rcases applyOutcome_own hf with hown | ⟨hown, -⟩
    · cases hown.symm.trans hst
      exact savedState_alert hf ha
    · cases hown.symm.trans hst
  have hlt : ∀ k st, k ≠ o.key → db.states.get? k = some st → st.alert ≠ some db.nextAlert := by
    intro k st _ hst ha
    exact Nat.lt_irrefl _ (hr.lt_nextAlert hst ha)
  refine ⟨(applyOutcome_numbered hr.numbered).1, fun k st a hst ha => ?_,
    fun k k' st st' a hst hst' ha ha' => ?_⟩
  · by_cases hk : k = o.key
    · subst hk
      rcases hown st a hst ha with ⟨rfl, title, message, hfire⟩ | ⟨hkeep, st', hst', ha'⟩
      · unfold Db.applyOutcome
        rw [hfire, saveState_alerts]
        exact ⟨_, by rw [hr.numbered.get?_createAlert, if_pos rfl], rfl⟩
      · unfold Db.applyOutcome
        rw [hkeep, saveState_alerts]
        exact hr.ruled o.key st' a hst' ha'
    · obtain ⟨hst, hal⟩ := hother k st a hk hst ha
      rw [hal]
      exact hr.ruled k st a hst ha
  · by_cases hk : k = o.key
    · by_cases hk' : k' = o.key
      · rw [hk, hk']
      · subst hk
        obtain ⟨hst', -⟩ := hother k' st' a hk' hst' ha'
        rcases hown st a hst ha with ⟨rfl, -⟩ | ⟨-, st₀, hst₀, ha₀⟩
        · exact absurd ha' (hlt k' st' hk' hst')
        · exact hr.injective _ _ _ _ a hst₀ hst' ha₀ ha'
    · obtain ⟨hst, -⟩ := hother k st a hk hst ha
      by_cases hk' : k' = o.key
      · subst hk'
        rcases hown st' a hst' ha' with ⟨rfl, -⟩ | ⟨-, st₀, hst₀, ha₀⟩
        · exact absurd ha (hlt k st hk hst)
        · exact hr.injective _ _ _ _ a hst hst₀ ha ha₀
      · obtain ⟨hst', -⟩ := hother k' st' a hk' hst' ha'
        exact hr.injective _ _ _ _ a hst hst' ha ha'

theorem Applied.single (hr : Refs db) (hf : Fresh db now o) :
    Applied db (db.applyOutcome now o).1 [o] where
  refs := hr.applyOutcome hf
  inputs := ⟨applyOutcome_inputs.1, applyOutcome_inputs.2.1⟩
  next := (applyOutcome_numbered hr.numbered).2
  other k hk := by
    have hne := hk o List.mem_cons_self
    exact ⟨applyOutcome_state_other hne, fun st a hst ha => hr.apply_alert_other hf hst ha hne⟩
  reference k st a hst ha hlt := by
    by_cases hk : k = o.key
    · subst hk
      rcases applyOutcome_own hf with hown | ⟨hown, -⟩
      · cases hown.symm.trans hst
        rcases savedState_alert hf ha with ⟨rfl, -⟩ | ⟨-, hold⟩
        · exact absurd hlt (Nat.lt_irrefl _)
        · exact hold
      · cases hown.symm.trans hst
    · rw [applyOutcome_state_other hk] at hst
      exact ⟨st, hst, ha⟩
  covers ok hcov hok a ho := by
    have hsaved : (savedState o db.nextAlert).alert = some a →
        ∃ k st, (db.applyOutcome now o).1.states.get? k = some st ∧ st.alert = some a ∧ ok k := by
      intro ha
      rcases applyOutcome_own hf with hown | ⟨-, hblank⟩
      · exact ⟨o.key, _, hown, ha, hok o List.mem_cons_self⟩
      · rw [hblank] at ha
        cases ha
    rcases applyOutcome_open hr.numbered ho with ⟨rfl, title, message, hfire⟩ | ⟨ho, hclear⟩
    · exact hsaved (by rw [savedState, hfire])
    · obtain ⟨k, st, hst, ha, hk⟩ := hcov a ho
      by_cases hko : k = o.key
      · subst hko
        exact hsaved ((savedState_of_open hf hst ha ho).resolve_right hclear)
      · exact ⟨k, st, by rw [applyOutcome_state_other hko, hst], ha, hk⟩

theorem Applied.trans {db' db'' : Db} {os os' : List Outcome} (h : Applied db db' os)
    (h' : Applied db' db'' os') : Applied db db'' (os ++ os') where
  refs := h'.refs
  inputs := ⟨h'.inputs.1.trans h.inputs.1, h'.inputs.2.trans h.inputs.2⟩
  next := Nat.le_trans h.next h'.next
  other k hk := by
    obtain ⟨hst, hal⟩ := h.other k fun o ho => hk o (List.mem_append_left _ ho)
    obtain ⟨hst', hal'⟩ := h'.other k fun o ho => hk o (List.mem_append_right _ ho)
    exact ⟨hst'.trans hst, fun st a hget ha =>
      (hal' st a (hst.trans hget) ha).trans (hal st a hget ha)⟩
  reference k st a hst ha hlt := by
    obtain ⟨st', hst', ha'⟩ := h'.reference k st a hst ha (Nat.lt_of_lt_of_le hlt h.next)
    exact h.reference k st' a hst' ha' hlt
  covers ok hcov hok :=
    h'.covers ok (h.covers ok hcov fun o ho => hok o (List.mem_append_left _ ho))
      fun o ho => hok o (List.mem_append_right _ ho)

/-- The writes of all outcomes of a rule. -/
theorem Applied.all {os : List Outcome} (hr : Refs db) (hfresh : ∀ o ∈ os, Fresh db now o)
    (hkeys : os.Pairwise fun o o' => o.key ≠ o'.key) :
    Applied db (db.applyOutcomes now os).1 os := by
  induction os generalizing db with
  | nil => exact .refl hr
  | cons o os ih =>
    obtain ⟨hne, hkeys⟩ := List.pairwise_cons.mp hkeys
    have ho := hfresh o List.mem_cons_self
    refine (Applied.single hr ho).trans (ih (hr.applyOutcome ho) (fun o' ho' => ?_) hkeys)
    exact ho.progress hr (hfresh o' (List.mem_cons_of_mem _ ho')) (hne o' ho').symm

end

end StationManager.Monitoring.Thresholds
