import StationManager.Monitoring.ResetAsserts

/-!
# StationManager.Monitoring.ResetInvariant

Every open alert is the one of a state, and its rule is active and its metric
unblocked, or a process in progress owes the reset.

`detect_threshold_rule_change` and `detect_metric_block` compare before the
UPDATE and without a lock, so a save can make a change that it has not seen.
`loses` says when a step leaves no reset behind; every other step keeps the
invariant `Good`.  This module has a lemma for each kind of write.
-/

namespace StationManager.Monitoring.Resets

open Thresholds

/-! ## the steps that lose a reset -/

namespace Proc

/-- The rule row that the next statement makes visible, and whether its reset comes with
it. -/
def ruleWrite (db : Db) : Proc → Option (Pk × AlertRule × Bool)
  | .updateRule save reset =>
    if save.mode = .autocommit then
      (save.row db).map fun row => (save.pk, row, save.resets reset db)
    else none
  | .commitSave save reset => (save.row db).map fun row => (save.pk, row, save.resets reset db)
  | _ => none

/-- The metric row that the next statement makes visible without a reset. -/
def metricWrite (db : Db) : Proc → Option (String × MetricDefinition)
  | .updateMetric save false =>
    if save.mode = .autocommit then
      (db.definitions.get? save.key).map fun old => (save.key, save.over old)
    else none
  | .commitMetric save => (db.definitions.get? save.key).map fun old => (save.key, save.over old)
  | _ => none

/-- A save without a reset takes an active threshold rule out of evaluation. -/
def disables (db : Db) (p : Proc) : Bool :=
  (p.ruleWrite db).any fun w =>
    !w.2.2 && (db.lockedRule w.1).isSome &&
      !(decide (w.2.1.alertType = .threshold) && w.2.1.isActive)

/-- A save without a reset blocks a metric. -/
def blocks (db : Db) (p : Proc) : Bool :=
  (p.metricWrite db).any fun w => w.2.isBlocked && !db.blocked w.1

/-- A delete with an instance of another type leaves alerts open. -/
def abandons (db : Db) : Proc → Bool
  | .lockDelete pk t =>
    decide (t ≠ .threshold) &&
      db.alerts.entries.any fun e => !e.2.isResolved && decide (e.2.rule = some pk)
  | _ => false

/-- A save makes a rule match a metric that is being reset, after the reset has
collected its rules. -/
def strays (c : Pool Shared Proc) (i : Nat) (p : Proc) : Bool :=
  (p.ruleWrite c.shared.db).any fun w => c.procs.entries.any fun e =>
    decide (e.1 ≠ i) && e.2.collected.any fun key =>
      decide (w.2.1.alertType = .threshold) && keyMatchesPattern key w.2.1.metricKey &&
        !c.shared.db.matchesKey w.1 key

end Proc

/-- The step loses a reset. -/
def loses (c : Pool Shared Proc) : Sched Request Time → Bool
  | .spawn _ _ => false
  | .advance i _ => (c.procs.get? i).any fun p =>
    p.disables c.shared.db || p.blocks c.shared.db || p.abandons c.shared.db || p.strays c i

/-! ## the invariant -/

/-- The rule is active, or will be reset. -/
def RuleOk (db : Db) (owed : Pk → Prop) (r : Pk) : Prop :=
  (db.lockedRule r).isSome = true ∨ owed r

/-- The metric is not blocked, or will be reset. -/
def KeyOk (db : Db) (owed : String → Prop) (key : String) : Prop :=
  db.blocked key = false ∨ owed key

def owedRule (c : Pool Shared Proc) (r : Pk) : Prop :=
  ∃ j q, c.procs.get? j = some q ∧ q.owesRule r

def owedKey (c : Pool Shared Proc) (key : String) : Prop :=
  ∃ j q, c.procs.get? j = some q ∧ q.owesKey key

def KeyCovered (c : Pool Shared Proc) (k : StateKey) : Prop :=
  RuleOk c.shared.db (owedRule c) k.rule ∧ KeyOk c.shared.db (owedKey c) k.metricKey

structure Good (c : Pool Shared Proc) : Prop where
  refs : Refs c.shared.db
  rows : ∀ k st, c.shared.db.states.get? k = some st → c.shared.db.rules.get? k.rule ≠ none
  asserts : ∀ j q, c.procs.get? j = some q → Asserts j q c.shared
  covers : Covers c.shared.db (KeyCovered c)
  engines : ∀ j q, c.procs.get? j = some q → ∀ key ∈ q.keys,
    KeyOk c.shared.db (owedKey c) key

/-- Process `i` goes on from `p`, and the locks of the others stay. -/
structure Moves (c c' : Pool Shared Proc) (i : Nat) (p : Proc) (p' : Option Proc) : Prop where
  own : c.procs.get? i = some p
  procs : ∀ j, c'.procs.get? j = if j = i then p' else c.procs.get? j
  locks : ∀ j r, j ≠ i → c.shared.ruleLocks.get? r = some j →
    c'.shared.ruleLocks.get? r = some j

/-- A metric that is unblocked or owed a reset stays so. -/
def KeyKept (c c' : Pool Shared Proc) (key : String) : Prop :=
  KeyOk c.shared.db (owedKey c) key → KeyOk c'.shared.db (owedKey c') key

/-- The process owes no reset. -/
def Proc.Free (p : Proc) : Prop := (∀ r, ¬ p.owesRule r) ∧ ∀ key, ¬ p.owesKey key

section
variable {c c' : Pool Shared Proc} {i : Nat} {p : Proc} {p' : Option Proc} {key : String}

theorem Moves.after_write (hm : Moves c c' i p p') (db : Db) :
    Moves ⟨c.shared.write db, c.procs⟩ c' i p p' :=
  ⟨hm.own, hm.procs, hm.locks⟩

theorem Moves.next {q : Proc} (hm : Moves c c' i p (some q)) : c'.procs.get? i = some q := by
  rw [hm.procs, if_pos rfl]

/-- What is owed stays owed if the process that moves keeps its part. -/
theorem Moves.owed {P : Proc → Prop} (hm : Moves c c' i p p')
    (hkeep : P p → ∃ q, p' = some q ∧ P q) (h : ∃ j q, c.procs.get? j = some q ∧ P q) :
    ∃ j q, c'.procs.get? j = some q ∧ P q := by
  obtain ⟨j, q, hj, howes⟩ := h
  by_cases hji : j = i
  · subst hji
    cases hm.own.symm.trans hj
    obtain ⟨q', rfl, howes'⟩ := hkeep howes
    exact ⟨j, q', hm.next, howes'⟩
  · exact ⟨j, q, by rw [hm.procs, if_neg hji, hj], howes⟩

/-- A metric stays as it should as far as the process itself does not owe its reset. -/
theorem Moves.keyKept (hm : Moves c c' i p p')
    (hblocked : c.shared.db.blocked key = false → c'.shared.db.blocked key = false)
    (hkeep : p.owesKey key → ∃ q, p' = some q ∧ q.owesKey key) : KeyKept c c' key :=
  Or.imp hblocked (hm.owed (P := Proc.owesKey key) hkeep)

theorem Moves.keyKept_of_free (hm : Moves c c' i p p') (hp : p.Free)
    (hblocked : ∀ key, c'.shared.db.blocked key = c.shared.db.blocked key) (key : String) :
    KeyKept c c' key :=
  hm.keyKept (by rw [hblocked]; exact id) fun h => absurd h (hp.2 key)

theorem Moves.ruleKept (hm : Moves c c' i p p') {r : Pk}
    (hrules : c'.shared.db.rules.get? r = c.shared.db.rules.get? r)
    (hkeep : p.owesRule r → ∃ q, p' = some q ∧ q.owesRule r)
    (h : RuleOk c.shared.db (owedRule c) r) : RuleOk c'.shared.db (owedRule c') r := by
  refine h.imp (fun h => ?_) (hm.owed (P := Proc.owesRule r) hkeep)
  rw [Db.lockedRule, hrules]
  exact h

/-- The invariant after a step of process `i`, from its parts. -/
theorem Good.advance (hg : Good c)
    (hprocs : ∀ j, c'.procs.get? j = if j = i then p' else c.procs.get? j)
    (hrefs : Refs c'.shared.db) (hrows : ∀ k st, c'.shared.db.states.get? k = some st →
      c'.shared.db.rules.get? k.rule ≠ none) (hown : ∀ q, p' = some q → Asserts i q c'.shared ∧
      ∀ key ∈ q.keys, KeyOk c'.shared.db (owedKey c') key)
    (hothers : ∀ j q, j ≠ i → c.procs.get? j = some q → Asserts j q c.shared →
      Asserts j q c'.shared) (hcov : Covers c'.shared.db (KeyCovered c'))
    (hengines : ∀ j q, j ≠ i → c.procs.get? j = some q → ∀ key ∈ q.keys, KeyKept c c' key) :
    Good c' where
  refs := hrefs
  rows := hrows
  asserts j q hj := by
    rw [hprocs] at hj
    split at hj
    · next hji =>
      subst hji
      exact (hown q hj).1
    · next hji => exact hothers j q hji hj (hg.asserts j q hj)
  covers := hcov
  engines j q hj key hkey := by
    rw [hprocs] at hj
    split at hj
    · next hji =>
      subst hji
      exact (hown q hj).2 key hkey
    · next hji => exact hengines j q hji hj key hkey (hg.engines j q hj key hkey)

/-- A step that writes neither rules nor states nor alerts; what it no longer owes has no
states. -/
theorem Good.quiet (hg : Good c) (hm : Moves c c' i p p')
    (hdb : SameRows c.shared.db c'.shared.db)
    (hrule : ∀ k st, c.shared.db.states.get? k = some st → p.owesRule k.rule →
      ∃ q, p' = some q ∧ q.owesRule k.rule)
    (hkey : ∀ k st, c.shared.db.states.get? k = some st → KeyKept c c' k.metricKey)
    (hengines : ∀ j q, j ≠ i → c.procs.get? j = some q → ∀ key ∈ q.keys, KeyKept c c' key)
    (hown : ∀ q, p' = some q → Asserts i q c'.shared ∧
      ∀ key ∈ q.keys, KeyOk c'.shared.db (owedKey c') key) : Good c' := by
  refine hg.advance hm.procs (hdb.refs hg.refs) ?_ hown ?_ ?_ hengines
  · rw [hdb.states, hdb.rules]
    exact hg.rows
  · intro j q hji _ h
    exact h.of_sameRows hdb fun r => hm.locks j r hji
  · intro a ho
    obtain ⟨k, st, hst, ha, hro, hko⟩ := hg.covers a (hdb.alertOpen.mp ho)
    exact ⟨k, st, by rw [hdb.states, hst], ha,
      hm.ruleKept (by rw [hdb.rules]) (hrule k st hst) hro, hkey k st hst hko⟩

/-- A step that reads, or takes a rule row. -/
theorem Good.read (hg : Good c) (hm : Moves c c' i p p') (hdb : c'.shared.db = c.shared.db)
    (hrule : ∀ r, p.owesRule r → c.shared.db.rules.get? r ≠ none → ∃ q, p' = some q ∧ q.owesRule r)
    (hkey : ∀ key, p.owesKey key → ∃ q, p' = some q ∧ q.owesKey key)
    (hown : ∀ q, p' = some q → Asserts i q c'.shared ∧
      ∀ key ∈ q.keys, KeyOk c.shared.db (owedKey c) key) : Good c' := by
  have hok : ∀ key, KeyKept c c' key := fun key => hm.keyKept (fun hb => hdb ▸ hb) (hkey key)
  refine hg.quiet hm (hdb ▸ .refl _) (fun k st hst how => hrule _ how (hg.rows k st hst))
    (fun k _ _ => hok _) (fun _ _ _ _ key _ => hok key) fun q hq => ⟨(hown q hq).1, fun key h => ?_⟩
  exact hok key ((hown q hq).2 key h)

/-- A step that reads and goes on, owing what it has owed. -/
theorem Good.goes {q : Proc} (hg : Good c) (hm : Moves c c' i p (some q))
    (hdb : c'.shared.db = c.shared.db) (hrule : ∀ r, p.owesRule r → q.owesRule r)
    (hkey : ∀ key, p.owesKey key → q.owesKey key) (hassert : Asserts i q c'.shared)
    (hkeys : q.keys = []) : Good c' := by
  refine hg.read hm hdb (fun r h _ => ⟨q, rfl, hrule r h⟩) (fun key h => ⟨q, rfl, hkey key h⟩) ?_
  rintro q' ⟨⟩
  exact ⟨hassert, by simp [hkeys]⟩

/-- A reset, taken by itself: states go with the alerts that refer to them, and nobody
else is evaluating them. -/
theorem Good.clear (hg : Good c) {now : Time} {psel : Pk → Alert → Bool} {qsel : StateKey → Bool}
    (hsafe : ∀ j q, c.procs.get? j = some q → q.evaluates = true → ∀ k,
      c.shared.ruleLocks.get? k.rule = some j →
      c.shared.db.matchesKey k.rule k.metricKey = true → qsel k = false ∧
      ∀ st a row, c.shared.db.states.get? k = some st → st.alert = some a →
        c.shared.db.alerts.get? a = some row → psel a row = false)
    (hclosed : ∀ k st a row, c.shared.db.states.get? k = some st → st.alert = some a →
      c.shared.db.alerts.get? a = some row → row.isResolved = false → psel a row = false →
      qsel k = false) : Good ⟨c.shared.write (c.shared.db.clear now psel qsel), c.procs⟩ where
  refs := refs_clear hg.refs
  rows k st hst := hg.rows k st (get?_clear_states.mp hst).1
  asserts j q hj := (hg.asserts j q hj).clear (hsafe j q hj)
  covers := covers_clear hg.covers fun k st a row hst ha hrow hres hp hk =>
    ⟨hclosed k st a row hst ha hrow hres hp, hk⟩
  engines := hg.engines

/-- The reset of a rule whose lock is held. -/
theorem Good.resetRule (hg : Good c) (now : Time) {pk : Pk} (hi : c.procs.get? i = some p)
    (hp : p.evaluates = false) (hlock : c.shared.ruleLocks.get? pk = some i) :
    Good ⟨c.shared.write (c.shared.db.resetRule now pk), c.procs⟩ := by
  have hruled : ∀ k st a row, c.shared.db.states.get? k = some st → st.alert = some a →
      c.shared.db.alerts.get? a = some row → row.rule = some k.rule := by
    intro k st a row hst ha hrow
    obtain ⟨row', hrow', hr⟩ := hg.refs.ruled k st a hst ha
    cases hrow.symm.trans hrow'
    exact hr
  refine hg.clear (fun j q hj hev k hk _ => ?_) fun k st a row hst ha hrow _ hp => ?_
  · have hne : k.rule ≠ pk := by
      intro heq
      rw [heq, hlock] at hk
      cases hk
      cases hi.symm.trans hj
      rw [hev] at hp
      cases hp
    refine ⟨decide_eq_false hne, fun st a row hst ha hrow => ?_⟩
    rw [hruled k st a row hst ha hrow]
    simpa using hne
  · rw [hruled k st a row hst ha hrow] at hp
    simpa using hp

/-- The states of a rule are gone after its reset. -/
theorem ne_of_resetRule {db : Db} {now : Time} {pk : Pk} {k : StateKey} {st : ThresholdState}
    (h : (db.resetRule now pk).states.get? k = some st) : k.rule ≠ pk :=
  of_decide_eq_false (get?_clear_states.mp h).2

end

/-! ### writes -/

section
variable {c c' : Pool Shared Proc} {i : Nat} {p : Proc} {p' : Option Proc} {now : Time}

variable {save : MetricSave} {pk : Pk} {key : String}

/-- A rule row becomes visible: it keeps the rule in evaluation, or the rule has no states
or is owed a reset. -/
theorem Good.putRule (hg : Good c) (hm : Moves c c' i p p') {row : AlertRule}
    (hdb : c'.shared.db = c.shared.db.putRule pk row)
    (hfree : ∀ j, j ≠ i → c.shared.ruleLocks.get? pk ≠ some j) (hp : p.Free)
    (hown : ∀ q, p' = some q → Asserts i q c'.shared ∧ q.keys = [])
    (hgood : ∀ k st, c.shared.db.states.get? k = some st → k.rule = pk →
      (c.shared.db.lockedRule pk).isSome = true →
      (row.alertType = .threshold ∧ row.isActive = true) ∨ ∃ q, p' = some q ∧ q.owesRule pk)
    (hstray : ∀ j q key, j ≠ i → c.procs.get? j = some q → q.collected = some key →
      row.alertType = .threshold → keyMatchesPattern key row.metricKey = true →
      c.shared.db.matchesKey pk key = true) : Good c' := by
  have hkey := hm.keyKept_of_free hp (by rw [hdb]; exact fun _ => rfl)
  refine hg.advance hm.procs ?_ ?_ (fun q hq => ?_) ?_ ?_ fun _ _ _ _ key _ => hkey key
  · rw [hdb]
    exact ⟨hg.refs.numbered, hg.refs.ruled, hg.refs.injective⟩
  · intro k st hst
    rw [hdb] at hst ⊢
    rw [get?_putRule]
    split
    · simp
    · exact hg.rows k st hst
  · obtain ⟨hassert, hkeys⟩ := hown q hq
    exact ⟨hassert, by simp [hkeys]⟩
  · intro j q hji hj h
    refine (h.putRule (hfree j hji) fun key => hstray j q key hji hj).of_sameRows ?_
      fun r => hm.locks j r hji
    rw [hdb]
    exact .refl _
  · intro a ho
    rw [hdb] at ho
    obtain ⟨k, st, hst, ha, hro, hko⟩ := hg.covers a ho
    refine ⟨k, st, by rw [hdb]; exact hst, ha, ?_, hkey _ hko⟩
    by_cases hk : k.rule = pk
    · rcases hro with hactive | howed
      · rcases hgood k st hst hk (hk ▸ hactive) with hrow | ⟨q, rfl, hq⟩
        · left
          rw [hdb, Db.lockedRule, get?_putRule, if_pos hk]
          simp [Option.filter, hrow.1, hrow.2]
        · exact .inr ⟨i, q, hm.next, hk ▸ hq⟩
      · exact .inr (hm.owed (fun h => absurd h (hp.1 _)) howed)
    · exact hm.ruleKept (by rw [hdb, get?_putRule, if_neg hk]) (fun h => absurd h (hp.1 _)) hro

/-- A rule without open alerts is deleted, by the process that has its lock or finds it
free. -/
theorem Good.eraseRule (hg : Good c) (hm : Moves c c' i p none)
    (hdb : c'.shared.db = c.shared.db.eraseRule now pk)
    (hfree : ∀ j, j ≠ i → c.shared.ruleLocks.get? pk ≠ some j) (hp : p.Free)
    (hclosed : ∀ k st a, c.shared.db.states.get? k = some st → st.alert = some a →
      AlertOpen c.shared.db a → k.rule ≠ pk) : Good c' := by
  have hkey := hm.keyKept_of_free hp (by rw [hdb]; exact fun _ => rfl)
  refine hg.advance hm.procs ?_ ?_ (by simp) ?_ ?_ fun _ _ _ _ key _ => hkey key
  · rw [hdb]
    exact refs_eraseRule hg.refs
  · intro k st hst
    rw [hdb] at hst ⊢
    obtain ⟨hst, hne⟩ := get?_eraseRule_states.mp hst
    rw [get?_eraseRule_rules, if_neg hne]
    exact hg.rows k st hst
  · intro j q hji hj h
    refine (h.eraseRule now (hfree j hji)).of_sameRows ?_ fun r => hm.locks j r hji
    rw [hdb]
    exact .refl _
  · intro a ho
    rw [hdb] at ho
    have ho := alertOpen_eraseRule.mp ho
    obtain ⟨k, st, hst, ha, hro, hko⟩ := hg.covers a ho
    have hne := hclosed k st a hst ha ho
    refine ⟨k, st, by rw [hdb]; exact get?_eraseRule_states.mpr ⟨hst, hne⟩, ha, ?_, hkey _ hko⟩
    exact hm.ruleKept (by rw [hdb, get?_eraseRule_rules, if_neg hne])
      (fun h => absurd h (hp.1 _)) hro

/-- The outcomes of a rule are written by the run that holds its lock. -/
theorem Good.applied (hg : Good c) (hm : Moves c c' i p p') {os : List Outcome}
    (happ : Applied c.shared.db c'.shared.db os) {rule : AlertRule}
    (hev : Evaluating c.shared i pk rule)
    (hos : ∀ o ∈ os, o.key.rule = pk ∧ keyMatchesPattern o.key.metricKey rule.metricKey = true)
    (hkeys : ∀ o ∈ os, o.key.metricKey ∈ p.keys) (hp : p.Free)
    (hown : ∀ q, p' = some q → Asserts i q c'.shared ∧ q.keys = []) : Good c' := by
  have hkey := hm.keyKept_of_free hp fun key => by rw [Db.blocked, happ.inputs.2]; rfl
  have hrule : ∀ {r}, RuleOk c.shared.db (owedRule c) r → RuleOk c'.shared.db (owedRule c') r :=
    hm.ruleKept (by rw [happ.inputs.1]) fun h => absurd h (hp.1 _)
  obtain ⟨hget, htype, -⟩ := lockedRule_eq_some.mp hev.row
  refine hg.advance hm.procs happ.refs ?_ (fun q hq => ?_) ?_ ?_ fun _ _ _ _ key _ => hkey key
  · intro k st hst
    rw [happ.inputs.1]
    by_cases hother : ∀ o ∈ os, k ≠ o.key
    · exact hg.rows k st ((happ.other k hother).1.symm.trans hst)
    · push Not at hother
      obtain ⟨o, ho, rfl⟩ := hother
      rw [(hos o ho).1, hget]
      simp
  · obtain ⟨hassert, hnone⟩ := hown q hq
    exact ⟨hassert, by simp [hnone]⟩
  · intro j q hji hj h
    refine (h.applied happ (fun o ho => ?_) fun o ho => ?_).of_sameRows (.refl _)
      fun r => hm.locks j r hji
    · rw [(hos o ho).1, hev.lock]
      exact fun h => hji (Option.some.inj h).symm
    · rw [(hos o ho).1, Db.matchesKey, hget]
      simp [htype, (hos o ho).2]
  · refine happ.covers _ (fun a ho => ?_) fun o ho => ?_
    · obtain ⟨k, st, hst, ha, hro, hko⟩ := hg.covers a ho
      exact ⟨k, st, hst, ha, hrule hro, hkey _ hko⟩
    · refine ⟨hrule (.inl ?_), hkey _ (hg.engines i p hm.own _ (hkeys o ho))⟩
      rw [(hos o ho).1, hev.row]
      rfl

/-- An engine run that works on a key holds the lock of a rule that matches it. -/
theorem Asserts.of_key {s : Shared} {j : Nat} {q : Proc} (h : Asserts j q s) (hkey : key ∈ q.keys) :
    ∃ r, s.ruleLocks.get? r = some j ∧ s.db.matchesKey r key = true := by
  cases q with
  | readStates l rest pk rule cs =>
    obtain ⟨c, hc, rfl⟩ := List.mem_map.mp hkey
    obtain ⟨hget, htype, -⟩ := lockedRule_eq_some.mp h.2.1.row
    exact ⟨pk, h.2.1.lock, by simp [Db.matchesKey, hget, htype, h.2.2.matching c hc]⟩
  | commitRule l rest pk rule os =>
    obtain ⟨o, ho, rfl⟩ := List.mem_map.mp hkey
    obtain ⟨hget, htype, -⟩ := lockedRule_eq_some.mp h.2.1.row
    exact ⟨pk, h.2.1.lock, by simp [Db.matchesKey, hget, htype, (h.2.2.matching o ho).2]⟩
  | _ => cases hkey

theorem blocked_apply {db : Db}
    (h : ∀ old, db.definitions.get? save.key = some old → key = save.key →
      (save.over old).isBlocked = true → db.blocked key = true) (hb : db.blocked key = false) :
    (save.apply db).blocked key = false := by
  unfold MetricSave.apply
  cases hold : db.definitions.get? save.key with
  | none => exact hb
  | some old =>
    simp only [Db.blocked, Db.putMetric, Table.get?_modify]
    split
    · next hk =>
      subst hk
      rw [hold]
      by_contra hover
      rw [h old hold rfl (by simpa using hover)] at hb
      cases hb
    · exact hb

theorem sameRows_apply (db : Db) (save : MetricSave) : SameRows db (save.apply db) := by
  unfold MetricSave.apply
  split <;> exact ⟨rfl, rfl, rfl, rfl⟩

/-- A metric row becomes visible that is not newly blocked, or that is owed a reset. -/
theorem Good.putMetric (hg : Good c) (hm : Moves c c' i p p')
    (hdb : c'.shared.db = save.apply c.shared.db) (hp : p.Free)
    (hblock : ∀ old, c.shared.db.definitions.get? save.key = some old →
      (save.over old).isBlocked = true → c.shared.db.blocked save.key = true ∨
        ∃ q, p' = some q ∧ q.owesKey save.key)
    (hown : ∀ q, p' = some q → Asserts i q c'.shared ∧ q.keys = []) : Good c' := by
  have hkey : ∀ key, KeyKept c c' key := by
    rintro key (hb | howed)
    · by_cases hq : ∃ q, p' = some q ∧ q.owesKey key
      · obtain ⟨q, rfl, hq⟩ := hq
        exact .inr ⟨i, q, hm.next, hq⟩
      · left
        rw [hdb]
        refine blocked_apply (fun old hold hk hover => ?_) hb
        subst hk
        exact (hblock old hold hover).resolve_right hq
    · exact .inr (hm.owed (fun h => absurd h (hp.2 key)) howed)
  exact hg.quiet hm (hdb ▸ sameRows_apply _ _) (fun k _ _ h => absurd h (hp.1 _))
    (fun k _ _ => hkey _) (fun _ _ _ _ key _ => hkey key)
    fun q hq => ⟨(hown q hq).1, by simp [(hown q hq).2]⟩

theorem not_blocks {old : MetricDefinition}
    (hw : p.metricWrite c.shared.db = some (save.key, save.over old))
    (h : p.blocks c.shared.db = false) (hover : (save.over old).isBlocked = true) :
    c.shared.db.blocked save.key = true := by
  simpa [Proc.blocks, hw, hover] using h

/-- The reset of a metric whose rules are locked and whose alerts were read. -/
theorem Good.resetMetric (hg : Good c) (now : Time) {ids : List Pk} (hi : c.procs.get? i = some p)
    (hp : p.evaluates = false) (hguards : Guards c.shared i key [])
    (hread : Collected c.shared.db key ids) :
    Good ⟨c.shared.write (c.shared.db.resetMetric now key ids), c.procs⟩ := by
  refine hg.clear (fun j q hj hev k hlock hmatch => ?_) fun k st a row hst ha hrow hres hsel => ?_
  · have hne : k.metricKey ≠ key := by
      rintro rfl
      have hheld := (hguards.1 k.rule hmatch).resolve_left List.not_mem_nil
      cases hlock.symm.trans hheld
      cases hi.symm.trans hj
      rw [hev] at hp
      cases hp
    refine ⟨decide_eq_false hne, fun st a row hst ha _ => ?_⟩
    by_contra hmem
    have hmem : a ∈ ids := by simpa using hmem
    exact hne ((hread.2 a hmem).2 k st hst ha)
  · refine decide_eq_false fun hk => ?_
    have hmem := hread.1 k st a hst hk ha ⟨row, hrow, hres⟩
    simp [hmem] at hsel

/-- The end of a reset: neither a state nor an engine run has the metric any more. -/
theorem Good.commit_block (hg : Good c) {ids : List Pk}
    (hm : Moves c c' i (.commitBlock save ids) none) (hdb : SameRows c.shared.db c'.shared.db)
    (hblocked : ∀ key, key ≠ save.key → c.shared.db.blocked key = false →
      c'.shared.db.blocked key = false)
    (hgone : ∀ k st, c.shared.db.states.get? k = some st → k.metricKey ≠ save.key)
    (hfree : ∀ j q, j ≠ i → c.procs.get? j = some q → ∀ key ∈ q.keys, key ≠ save.key) :
    Good c' := by
  have hkey : ∀ key, key ≠ save.key → KeyKept c c' key :=
    fun key hne => hm.keyKept (hblocked key hne) fun h => absurd h.2 hne
  exact hg.quiet hm hdb (by simp [Proc.owesRule])
    (fun k st hst => hkey _ (hgone k st hst))
    (fun j q hji hj key hk => hkey key (hfree j q hji hj key hk)) (by simp)

end

end StationManager.Monitoring.Resets
