import StationManager.Monitoring.ResetInvariant
import StationManager.Monitoring.Thresholds

/-!
# StationManager.Monitoring.Orphans

No open threshold alert is left behind: each statement of an engine run, of a save
or delete of a rule and of a save of a metric keeps the invariant of
`StationManager.Monitoring.ResetInvariant` unless it loses a reset.  Once nothing is
in progress nobody owes a reset, so every open alert belongs to an active rule
and an unblocked metric.

A run in which a save loses its reset ends the module.
-/

namespace StationManager.Monitoring.Resets

open Thresholds

/-! ## steps -/

section
variable {c c' : Pool Shared Proc} {i : Nat} {p : Proc} {p' : Option Proc} {now : Time}

/-- The locks of others outlast a statement. -/
theorem locks_of_act {s s' : Shared} {q : Option Proc} (h : act i s p now = some (s', q))
    (j : Nat) (r : Pk) (hji : j ≠ i) (hj : s.ruleLocks.get? r = some j) :
    s'.ruleLocks.get? r = some j := by
  have hrelease : ∀ db, ((s.write db).release i).ruleLocks.get? r = some j := fun _ =>
    RowLocks.release_holds hji hj
  have htake : ∀ {pk s₁}, s.takeRule i pk = some s₁ → s₁.ruleLocks.get? r = some j := fun h =>
    (taken_of_takeRule h).kept j r hj
  have hmetric : ∀ {key s₁}, s.takeMetric i key = some s₁ → s₁.ruleLocks = s.ruleLocks := fun h =>
    (takeMetric_eq h).2
  cases p with
  | lockRule l rest => cases rest <;> grind [act, Option.map_eq_some_iff]
  | lockRules save todo => cases todo <;> grind [act, Option.map_eq_some_iff]
  | _ => grind [act, Shared.write, Option.map_eq_some_iff]

/-- The steps of an engine run. -/
theorem Good.engine_step (hg : Good c) (hm : Moves c c' i p p')
    (h : act i c.shared p now = some (c'.shared, p')) (hp : p.isEngine = true) : Good c' := by
  obtain ⟨s', procs'⟩ := c'
  have hassert := hg.asserts i p hm.own
  cases p with
  | loadRules t | loadDefinitions t rules =>
    cases h
    exact hg.goes hm rfl (fun _ => False.elim) (fun _ => False.elim) trivial rfl
  | loadTelemetry t rules definitions =>
    cases h
    exact hg.goes hm rfl (fun _ => False.elim) (fun _ => False.elim)
      (thresholdCandidates_pairwise definitions) rfl
  | lockRule l rest =>
    cases rest with
    | nil =>
      cases h
      exact hg.read hm rfl (fun _ => False.elim) (fun _ => False.elim) (by simp)
    | cons e rest =>
      simp only [act] at h
      split at h
      · cases h
        exact hg.goes hm rfl (fun _ => False.elim) (fun _ => False.elim) hassert rfl
      · obtain ⟨s₁, htake, h⟩ := Option.map_eq_some_iff.mp h
        have ht := taken_of_takeRule htake
        cases hrow : c.shared.db.lockedRule e.1 with
        | none =>
          rw [hrow] at h
          cases h
          exact hg.goes hm rfl (fun _ => False.elim) (fun _ => False.elim) hassert rfl
        | some rule =>
          rw [hrow] at h
          cases h
          refine hg.goes hm ht.db (fun _ => False.elim) (fun _ => False.elim)
            ⟨hassert, ⟨ht.held, ?_⟩, fun c hc => keyMatches_of_mem hc, hassert _⟩ rfl
          rw [ht.db]
          exact hrow
  | checkBlocked l rest pk rule cs =>
    cases h
    refine hg.read hm rfl (fun _ => False.elim) (fun _ => False.elim) ?_
    rintro q ⟨⟩
    refine ⟨⟨hassert.1, hassert.2.1, fun c hc => ?_, hassert.2.2.distinct.filter _⟩,
      fun key hkey => .inl (blocked_of_mem_filter hkey)⟩
    exact hassert.2.2.matching c (List.mem_filter.mp hc).1
  | readStates l rest pk rule cs =>
    cases h
    refine hg.read hm rfl (fun _ => False.elim) (fun _ => False.elim) ?_
    rintro q ⟨⟩
    refine ⟨⟨hassert.1, hassert.2.1, outcomesOf_evaluate hassert.2.1 hassert.2.2⟩,
      fun key hkey => ?_⟩
    obtain ⟨o, ho, rfl⟩ := List.mem_map.mp hkey
    obtain ⟨c, hc, hco⟩ := List.mem_filterMap.mp ho
    rw [evaluateCandidate_key hco]
    exact hg.engines i _ hm.own _ (List.mem_map.mpr ⟨c, hc, rfl⟩)
  | commitRule l rest pk rule os =>
    cases h
    obtain ⟨hdist, hev, hos⟩ := hassert
    refine hg.applied hm (Applied.all hg.refs hos.fresh hos.distinct) hev hos.matching
      (fun o ho => List.mem_map.mpr ⟨o, ho, rfl⟩) ⟨fun _ => id, fun _ => id⟩ ?_
    rintro q ⟨⟩
    exact ⟨hdist, rfl⟩
  | _ => cases hp

/-- What a save may do to others: nothing that the step would lose. -/
theorem not_strays {w : Pk × AlertRule × Bool} (hw : p.ruleWrite c.shared.db = some w)
    (h : p.strays c i = false) {j : Nat} {q : Proc} {key : String} (hji : j ≠ i)
    (hj : c.procs.get? j = some q) (hq : q.collected = some key)
    (htype : w.2.1.alertType = .threshold)
    (hmatch : keyMatchesPattern key w.2.1.metricKey = true) :
    c.shared.db.matchesKey w.1 key = true := by
  by_contra hnot
  have hstray : p.strays c i = true := by
    rw [Proc.strays, hw, Option.any_some, List.any_eq_true]
    refine ⟨(j, q), (Table.mem_entries_iff ..).mpr hj, ?_⟩
    simpa [hji, hq, htype, hmatch] using hnot
  rw [h] at hstray
  cases hstray

theorem not_disables {pk : Pk} {row : AlertRule}
    (hw : p.ruleWrite c.shared.db = some (pk, row, false)) (h : p.disables c.shared.db = false)
    (hactive : (c.shared.db.lockedRule pk).isSome = true) :
    row.alertType = .threshold ∧ row.isActive = true := by
  simpa [Proc.disables, hw, hactive] using h

/-- The commit of a save: its row, if it has one, becomes visible. -/
theorem Good.commit_save (hg : Good c) {save : RuleSave} {reset : Bool}
    (hm : Moves c c' i (.commitSave save reset) none)
    (hdb : c'.shared.db = save.apply c.shared.db)
    (hfree : ∀ j, j ≠ i → c.shared.ruleLocks.get? save.pk ≠ some j)
    (hgood : ∀ row, save.row c.shared.db = some row → ∀ k st,
      c.shared.db.states.get? k = some st → k.rule = save.pk →
      (c.shared.db.lockedRule save.pk).isSome = true →
      row.alertType = .threshold ∧ row.isActive = true)
    (hstray : ∀ row, save.row c.shared.db = some row → ∀ j q key, j ≠ i →
      c.procs.get? j = some q → q.collected = some key → row.alertType = .threshold →
      keyMatchesPattern key row.metricKey = true →
      c.shared.db.matchesKey save.pk key = true) : Good c' := by
  cases hrow : save.row c.shared.db with
  | none =>
    rw [RuleSave.apply, hrow] at hdb
    exact hg.read hm hdb (fun _ => False.elim) (fun _ => False.elim) (by simp)
  | some row =>
    rw [RuleSave.apply, hrow] at hdb
    exact hg.putRule hm hdb hfree ⟨fun _ => id, fun _ => id⟩ (by simp)
      (fun k st hst hk hactive => .inl (hgood row hrow k st hst hk hactive)) (hstray row hrow)

/-- The steps of a save of a rule. -/
theorem Good.save_step (hg : Good c) (hm : Moves c c' i p p')
    (h : act i c.shared p now = some (c'.shared, p'))
    (hdis : p.disables c.shared.db = false) (hstray : p.strays c i = false)
    (hp : p.isSave = true) : Good c' := by
  obtain ⟨s', procs'⟩ := c'
  have hassert := hg.asserts i p hm.own
  cases p with
  | detectChange save =>
    cases h
    exact hg.goes hm rfl (fun _ => False.elim) (fun _ => False.elim) trivial rfl
  | updateRule save reset =>
    obtain ⟨s₁, htake, h⟩ := Option.map_eq_some_iff.mp h
    have ht := taken_of_takeRule htake
    cases hmode : save.mode with
    | atomic =>
      rw [hmode] at h
      cases h
      exact hg.goes hm ht.db (fun _ => False.elim) (fun _ => False.elim) ht.held rfl
    | autocommit =>
      rw [hmode] at h
      cases h
      have hown : ∀ q, (if save.resets reset c.shared.db then some (.lockReset save.pk)
          else none) = some q → Asserts i q (c.shared.write (save.apply c.shared.db)) ∧
          q.keys = [] := by
        intro q hq
        split at hq
        · cases hq
          exact ⟨trivial, rfl⟩
        · cases hq
      cases hrow : save.row c.shared.db with
      | none =>
        have hdb : save.apply c.shared.db = c.shared.db := by rw [RuleSave.apply, hrow]; rfl
        exact hg.read hm hdb (fun _ => False.elim) (fun _ => False.elim)
          fun q hq => ⟨(hown q hq).1, by simp [(hown q hq).2]⟩
      | some row =>
        have hdb : save.apply c.shared.db = c.shared.db.putRule save.pk row := by
          rw [RuleSave.apply, hrow]
          rfl
        have hw : (Proc.updateRule save reset).ruleWrite c.shared.db =
            some (save.pk, row, save.resets reset c.shared.db) := by
          simp [Proc.ruleWrite, hmode, hrow]
        refine hg.putRule hm hdb ht.free ⟨fun _ => id, fun _ => id⟩ hown ?_
          fun j q key hji hj hq => not_strays hw hstray hji hj hq
        intro k st _ _ hactive
        cases hreset : save.resets reset c.shared.db with
        | true => exact .inr ⟨.lockReset save.pk, by simp, rfl⟩
        | false =>
          rw [hreset] at hw
          exact .inl (not_disables hw hdis hactive)
  | commitSave save reset =>
    cases h
    have hfree : ∀ j, j ≠ i → c.shared.ruleLocks.get? save.pk ≠ some j := by
      intro j hji hj
      exact hji (Option.some.inj (hj.symm.trans hassert))
    have hw : ∀ {row}, save.row c.shared.db = some row →
        (Proc.commitSave save reset).ruleWrite c.shared.db =
          some (save.pk, row, save.resets reset c.shared.db) := fun hrow => by
      simp [Proc.ruleWrite, hrow]
    by_cases hreset : save.resets reset c.shared.db = true
    · refine (hg.resetRule now hm.own rfl hassert).commit_save (hm.after_write _)
        (by rw [if_pos hreset]; rfl) hfree (fun row _ k st hst hk _ => ?_)
        fun row hrow j q key hji hj hq => not_strays (hw hrow) hstray hji hj hq
      exact absurd hk (ne_of_resetRule hst)
    · refine hg.commit_save hm (by rw [if_neg hreset]; rfl) hfree
        (fun row hrow k st _ _ hactive => ?_)
        fun row hrow j q key hji hj hq => not_strays (hw hrow) hstray hji hj hq
      exact not_disables (Bool.eq_false_of_not_eq_true hreset ▸ hw hrow) hdis hactive
  | lockReset pk =>
    simp only [act] at h
    split at h
    · next hnone =>
      cases h
      refine hg.read hm rfl (fun r hr hrow => ?_) (fun _ => False.elim) (by simp)
      cases hr
      exact absurd (Option.isNone_iff_eq_none.mp hnone) hrow
    · obtain ⟨s₁, htake, h⟩ := Option.map_eq_some_iff.mp h
      cases h
      have ht := taken_of_takeRule htake
      exact hg.goes hm ht.db (fun _ => id) (fun _ => False.elim) ht.held rfl
  | commitReset pk =>
    cases h
    have hm := hm.after_write (c.shared.db.resetRule now pk)
    have hkey : ∀ key, KeyKept _ _ key := fun key =>
      hm.keyKept id (by simp [Proc.owesKey])
    exact (hg.resetRule now hm.own rfl hassert).quiet hm (.refl _)
      (fun k st hst hr => absurd hr (ne_of_resetRule hst)) (fun k _ _ => hkey _)
      (fun _ _ _ _ key _ => hkey key) (by simp)
  | _ => cases hp

/-- The steps of a delete. -/
theorem Good.delete_step (hg : Good c) (hm : Moves c c' i p p')
    (h : act i c.shared p now = some (c'.shared, p'))
    (habandon : p.abandons c.shared.db = false) (hp : p.isDelete = true) : Good c' := by
  obtain ⟨s', procs'⟩ := c'
  have hassert := hg.asserts i p hm.own
  cases p with
  | lockDelete pk t =>
    simp only [act] at h
    split at h
    · cases h
      exact hg.read hm rfl (fun _ => False.elim) (fun _ => False.elim) (by simp)
    · obtain ⟨s₁, htake, h⟩ := Option.map_eq_some_iff.mp h
      have ht := taken_of_takeRule htake
      split at h
      · cases h
        exact hg.goes hm ht.db (fun _ => False.elim) (fun _ => False.elim) ht.held rfl
      · next ht' =>
        cases h
        refine hg.eraseRule hm rfl ht.free ⟨fun _ => id, fun _ => id⟩ fun k st a hst ha ho hk => ?_
        -- the alert of the state would be abandoned
        obtain ⟨row, hrow, hrule⟩ := hg.refs.ruled k st a hst ha
        obtain ⟨row', hrow', hres⟩ := ho
        cases hrow.symm.trans hrow'
        have hex : (Proc.lockDelete pk t).abandons c.shared.db = true := by
          simp only [Proc.abandons, ne_eq, ht', not_false_eq_true, decide_true, Bool.true_and,
            List.any_eq_true]
          exact ⟨(a, row), (Table.mem_entries_iff ..).mpr hrow, by simp [hres, hrule, hk]⟩
        rw [habandon] at hex
        cases hex
  | commitDelete pk =>
    cases h
    refine (hg.resetRule now hm.own rfl hassert).eraseRule (hm.after_write _) rfl
      (fun j hji hj => ?_) ⟨fun _ => id, fun _ => id⟩ fun k st a hst _ _ => ne_of_resetRule hst
    exact hji (Option.some.inj (hj.symm.trans hassert))
  | _ => cases hp

/-- The steps of a save of a metric definition, and of its reset. -/
theorem Good.metric_step (hg : Good c) (hm : Moves c c' i p p')
    (h : act i c.shared p now = some (c'.shared, p'))
    (hblocks : p.blocks c.shared.db = false) (hp : p.isMetric = true) : Good c' := by
  obtain ⟨s', procs'⟩ := c'
  have hassert := hg.asserts i p hm.own
  cases p with
  | detectBlock save =>
    cases h
    exact hg.goes hm rfl (fun _ => False.elim) (fun _ => False.elim) trivial rfl
  | updateMetric save reset =>
    obtain ⟨s₁, htake, h⟩ := Option.map_eq_some_iff.mp h
    cases hmode : save.mode with
    | atomic =>
      rw [hmode] at h
      cases h
      have hdb := (takeMetric_eq htake).1
      cases reset <;> exact hg.goes hm hdb (fun _ => False.elim) (fun _ => False.elim) trivial rfl
    | autocommit =>
      rw [hmode] at h
      cases h
      refine hg.putMetric hm rfl ⟨fun _ => id, fun _ => id⟩ (fun old hold hover => ?_)
        fun q hq => ?_
      · cases reset with
        | true => exact .inr ⟨_, rfl, hmode, rfl⟩
        | false =>
          left
          refine not_blocks ?_ hblocks hover
          simp [Proc.metricWrite, hmode, hold]
      · cases reset with
        | true =>
          cases hq
          exact ⟨trivial, rfl⟩
        | false => cases hq
  | commitMetric save =>
    cases h
    refine hg.putMetric hm rfl ⟨fun _ => id, fun _ => id⟩ (fun old hold hover => .inl ?_) (by simp)
    refine not_blocks ?_ hblocks hover
    simp [Proc.metricWrite, hold]
  | collectRules save =>
    cases h
    exact hg.goes hm rfl (fun _ => False.elim) (fun _ => id) (guards_resetRuleIds save.key) rfl
  | lockRules save todo =>
    cases todo with
    | nil =>
      cases h
      exact hg.goes hm rfl (fun _ => False.elim) (fun _ => id) hassert rfl
    | cons pk todo =>
      simp only [act] at h
      split at h
      · next hnone =>
        cases h
        exact hg.goes hm rfl (fun _ => False.elim) (fun _ => id)
          (hassert.skip (Option.isNone_iff_eq_none.mp hnone) hg.rows) rfl
      · obtain ⟨s₁, htake, h⟩ := Option.map_eq_some_iff.mp h
        cases h
        have ht := taken_of_takeRule htake
        exact hg.goes hm ht.db (fun _ => False.elim) (fun _ => id) (hassert.take ht) rfl
  | readAlerts save =>
    cases h
    exact hg.goes hm rfl (fun _ => False.elim) (fun _ => id)
      ⟨hassert, collected_alertsOfMetric hg.refs save.key⟩ rfl
  | commitBlock save ids =>
    have hcleared := hg.resetMetric now hm.own rfl hassert.1 hassert.2
    have hm := hm.after_write (c.shared.db.resetMetric now save.key ids)
    have hgone : ∀ k st, (c.shared.db.resetMetric now save.key ids).states.get? k = some st →
        k.metricKey ≠ save.key := fun k st hst =>
      of_decide_eq_false (get?_clear_states.mp hst).2
    have hfree : ∀ j q, j ≠ i → c.procs.get? j = some q → ∀ key ∈ q.keys, key ≠ save.key := by
      rintro j q hji hj key hkey rfl
      obtain ⟨r, hlock, hmatch⟩ := (hg.asserts j q hj).of_key hkey
      have hheld := (hassert.1.1 r hmatch).resolve_left List.not_mem_nil
      exact hji (Option.some.inj (hlock.symm.trans hheld))
    simp only [act] at h
    cases hmode : save.mode with
    | atomic =>
      rw [hmode] at h
      cases h
      exact hcleared.commit_block hm (sameRows_apply _ _)
        (fun key hne => blocked_apply fun _ _ hk => absurd hk hne) hgone hfree
    | autocommit =>
      rw [hmode] at h
      cases h
      exact hcleared.commit_block hm (.refl _) (fun _ _ h => h) hgone hfree
  | _ => cases hp

theorem blocked_describe {db : Db} {key : String} {row : MetricDefinition} (k : String) :
    (db.describe key row).blocked k = db.blocked k := by
  simp only [Db.blocked, Db.describe, Table.get?_modify, Table.get?_insert]
  split
  · next hk =>
    subst hk
    cases db.definitions.get? k <;> rfl
  · rfl

/-- Heartbeats. -/
theorem Good.input_step (hg : Good c) (hm : Moves c c' i p p')
    (h : act i c.shared p now = some (c'.shared, p')) (hp : p.isInput = true) : Good c' := by
  have hinput : p.Free → SameRows c.shared.db c'.shared.db → p' = none →
      (∀ key, c'.shared.db.blocked key = c.shared.db.blocked key) → Good c' := by
    intro hfree hrows hend hblocked
    have hkey := hm.keyKept_of_free hfree hblocked
    exact hg.quiet hm hrows (fun k _ _ h => absurd h (hfree.1 _)) (fun k _ _ => hkey _)
      (fun _ _ _ _ key _ => hkey key) (by simp [hend])
  obtain ⟨s', procs'⟩ := c'
  cases p with
  | ingest stations telemetry =>
    cases h
    exact hinput ⟨fun _ => id, fun _ => id⟩ ⟨rfl, rfl, rfl, rfl⟩ rfl fun _ => rfl
  | describe key row =>
    cases h
    exact hinput ⟨fun _ => id, fun _ => id⟩ ⟨rfl, rfl, rfl, rfl⟩ rfl blocked_describe
  | _ => cases hp

theorem Good.spawn (hg : Good c) {r : Request} {q : Proc} (hstart : start c.shared r = some q)
    (hfree : c.procs.get? i = none) (hshared : c'.shared = c.shared)
    (hprocs : ∀ j, c'.procs.get? j = if j = i then some q else c.procs.get? j) : Good c' := by
  have hnew : Asserts i q c.shared ∧ q.keys = [] := by
    cases r <;> cases hstart <;> exact ⟨trivial, rfl⟩
  have hold : ∀ j p, c.procs.get? j = some p → c'.procs.get? j = some p := by
    intro j p hj
    rw [hprocs, if_neg]
    · exact hj
    · rintro rfl
      rw [hfree] at hj
      cases hj
  have hkey : ∀ key, KeyKept c c' key := fun key =>
    Or.imp (fun h => hshared ▸ h) fun ⟨j, p, hj, h⟩ => ⟨j, p, hold j p hj, h⟩
  refine hg.advance hprocs (hshared ▸ hg.refs) (hshared ▸ hg.rows) ?_ ?_ ?_
    fun _ _ _ _ key _ => hkey key
  · rintro q ⟨⟩
    rw [hshared, hnew.2]
    exact ⟨hnew.1, by simp⟩
  · intro j p _ _ h
    exact hshared ▸ h
  · intro a ho
    rw [hshared] at ho
    obtain ⟨k, st, hst, ha, hro, hko⟩ := hg.covers a ho
    refine ⟨k, st, hshared ▸ hst, ha, ?_, hkey _ hko⟩
    exact hro.imp (fun h => hshared ▸ h) fun ⟨j, p, hj, h⟩ => ⟨j, p, hold j p hj, h⟩

/-- **A step keeps the invariant**, unless it loses a reset. -/
theorem Good.step {l : Sched Request Time} (hg : Good c) (hok : loses c l = false)
    (h : dbStep c l = some c') : Good c' := by
  cases Pool.stepped_of_step h with
  | spawn i r q hstart hfree hshared hprocs => exact hg.spawn hstart hfree hshared hprocs
  | advance i now p p' hi hact hprocs =>
    simp only [loses, hi, Option.any_some, Bool.or_eq_false_iff] at hok
    obtain ⟨⟨⟨hdis, hblocks⟩, habandon⟩, hstray⟩ := hok
    have hkind : p.isEngine = true ∨ p.isSave = true ∨ p.isDelete = true ∨ p.isMetric = true ∨
        p.isInput = true := by
      cases p <;> simp [Proc.isEngine, Proc.isSave, Proc.isDelete, Proc.isMetric, Proc.isInput]
    have hm : Moves c c' i p p' := ⟨hi, hprocs, locks_of_act hact⟩
    rcases hkind with hp | hp | hp | hp | hp
    · exact hg.engine_step hm hact hp
    · exact hg.save_step hm hact hdis hstray hp
    · exact hg.delete_step hm hact habandon hp
    · exact hg.metric_step hm hact hblocks hp
    · exact hg.input_step hm hact hp

end

/-! ## runs -/

/-- A start: nothing is in progress, and no rule has been evaluated yet. -/
structure Idle (c : Pool Shared Proc) : Prop where
  quiet : c.Quiescent
  states : ∀ k, c.shared.db.states.get? k = none
  alerts : ∀ a, c.shared.db.alerts.get? a = none

/-- Every open alert is the one of a state of an existing, active threshold rule, for a
metric that is not blocked. -/
def NoOrphan (db : Db) : Prop :=
  ∀ a row, db.alerts.get? a = some row → row.isResolved = false →
    ∃ k st rule, db.states.get? k = some st ∧ st.alert = some a ∧
      db.rules.get? k.rule = some rule ∧ rule.alertType = .threshold ∧ rule.isActive = true ∧
      db.blocked k.metricKey = false

theorem good_idle {c : Pool Shared Proc} (h : Idle c) : Good c where
  refs := by
    refine ⟨fun a row ha => ?_, fun k st a hst => ?_, fun k _ st _ _ hst => ?_⟩
    · rw [h.alerts a] at ha
      cases ha
    · rw [h.states k] at hst
      cases hst
    · rw [h.states k] at hst
      cases hst
  rows k st hst := by
    rw [h.states k] at hst
    cases hst
  asserts j q hj := by
    rw [h.quiet.get? j] at hj
    cases hj
  covers a ho := by
    obtain ⟨row, hrow, -⟩ := ho
    rw [h.alerts a] at hrow
    cases hrow
  engines j q hj := by
    rw [h.quiet.get? j] at hj
    cases hj

/-- **No orphan threshold alert.**  In every run without a step that loses a reset, once
nothing is in progress every open alert is the one of a state of an existing,
active threshold rule, for a metric that is not blocked. -/
theorem no_orphan_alert (c₀ c : Pool Shared Proc) (h₀ : Idle c₀)
    (h : Reachable dbStep (fun c l => loses c l = false) c₀ c) (hquiet : c.Quiescent) :
    NoOrphan c.shared.db := by
  have hg : Good c := h.invariant (P := Good) (good_idle h₀) fun _ _ _ hg hok hs => hg.step hok hs
  intro a row hrow hres
  obtain ⟨k, st, hst, ha, hro, hko⟩ := hg.covers a ⟨row, hrow, hres⟩
  have hrule : (c.shared.db.lockedRule k.rule).isSome = true := by
    refine hro.resolve_right ?_
    rintro ⟨j, q, hj, -⟩
    rw [hquiet.get? j] at hj
    cases hj
  obtain ⟨rule, hlock⟩ := Option.isSome_iff_exists.mp hrule
  obtain ⟨hget, htype, hactive⟩ := lockedRule_eq_some.mp hlock
  refine ⟨k, st, rule, hst, ha, hget, htype, hactive, hko.resolve_right ?_⟩
  rintro ⟨j, q, hj, -⟩
  rw [hquiet.get? j] at hj
  cases hj

/-! ## examples -/

/-- The rule fires at once. -/
def promptRule : AlertRule := { hotRule with durationSeconds := 0 }

/-- A station whose sample breaches the rule. -/
def idleStation (rule : AlertRule) : Pool Shared Proc where
  shared := ⟨{ hotStation.db with rules := ⟨[(1, rule)], by simp⟩ }, .empty, .empty⟩
  procs := .empty

theorem idleStation_idle (rule : AlertRule) : Idle (idleStation rule) :=
  ⟨rfl, fun _ => rfl, fun _ => rfl⟩

/-- A run of the engine over one rule, as process `i`. -/
def engineRun (i : Nat) (now : Time) : List (Sched Request Time) :=
  .spawn i (.engine now) :: List.replicate 8 (.advance i now)

/-- The rule fires. -/
theorem no_orphan_alert_fired : ∃ c : Pool Shared Proc,
    Reachable dbStep (fun c l => loses c l = false) (idleStation promptRule) c ∧ c.Quiescent ∧
      AlertOpen c.shared.db 1 ∧ NoOrphan c.shared.db := by
  obtain ⟨c, hreach, hprocs, halert⟩ := exists_avoiding dbStep loses (idleStation promptRule)
    (engineRun 1 (600 * second)) (P := fun c => c.procs.entries.length = 0 ∧
      (c.shared.db.alerts.get? 1).map Alert.isResolved = some false) (by decide +kernel)
  have hquiet : c.Quiescent := List.length_eq_zero_iff.mp hprocs
  refine ⟨c, hreach, hquiet, ?_, no_orphan_alert _ c (idleStation_idle _) hreach hquiet⟩
  obtain ⟨row, hrow, hres⟩ := Option.map_eq_some_iff.mp halert
  exact ⟨row, hrow, hres⟩

/-- A save of the rule as it was loaded, with another name. -/
def staleSave : RuleSave where
  mode := .atomic
  pk := 1
  inst := { promptRule with isActive := false, name := "hot" }

def activation : RuleSave where
  mode := .atomic
  pk := 1
  inst := promptRule

/-- A save compares its instance with an inactive row; before its UPDATE another save
activates the rule, and it fires. -/
def staleRun : List (Sched Request Time) :=
  [.spawn 1 (.saveRule staleSave), .advance 1 0,
    .spawn 2 (.saveRule activation), .advance 2 0, .advance 2 0, .advance 2 0] ++
  engineRun 3 (600 * second) ++ [.advance 1 0, .advance 1 0]

/-- The rule is inactive again, and its alert is still open: no step of the engine will
look at it. -/
theorem orphan_of_stale_save : ∃ c : Pool Shared Proc,
    Reachable dbStep (fun _ _ => True) (idleStation { promptRule with isActive := false }) c ∧
      c.Quiescent ∧ AlertOpen c.shared.db 1 ∧ c.shared.db.lockedRule 1 = none ∧
      ¬ NoOrphan c.shared.db := by
  obtain ⟨c, hreach, hprocs, halert, hrules, hlock⟩ := exists_reachable dbStep
    (idleStation { promptRule with isActive := false }) staleRun
    (P := fun c => c.procs.entries.length = 0 ∧
      (c.shared.db.alerts.get? 1).map Alert.isResolved = some false ∧
      c.shared.db.rules.entries.all (fun e => !e.2.isActive) = true ∧
      c.shared.db.lockedRule 1 = none) (by decide +kernel)
  obtain ⟨row, hrow, hres⟩ := Option.map_eq_some_iff.mp halert
  refine ⟨c, hreach, List.length_eq_zero_iff.mp hprocs, ⟨row, hrow, hres⟩, hlock, ?_⟩
  intro hno
  obtain ⟨k, st, rule, -, -, hrule, -, hactive, -⟩ := hno 1 row hrow hres
  have hin := List.all_eq_true.mp hrules _ ((Table.mem_entries_iff _ _ _).mpr hrule)
  rw [hactive] at hin
  cases hin

end StationManager.Monitoring.Resets
