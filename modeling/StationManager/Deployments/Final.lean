import StationManager.Deployments.Isolation

/-!
# StationManager.Deployments.Final

Finished results stay finished.  Status updates, cancellations and
supersessions look at a result under its row lock before they write it;
a commit looks without a lock and saves later, over whatever the result has
become (`finished_result_overwritten`).  In every run in which no request
finishes a result between the read and the save of a commit of it, a finished
result never changes again, and only an unfinished result moves the image
pointer of its station.
-/

namespace StationManager.Deployments

/-! ## which statements finish a result -/

/-- The results that the next statement of a process finishes. -/
def Proc.finishes (db : Db) : Proc → List ResultKey
  | .statusSave k status _ => if status.status.isFailure then [k] else []
  | .commitSave k version expected _ => if version ≠ expected then [k] else []
  | .commitStation k _ _ _ => [k]
  | .cancelApply d =>
    if (db.statusOf d).any fun status => status ∈ openStatuses then db.openResults d else []
  | .create tx [] =>
    if tx.todo = [] ∧ tx.finals.any StationPlan.ok then tx.superseded.map Prod.fst else []
  | _ => []

/-- A commit has read the result and has not saved it yet. -/
def Proc.hasRead (k : ResultKey) : Proc → Bool
  | .commitSave k' _ _ _ => k' = k
  | _ => false

/-- The step finishes a result that a commit of another process has read and
not saved yet. -/
def finishesUnderCommit (c : Pool Server Proc) : Sched Request Event → Bool
  | .advance i (.exec _) => match c.procs.get? i with
      | some p => c.procs.entries.any fun e =>
        e.1 ≠ i ∧ (p.finishes c.shared.db).any fun k => e.2.hasRead k
      | none => false
  | _ => false

/-- The result that a process commits. -/
def Proc.commits : Proc → Option ResultKey
  | .commitSave k _ _ _ | .commitStation k _ _ _ => some k
  | _ => none

/-! ## rows after a statement -/

section Rows

variable {s s' : Server} {i j : Nat} {now : Time} {p p' : Proc} {k : ResultKey}
  {r : DeploymentResult}

theorem get?_setResult (db : Db) (k k' : ResultKey) (f : DeploymentResult → DeploymentResult) :
    (db.setResult k f).results.get? k' =
      if k' = k then (db.results.get? k').map f else db.results.get? k' :=
  Table.get?_modify ..

/-- A report that is not a failure leaves its result unfinished. -/
theorem report_isNonTerminal {status : Report} (h : status.status.isFailure = false) :
    status.status.isNonTerminal = true := by
  cases status <;> first | rfl | cases h

/-- Saving one result leaves the others alone. -/
theorem get?_setResult_or (db : Db) (k k' : ResultKey) (f : DeploymentResult → DeploymentResult)
    (hr : db.results.get? k = some r) : (db.setResult k' f).results.get? k = some r ∨ k = k' := by
  by_cases hk : k = k'
  · exact .inr hk
  · exact .inl (by rw [get?_setResult, if_neg hk, hr])

/-- What a statement does to a result: nothing, or the result was unfinished
and is finished by it or stays unfinished, or a commit finishes it. -/
theorem executed_row (hp : Asserts i p s) (h : Executed s i now p s' p')
    (hr : s.db.results.get? k = some r) : s'.db.results.get? k = some r ∨
      (r.status.isNonTerminal = true ∧ (k ∈ p.finishes s.db ∨ s'.Open k)) ∨
      (p.commits = some k ∧ k ∈ p.finishes s.db) := by
  cases h with
  | statusLocked hlock | commitLocked hlock | cancelLocked hlock | stationsLocked hlock
  | inserted hlock | closed hlock => exact .inl (by rw [(Server.lock_db hlock).1, hr])
  | stationServed _ _ _ _ hlock => exact .inl (by rw [(Server.lock_db hlock).1, hr])
  | cancelledLate _ hlock => exact .inl (by rw [Server.unlock, (Server.lock_db hlock).1, hr])
  | @reportFinal k' status message hf =>
    rcases get?_setResult_or s.db k k' _ hr with hsame | rfl
    · exact .inl hsame
    · obtain ⟨r', hr', hopen⟩ := hp.reports k _ _ rfl
      rw [hr] at hr'
      cases hr'
      exact .inr (.inl ⟨hopen, .inl (by simp [Proc.finishes, hf])⟩)
  | @reportProgress k' status message hf =>
    rcases get?_setResult_or s.db k k' _ hr with hsame | rfl
    · exact .inl hsame
    · obtain ⟨r', hr', hopen⟩ := hp.reports k _ _ rfl
      rw [hr] at hr'
      cases hr'
      refine .inr (.inl ⟨hopen, .inr ⟨r.report now status.status message, ?_, ?_⟩⟩)
      · rw [Server.unlock, Server.setDb, get?_setResult, if_pos rfl, hr]
        rfl
      · rw [DeploymentResult.report_status]
        exact report_isNonTerminal hf
  | @commitMismatch k' _ _ _ _ hne =>
    rcases get?_setResult_or s.db k k' _ hr with hsame | rfl
    · exact .inl hsame
    · exact .inr (.inr ⟨rfl, by simp [Proc.finishes, hne]⟩)
  | @committed k' =>
    rcases get?_setResult_or s.db k k' _ hr with hsame | rfl
    · exact .inl hsame
    · exact .inr (.inr ⟨rfl, List.mem_cons_self⟩)
  | completeFlipped =>
    refine .inl ?_
    unfold Db.flipInProgress
    split <;> exact hr
  | @cancelled d _ hopen hlock =>
    by_cases hk : k.deployment = d ∧ r.status.isNonTerminal = true
    · refine .inr (.inl ⟨hk.2, .inl ?_⟩)
      rw [Proc.finishes, if_pos hopen]
      exact (Db.mem_openResults ..).mpr ⟨hk.1, r, hr, hk.2⟩
    · refine .inl ?_
      simp only [Server.unlock, Server.setDb, Db.cancelDeployment, Db.setStatus_results,
        Table.get?_map, hr, Option.map_some, if_neg hk]
  | @created tx _ htodo hok =>
    have hv := (hp.tx tx [] rfl).1
    by_cases hsup : ∃ e ∈ tx.superseded, e.1 = k
    · obtain ⟨e, he, rfl⟩ := hsup
      obtain ⟨_, r', hr', hpending⟩ := hv.pending e he
      rw [hr] at hr'
      cases hr'
      refine .inr (.inl ⟨by rw [hpending]; rfl, .inl ?_⟩)
      rw [Proc.finishes, if_pos ⟨htodo, hok⟩]
      exact List.mem_map.mpr ⟨e, he, rfl⟩
    · refine .inl ?_
      rw [Server.unlock, Server.setDb, Tx.get?_view_results, hr, Option.map_some,
        Tx.seenResult_of_notMem fun e he heq => hsup ⟨e, he, heq⟩]
      rfl
  | _ => exact .inl hr

end Rows

/-! ## commits under the condition -/

/-- A commit still has an unfinished result. -/
def CommitOpen (p : Proc) (s : Server) : Prop := ∀ k, p.commits = some k → s.Open k

/-- What holds of a process in runs that meet the condition. -/
def Commits (i : Nat) (p : Proc) (s : Server) : Prop := Asserts i p s ∧ CommitOpen p s

section Runs

variable {s s' : Server} {i j : Nat} {now : Time} {p p' q : Proc} {k : ResultKey}
  {r : DeploymentResult}

/-- Where commits have an unfinished result, only unfinished results
change. -/
theorem commits_row (hp : Commits i p s) (h : Executed s i now p s' p')
    (hr : s.db.results.get? k = some r) : s'.db.results.get? k = some r ∨
      (r.status.isNonTerminal = true ∧ (k ∈ p.finishes s.db ∨ s'.Open k)) := by
  rcases executed_row hp.1 h hr with hsame | hopen | ⟨hcommit, hfin⟩
  · exact .inl hsame
  · exact .inr hopen
  · obtain ⟨r', hr', hopen⟩ := hp.2 k hcommit
    rw [hr] at hr'
    cases hr'
    exact .inr ⟨hopen, .inl hfin⟩

variable {pk : Pk} {c c' : Pool Server Proc} {l : Sched Request Event}

theorem mem_committableResult {db : Db} {station : Pk} {image : ImageRelease}
    (h : committableResult db station = some (k, pk, image)) :
    k.station = station ∧ ∃ r, db.results.get? k = some r ∧ r.status.committable = true := by
  obtain ⟨e, he, heq⟩ := Option.map_eq_some_iff.mp h
  obtain ⟨f, hf, hsome⟩ := List.mem_filterMap.mp (mem_of_newest he)
  split at hsome
  · split at hsome
    · next hif =>
      cases hsome
      cases heq
      exact ⟨hif.1, f.2, (Table.mem_entries_iff ..).mp hf, hif.2⟩
    · cases hsome
  · cases hsome

/-- A commit finds an unfinished result and keeps it while it holds the row. -/
theorem commitOpen_own (hp : Commits i p s) (h : Executed s i now p s' p') : CommitOpen p' s' := by
  intro k hk
  cases h with
  | commitFound hfound =>
    cases hk
    obtain ⟨_, r, hr, hcommittable⟩ := mem_committableResult hfound
    refine ⟨r, hr, ?_⟩
    rw [ResultStatus.isNonTerminal_eq_not, ResultStatus.committable_isTerminal hcommittable]
    rfl
  | commitLocked hlock =>
    cases hk
    obtain ⟨r, hr, hopen⟩ := hp.2 k rfl
    exact ⟨r, by rw [(Server.lock_db hlock).1, hr], hopen⟩
  | _ => cases hk

/-- Others do not finish a result that a commit has read, under the
condition. -/
theorem commitOpen_other (hp : Commits i p s) (hq : Commits j q s) (hne : j ≠ i)
    (h : Executed s i now p s' p')
    (hok : ∀ k ∈ p.finishes s.db, q.hasRead k = false) : CommitOpen q s' := by
  intro k hk
  obtain ⟨r, hr, hopen⟩ := hq.2 k hk
  cases q with
  | commitSave k' version expected image =>
    cases hk
    rcases commits_row hp h hr with hsame | ⟨_, hfin | hopen'⟩
    · exact ⟨r, hsame, hopen⟩
    · exact absurd (hok _ hfin) (by simp [Proc.hasRead])
    · exact hopen'
  | commitStation k' version image savedAt =>
    cases hk
    exact ⟨r, (executed_leaves hp.1 h hne).results _ r (hq.1.saving _ rfl) hr, hopen⟩
  | _ => cases hk

/-- The station's image pointer moves with a commit only, which makes its
result a success. -/
theorem executed_pointer (h : Executed s i now p s' p')
    (hmoved : (s'.db.stations.get? pk).bind Station.currentImageRelease ≠
      (s.db.stations.get? pk).bind Station.currentImageRelease) :
    ∃ k version savedAt, p.commits = some k ∧ k.station = pk ∧
      s'.db.results.get? k = (s.db.results.get? k).map fun r => r.commit savedAt version := by
  cases h with
  | @committed k version image savedAt =>
    refine ⟨k, version, savedAt, rfl, ?_, (get?_setResult ..).trans (if_pos rfl)⟩
    by_contra hne
    exact hmoved (by rw [Server.unlock, Server.setDb, Db.setStation,
      Table.get?_modify_ne _ _ fun h => hne h.symm]; rfl)
  | regrouped =>
    refine absurd ?_ hmoved
    rw [Server.setDb, Db.setStation, Table.get?_modify]
    split
    · cases s.db.stations.get? pk <;> rfl
    · rfl
  | completeFlipped =>
    refine absurd ?_ hmoved
    unfold Db.flipInProgress
    split <;> rfl
  | statusLocked hlock | commitLocked hlock | cancelLocked hlock | stationsLocked hlock
  | inserted hlock | closed hlock => exact absurd (by rw [(Server.lock_db hlock).1]) hmoved
  | stationServed _ _ _ _ hlock => exact absurd (by rw [(Server.lock_db hlock).1]) hmoved
  | cancelledLate _ hlock => exact absurd (by rw [Server.unlock, (Server.lock_db hlock).1]) hmoved
  | _ => exact absurd rfl hmoved

/-- The condition on schedules. -/
abbrev Careful (c : Pool Server Proc) (l : Sched Request Event) : Prop :=
  finishesUnderCommit c l = false

theorem hasRead_of_careful (hok : Careful c (.advance i (.exec now))) (hi : c.procs.get? i = some p)
    (hj : c.procs.get? j = some q) (hne : j ≠ i) :
    ∀ k ∈ p.finishes c.shared.db, q.hasRead k = false := by
  intro k hk
  refine Bool.eq_false_iff.mpr fun hread => ?_
  have hany : finishesUnderCommit c (.advance i (.exec now)) = true := by
    simp only [finishesUnderCommit, hi]
    refine List.any_eq_true.mpr ⟨(j, q), (Table.mem_entries_iff ..).mpr hj, ?_⟩
    exact decide_eq_true ⟨hne, List.any_eq_true.mpr ⟨k, hk, hread⟩⟩
  rw [hok] at hany
  cases hany

/-- Under the condition, commits keep an unfinished result until they finish
it. -/
theorem step_commits (hc : c.Holds Server.Numbered Commits) (hok : Careful c l)
    (h : serverStep c l = some c') : c'.Holds Server.Numbered Commits := by
  refine Pool.invariant_step Careful ?_ ?_ ?_ hc hok h
  · intro c i r p _ _ hstart
    cases r <;> cases hstart <;> exact ⟨.of_none rfl rfl (sets_of_none rfl), nofun⟩
  · intro c i p e s' q hc _ hi hact
    have hp := hc.2 i p hi
    obtain ⟨hn, hown⟩ := acted_own hp.1 hc.1 (acted_of_act hact)
    refine ⟨hn, fun p' hp' => ⟨hown p' hp', ?_⟩⟩
    cases acted_of_act hact with
    | exec now hexec =>
      cases hp'
      exact commitOpen_own hp hexec
    | done => cases hp'
    | abort =>
      cases hp'
      exact fun _ hk => nomatch hk
  · intro c i p e s' q j p' hc hok hi hact hne hj
    have hp := hc.2 i p hi
    have hq := hc.2 j p' hj
    refine ⟨hq.1.mono (acted_leaves hp.1 (acted_of_act hact) hne), ?_⟩
    cases acted_of_act hact with
    | exec now hexec => exact commitOpen_other hp hq hne hexec (hasRead_of_careful hok hi hj hne)
    | done => exact hq.2
    | abort => exact hq.2

/-- What a step of the server does to the database, a statement does. -/
theorem stepped_executed (h : serverStep c l = some c') : c'.shared.db = c.shared.db ∨
      ∃ i now p p', c.procs.get? i = some p ∧ Executed c.shared i now p c'.shared p' := by
  cases Pool.stepped_of_step h with
  | spawn i r p _ _ hshared _ => exact .inl (by rw [hshared])
  | advance i e p q hi hact _ =>
    have hacted := acted_of_act hact
    generalize c'.shared = s' at hacted
    cases hacted with
    | exec now hexec => exact .inr ⟨i, now, p, _, hi, hexec⟩
    | done => exact .inl rfl
    | abort => exact .inl rfl

/-- **A step does not change a finished result**, where commits have an
unfinished one. -/
theorem step_row (hc : c.Holds Server.Numbered Commits) (h : serverStep c l = some c')
    (hr : c.shared.db.results.get? k = some r) (hterm : r.status.isTerminal = true) :
    c'.shared.db.results.get? k = some r := by
  rcases stepped_executed h with hdb | ⟨i, now, p, p', hi, hexec⟩
  · rw [hdb, hr]
  · rcases commits_row (hc.2 i p hi) hexec hr with hsame | ⟨hopen, _⟩
    · exact hsame
    · rw [ResultStatus.isNonTerminal_eq_not, hterm] at hopen
      cases hopen

/-- A step that moves the image pointer of a station commits an unfinished
result of it. -/
theorem step_pointer (hc : c.Holds Server.Numbered Commits) (h : serverStep c l = some c')
    (hmoved : (c'.shared.db.stations.get? pk).bind Station.currentImageRelease ≠
      (c.shared.db.stations.get? pk).bind Station.currentImageRelease) :
    ∃ k r r', k.station = pk ∧ c.shared.db.results.get? k = some r ∧
      r.status.isTerminal = false ∧ c'.shared.db.results.get? k = some r' ∧
      r'.status = .success := by
  rcases stepped_executed h with hdb | ⟨i, now, p, p', hi, hexec⟩
  · exact absurd (by rw [hdb]) hmoved
  · obtain ⟨k, version, savedAt, hcommit, hstation, hrow⟩ := executed_pointer hexec hmoved
    obtain ⟨r, hr, hopen⟩ := (hc.2 i p hi).2 k hcommit
    refine ⟨k, r, r.commit savedAt version, hstation, hr, ?_, ?_, rfl⟩
    · rwa [ResultStatus.isNonTerminal_eq_not, Bool.not_eq_true'] at hopen
    · rw [hrow, hr]
      rfl

end Runs

/-! ## runs -/

theorem commits_of_reachable {c₀ c : Pool Server Proc} (h₀ : Idle c₀)
    (h : Reachable serverStep Careful c₀ c) : c.Holds Server.Numbered Commits := by
  refine h.invariant (P := Pool.Holds Server.Numbered Commits) ⟨h₀.numbered, ?_⟩ ?_
  · intro i p hp
    rw [h₀.procs] at hp
    cases hp
  · intro c l c' hc hok hstep
    exact step_commits hc hok hstep

/-- **Finished results are final.**  In every run in which no request finishes
a result between the read and the save of a commit of it, a finished result
never changes again, and the image pointer of a station is only ever moved
together with an unfinished result of it, which is finished as a success. -/
theorem terminal_results_final (c₀ c : Pool Server Proc) (h₀ : Idle c₀)
    (h : Reachable serverStep (fun c l => finishesUnderCommit c l = false) c₀ c) :
    (∀ c' k r, Reachable serverStep (fun c l => finishesUnderCommit c l = false) c c' →
      c.shared.db.results.get? k = some r → r.status.isTerminal = true →
      c'.shared.db.results.get? k = some r) ∧ (∀ l c' pk, serverStep c l = some c' →
      (c'.shared.db.stations.get? pk).bind Station.currentImageRelease ≠
        (c.shared.db.stations.get? pk).bind Station.currentImageRelease →
      ∃ k r r', k.station = pk ∧ c.shared.db.results.get? k = some r ∧
        r.status.isTerminal = false ∧ c'.shared.db.results.get? k = some r' ∧
        r'.status = .success) := by
  have hc := commits_of_reachable h₀ h
  refine ⟨?_, fun l c' pk hstep hmoved => step_pointer hc hstep hmoved⟩
  intro c' k r h' hr hterm
  have hboth : c'.Holds Server.Numbered Commits ∧ c'.shared.db.results.get? k = some r := by
    refine h'.invariant
      (P := fun c' => c'.Holds Server.Numbered Commits ∧ c'.shared.db.results.get? k = some r)
      ⟨hc, hr⟩ ?_
    intro d l d' hd hok hstep
    exact ⟨step_commits hd.1 hok hstep, step_row hd.1 hstep hd.2 hterm⟩
  exact hboth.2

namespace Sample

def image (tag : String) : ImageRelease :=
  ⟨tag, "raspberrypi4-64", "release", "rootfs/" ++ tag, "00", some 1024, 0, false⟩

/-- Station 1 runs `v1` and reboots into `v2` for deployment 1. -/
def rebooting : Db where
  stations := Table.empty.insert 1 ⟨"alpha", some 1, none, "v1"⟩
  groups := Table.empty
  images := (Table.empty.insert 1 (image "v1")).insert 2 (image "v2")
  deployments := Table.empty.insert 1 ⟨"v2", "release", .station, none, some 1, .inProgress, [], 0⟩
  results := Table.empty.insert ⟨1, 1⟩ { imageRelease := 2, status := .rebooting }

def idleServer (db : Db) : Pool Server Proc := ⟨⟨db, Table.empty, 2⟩, Table.empty⟩

theorem idle_rebooting : Idle (idleServer rebooting) where
  procs := rfl
  numbered := Server.numbered_of_entries (by decide) (by decide)

/-- The status of the result, and the image pointer of its station. -/
def outcome (c : Pool Server Proc) : Option ResultStatus × Option Pk :=
  ((c.shared.db.results.get? ⟨1, 1⟩).map (·.status),
    (c.shared.db.stations.get? 1).bind Station.currentImageRelease)

/-- A commit of the deployed version, on its own. -/
def commitRun : List (Sched Request Event) :=
  [.spawn 0 (.commit 1 "v2"), .advance 0 (.exec 1), .advance 0 (.exec 2), .advance 0 (.exec 3)]

/-- A cancellation. -/
def cancelRun : List (Sched Request Event) :=
  [.spawn 1 (.cancel 1), .advance 1 (.exec 4), .advance 1 (.exec 5), .advance 1 (.exec 6)]

end Sample

/-- After its commit the sample result is a success, and it stays one when the
deployment is cancelled. -/
theorem terminal_results_final_commit : ∃ c c',
    Reachable serverStep (fun c l => finishesUnderCommit c l = false)
      (Sample.idleServer Sample.rebooting) c ∧
    Reachable serverStep (fun c l => finishesUnderCommit c l = false) c c' ∧
    c'.shared.db.statusOf 1 = some .cancelled ∧
    ∃ r, c.shared.db.results.get? ⟨1, 1⟩ = some r ∧ r.status = .success ∧
      c'.shared.db.results.get? ⟨1, 1⟩ = some r := by
  have h : ((run (avoiding serverStep finishesUnderCommit) (Sample.idleServer Sample.rebooting)
      Sample.commitRun).bind fun c =>
        (run (avoiding serverStep finishesUnderCommit) c Sample.cancelRun).map fun c' =>
          (c.shared.db.results.get? ⟨1, 1⟩, c'.shared.db.statusOf 1)) =
      some (some (DeploymentResult.commit { imageRelease := 2, status := .rebooting } 2 "v2"),
        some .cancelled) := by decide
  obtain ⟨c, hc, hrest⟩ := Option.bind_eq_some_iff.mp h
  obtain ⟨c', hc', heq⟩ := Option.map_eq_some_iff.mp hrest
  have hreach := Reachable.of_run .init hc
  have hreach' := Reachable.of_run .init hc'
  have hrow := congrArg Prod.fst heq
  exact ⟨c, c', hreach, hreach', congrArg Prod.snd heq, _, hrow, rfl,
    (terminal_results_final _ c Sample.idle_rebooting hreach).1 c' _ _ hreach' hrow rfl⟩

/-- A cancellation between the read and the save of a commit: the cancelled
result becomes a success, and the station's pointer moves. -/
theorem finished_result_overwritten : ∃ c c',
    Reachable serverStep (fun _ _ => True) (Sample.idleServer Sample.rebooting) c ∧
    Reachable serverStep (fun _ _ => True) c c' ∧
    Sample.outcome c = (some .cancelled, some 1) ∧ Sample.outcome c' = (some .success, some 2) := by
  have h : ((run serverStep (Sample.idleServer Sample.rebooting)
      (Sample.commitRun.take 2 ++ Sample.cancelRun)).bind fun c =>
        (run serverStep c (Sample.commitRun.drop 2)).map fun c' =>
          (Sample.outcome c, Sample.outcome c')) =
      some ((some .cancelled, some 1), (some .success, some 2)) := by decide
  obtain ⟨c, hc, hrest⟩ := Option.bind_eq_some_iff.mp h
  obtain ⟨c', hc', heq⟩ := Option.map_eq_some_iff.mp hrest
  exact ⟨c, c', reachable_of_run hc, reachable_of_run hc', congrArg Prod.fst heq,
    congrArg Prod.snd heq⟩

/-- **Saves are isolated.**  In every interleaving at most one transaction of a status report
or a commit saves a result, and a report finds it unfinished. -/
theorem saves_isolated {ok : Pool Server Proc → Sched Request Event → Prop}
    {c₀ c : Pool Server Proc} (h₀ : Idle c₀) (h : Reachable serverStep ok c₀ c) {i : Nat}
    {p : Proc} {k : ResultKey} (hi : c.procs.get? i = some p) (hp : p.saving = some k) :
    (∀ j q, c.procs.get? j = some q → q.saving = some k → j = i) ∧
      ∀ status message, p = .statusSave k status message → c.shared.Open k := by
  have hasserts := (asserts_of_reachable h₀ h).2
  have hheld := (hasserts i p hi).saving k hp
  refine ⟨fun j q hj hq => ?_, (hasserts i p hi).reports k⟩
  exact Option.some.inj (((hasserts j q hj).saving k hq).symm.trans hheld)

/-- A report for deployment 1 has read its result. -/
theorem saves_isolated_verifying : ∃ c, Reachable serverStep (fun _ _ => True)
      (Sample.idleServer Sample.rebooting) c ∧ c.shared.Open ⟨1, 1⟩ := by
  have hrun : run serverStep (Sample.idleServer Sample.rebooting)
    [.spawn 0 (.statusUpdate 1 ⟨1, 1⟩ .verifying ""), .advance 0 (.exec 1)] = some _ := rfl
  have hreach := reachable_of_run hrun
  exact ⟨_, hreach, (saves_isolated Sample.idle_rebooting hreach (i := 0) rfl rfl).2 _ _ rfl⟩

end StationManager.Deployments
