import StationManager.Deployments.Requests

/-!
# StationManager.Deployments.Statements

What the next statement of a request can do, case by case (`Executed`).  The
results about runs are case analyses of this relation and do not unfold the
statements again.
-/

namespace StationManager.Deployments

/-- The result of `p`, executed by process `i` at the time `now`: the server
afterwards and the next statement. -/
inductive Executed (s : Server) (i : Nat) (now : Time) : Proc → Server → Proc → Prop
  | statusRefused {station : Pk} {k : ResultKey} {status : Report} {message : String}
      (response : Response) :
      Executed s i now (.statusLock station k status message) s (.respond response)
  | statusLocked {station : Pk} {k : ResultKey} {status : Report} {message : String}
      {locked : Server} {r : DeploymentResult} :
      s.lock i [.result k, .deployment k.deployment] = some locked →
      s.db.results.get? k = some r → r.status.isTerminal = false →
      Executed s i now (.statusLock station k status message) locked (.statusSave k status message)
  | reportFinal {k : ResultKey} {status : Report} {message : String} :
      status.status.isFailure = true →
      Executed s i now (.statusSave k status message)
        ((s.setDb (s.db.setResult k fun r => r.report now status.status message)).unlock i)
        (.completeRead k.deployment .ok)
  | reportProgress {k : ResultKey} {status : Report} {message : String} :
      status.status.isFailure = false →
      Executed s i now (.statusSave k status message)
        ((s.setDb (s.db.setResult k fun r => r.report now status.status message)).unlock i)
        (.respond .ok)
  | commitNotFound {station : Pk} {version : String} (response : Response) :
      Executed s i now (.commitRead station version) s (.respond response)
  | commitFound {station pk : Pk} {version : String} {k : ResultKey} {image : ImageRelease} :
      committableResult s.db station = some (k, pk, image) →
      Executed s i now (.commitRead station version) s (.commitSave k version image.tag pk)
  | commitMismatch {k : ResultKey} {version expected : String} {image : Pk} (response : Response) :
      version ≠ expected → s.isFree i (.result k) = true →
      Executed s i now (.commitSave k version expected image)
        (s.setDb (s.db.setResult k fun r =>
          r.rollBack now version (mismatchMessage version expected)))
        (.completeRead k.deployment response)
  | commitLocked {k : ResultKey} {version : String} {image : Pk} {locked : Server} :
      s.lock i [.result k] = some locked →
      Executed s i now (.commitSave k version version image) locked
        (.commitStation k version image now)
  | committed {k : ResultKey} {version : String} {image : Pk} {savedAt : Time} :
      s.isFree i (.station k.station) = true →
      Executed s i now (.commitStation k version image savedAt)
        ((s.setDb ((s.db.setResult k fun r => r.commit savedAt version).setStation k.station
          fun st => { st with currentImageRelease := some image })).unlock i)
        (.completeRead k.deployment .ok)
  | completeOpen {d : Pk} {response : Response} : s.db.hasOpen d = true →
      Executed s i now (.completeRead d response) s (.respond response)
  | completeClosed {d : Pk} {response : Response} : s.db.hasOpen d = false →
      Executed s i now (.completeRead d response) s (.completeFailures d response)
  | completeDecided {d : Pk} {response : Response} :
      Executed s i now (.completeFailures d response) s
        (.completeUpdate d (completeStatus (s.db.childStatuses d)) response)
  | completeFlipped {d : Pk} {status : DeploymentStatus} {response : Response} :
      s.isFree i (.deployment d) = true →
      Executed s i now (.completeUpdate d status response)
        (s.setDb (s.db.flipInProgress d status)) (.respond response)
  | cancelRefused {d : Pk} (response : Response) :
      Executed s i now (.cancelRead d) s (.respond response)
  | cancelStarted {d : Pk} : Executed s i now (.cancelRead d) s (.cancelLock d)
  | cancelLocked {d : Pk} {locked : Server} :
      s.lock i ((s.db.openResults d).map .result) = some locked →
      Executed s i now (.cancelLock d) locked (.cancelApply d)
  | cancelled {d : Pk} {locked : Server} :
      ((s.db.statusOf d).any fun status => status ∈ openStatuses) = true →
      s.lock i (.deployment d :: (s.db.openResults d).map .result) = some locked →
      Executed s i now (.cancelApply d) ((locked.setDb (s.db.cancelDeployment now d)).unlock i)
        (.respond .cancelled)
  | cancelledLate {d : Pk} {locked : Server} :
      ((s.db.statusOf d).any fun status => status ∈ openStatuses) = false →
      s.lock i (.deployment d :: (s.db.openResults d).map .result) = some locked →
      Executed s i now (.cancelApply d) (locked.unlock i) (.respond .notCancellable)
  | planRefused {r : CreateRequest} (response : Response) :
      Executed s i now (.createPlan r) s (.respond response)
  | planned {r : CreateRequest} (plans : List StationPlan) :
      Executed s i now (.createPlan r) s (.createLock r plans)
  | stationsLocked {r : CreateRequest} {plans : List StationPlan} {locked : Server} :
      s.lock i ((lockedStations s.db r plans).map fun e => .station e.1) = some locked →
      Executed s i now (.createLock r plans) locked
        (.createInsert r plans (lockedStations s.db r plans))
  | inserted {r : CreateRequest} {plans : List StationPlan} {stations : List (Pk × Station)}
      {locked : Server} :
      s.lock i [.deployment s.nextDeployment] = some locked →
      Executed s i now (.createInsert r plans stations)
        { locked with nextDeployment := s.nextDeployment + 1 }
        (.create
          { request := r, deployment := s.nextDeployment, createdAt := now
            plans := replan s.db r plans stations
            todo := (replan s.db r plans stations).insertionSort fun p q => p.pk ≤ q.pk } [])
  | closeSkipped {tx : Tx} {d : Pk} {close : List Pk} :
      (tx.view s.db).statusOf d ≠ some .inProgress →
      Executed s i now (.create tx (d :: close)) s (.create tx close)
  | closeStarted {tx : Tx} {d : Pk} {close : List Pk} :
      Executed s i now (.create tx (d :: close)) s (.createStatuses tx d close)
  | stationSkipped {tx : Tx} {p : StationPlan} {todo : List StationPlan} (skip : StationPlan) :
      tx.todo = p :: todo → skip.ok = false →
      Executed s i now (.create tx []) s
        (.create { tx with todo, finals := tx.finals ++ [skip] } [])
  | stationServed {tx : Tx} {p : StationPlan} {todo : List StationPlan}
      {rows : List (ResultKey × DeploymentResult)} {locked : Server} :
      tx.todo = p :: todo → p.ok = true →
      rows = unfinishedElsewhere (tx.view s.db) p.pk tx.deployment →
      (∀ e ∈ rows, e.2.status = .pending) →
      s.lock i (rows.map fun e => .result e.1) = some locked →
      Executed s i now (.create tx []) locked
        (.create
          { tx with
            todo, finals := tx.finals ++ [p]
            results := tx.results ++ [(⟨tx.deployment, p.pk⟩, Tx.newResult p)]
            superseded := tx.superseded ++ rows.map fun e => (e.1, now) }
          (rows.map fun e => e.1.deployment).dedup)
  | created {tx : Tx} {response : Response} : tx.todo = [] →
      tx.finals.any StationPlan.ok = true →
      Executed s i now (.create tx []) ((s.setDb (tx.view s.db)).unlock i) (.respond response)
  | rolledBack {tx : Tx} {response : Response} : tx.todo = [] →
      Executed s i now (.create tx []) (s.unlock i) (.respond response)
  | statusesOpen {tx : Tx} {d : Pk} {close : List Pk} :
      ¬((tx.view s.db).childStatuses d ≠ [] ∧
        ((tx.view s.db).childStatuses d).all ResultStatus.isTerminal = true) →
      Executed s i now (.createStatuses tx d close) s (.create tx close)
  | statusesClosed {tx : Tx} {d : Pk} {close : List Pk} :
      Executed s i now (.createStatuses tx d close) s
        (.createSave tx d (closeOutStatus ((tx.view s.db).childStatuses d)) close)
  | closed {tx : Tx} {d : Pk} {status : DeploymentStatus} {close : List Pk} {locked : Server} :
      s.lock i [.deployment d] = some locked →
      Executed s i now (.createSave tx d status close) locked
        (.create { tx with closed := tx.closed ++ [(d, status)] } close)
  | regrouped {station : Pk} {group : Option Pk} :
      Executed s i now (.regroup station group)
        (s.setDb (s.db.setStation station fun st => { st with rolloutGroup := group }))
        (.respond .ok)

section Statements

variable {s s' : Server} {i : Nat} {now : Time} {p' : Proc}

/-- A status report locks its result. -/
theorem executed_statusLock {station : Pk} {k : ResultKey} {status : Report} {message : String}
    (h : statusLock s i station k status message = some (s', p')) :
    Executed s i now (.statusLock station k status message) s' p' := by
  unfold statusLock at h
  split at h
  · next r dep hr _ =>
    split at h
    · obtain ⟨locked, hlock, heq⟩ := Option.map_eq_some_iff.mp h
      split at heq
      · cases heq
        exact .statusRefused _
      · next hopen =>
        split at heq
        · cases heq
          exact .statusRefused _
        · cases heq
          exact .statusLocked hlock hr (Bool.eq_false_iff.mpr hopen)
    · cases h
      exact .statusRefused _
  · cases h
    exact .statusRefused _

/-- The save of a status report. -/
theorem executed_statusSave {k : ResultKey} {status : Report} {message : String}
    (h : statusSave s i now k status message = (s', p')) :
    Executed s i now (.statusSave k status message) s' p' := by
  unfold statusSave at h
  cases hf : status.status.isFailure with
  | true =>
    rw [if_pos hf] at h
    cases h
    exact .reportFinal hf
  | false =>
    rw [if_neg (Bool.eq_false_iff.mp hf)] at h
    cases h
    exact .reportProgress hf

theorem executed_commitRead (station : Pk) (version : String) :
    Executed s i now (.commitRead station version) s (commitRead s station version) := by
  unfold commitRead
  split
  · exact .commitNotFound _
  · next hfound => exact .commitFound hfound

/-- The save of a commit. -/
theorem executed_commitSave {k : ResultKey} {version expected : String} {image : Pk}
    (h : commitSave s i now k version expected image = some (s', p')) :
    Executed s i now (.commitSave k version expected image) s' p' := by
  unfold commitSave at h
  split at h
  · next hne =>
    split at h
    · next hfree =>
      cases h
      exact .commitMismatch _ hne hfree
    · cases h
  · next heq =>
    obtain ⟨locked, hlock, hpair⟩ := Option.map_eq_some_iff.mp h
    cases hpair
    cases not_not.mp heq
    exact .commitLocked hlock

theorem executed_cancelRead (d : Pk) : Executed s i now (.cancelRead d) s (cancelRead s d) := by
  unfold cancelRead
  split
  · exact .cancelRefused _
  · split
    · exact .cancelStarted
    · exact .cancelRefused _

theorem executed_cancelApply {d : Pk} (h : cancelApply s i now d = some (s', p')) :
    Executed s i now (.cancelApply d) s' p' := by
  obtain ⟨locked, hlock, heq⟩ := Option.map_eq_some_iff.mp h
  split at heq
  · next hopen =>
    cases heq
    exact .cancelled hopen hlock
  · next hopen =>
    cases heq
    exact .cancelledLate (Bool.eq_false_iff.mpr hopen) hlock

theorem executed_createPlan (r : CreateRequest) :
    Executed s i now (.createPlan r) s (createPlan s r) := by
  unfold createPlan
  simp only
  split
  · exact .planned _
  · exact .planRefused _

/-- A create takes up its next station. -/
theorem executed_createStation {tx : Tx} {p : StationPlan} {todo : List StationPlan}
    (htodo : tx.todo = p :: todo) (h : createStation s i now tx p todo = some (s', p')) :
    Executed s i now (.create tx []) s' p' := by
  unfold createStation at h
  split at h
  · next hok =>
    obtain ⟨locked, hlock, heq⟩ := Option.map_eq_some_iff.mp h
    split at heq
    · cases heq
      exact .stationSkipped _ htodo rfl
    · next hnone =>
      cases heq
      refine .stationServed htodo hok rfl (fun e he => ?_) hlock
      simpa using List.find?_eq_none.mp hnone e he
  · next hok =>
    cases h
    exact .stationSkipped p htodo (Bool.eq_false_iff.mpr hok)

/-- A create has no station left. -/
theorem executed_createFinish {tx : Tx} (htodo : tx.todo = [])
    (h : createFinish s i tx = (s', p')) : Executed s i now (.create tx []) s' p' := by
  unfold createFinish at h
  split at h
  · next hok =>
    cases h
    exact .created htodo hok
  · cases h
    exact .rolledBack htodo

/-- **What a statement can do.** -/
theorem executed_of_exec {p : Proc} (h : exec i s now p = some (s', p')) :
    Executed s i now p s' p' := by
  cases p with
  | statusLock station k status message => exact executed_statusLock h
  | statusSave k status message => exact executed_statusSave (Option.some.inj h)
  | commitRead station version =>
    cases h
    exact executed_commitRead station version
  | commitSave k version expected image => exact executed_commitSave h
  | commitStation k version image savedAt =>
    simp only [exec, commitStation] at h
    split at h
    · next hfree =>
      cases h
      exact .committed hfree
    · cases h
  | completeRead d response =>
    cases h
    unfold completeRead
    cases hopen : s.db.hasOpen d with
    | true => exact .completeOpen hopen
    | false => exact .completeClosed hopen
  | completeFailures d response =>
    cases h
    exact .completeDecided
  | completeUpdate d status response =>
    simp only [exec, completeUpdate] at h
    split at h
    · next hfree =>
      cases h
      exact .completeFlipped hfree
    · cases h
  | cancelRead d =>
    cases h
    exact executed_cancelRead d
  | cancelLock d =>
    obtain ⟨locked, hlock, heq⟩ := Option.map_eq_some_iff.mp h
    cases heq
    exact .cancelLocked hlock
  | cancelApply d => exact executed_cancelApply h
  | createPlan r =>
    cases h
    exact executed_createPlan r
  | createLock r plans =>
    obtain ⟨locked, hlock, heq⟩ := Option.map_eq_some_iff.mp h
    cases heq
    exact .stationsLocked hlock
  | createInsert r plans stations =>
    obtain ⟨locked, hlock, heq⟩ := Option.map_eq_some_iff.mp h
    cases heq
    exact .inserted hlock
  | create tx close =>
    cases close with
    | cons d close =>
      cases h
      unfold createClose
      split
      · exact .closeStarted
      · next hne => exact .closeSkipped hne
    | nil =>
      simp only [exec] at h
      split at h
      · next htodo => exact executed_createStation htodo h
      · next htodo => exact executed_createFinish htodo (Option.some.inj h)
  | createStatuses tx d close =>
    cases h
    unfold createStatuses
    simp only
    split
    · exact .statusesClosed
    · next hopen => exact .statusesOpen hopen
  | createSave tx d status close =>
    obtain ⟨locked, hlock, heq⟩ := Option.map_eq_some_iff.mp h
    cases heq
    exact .closed hlock
  | regroup station group =>
    simp only [exec, regroup] at h
    split at h
    · cases h
      exact .regrouped
    · cases h
  | respond response => cases h

/-! ## processes -/

variable {p : Proc}

/-- What a scheduled process can do: execute its next statement, end, or be
aborted. -/
inductive Acted (s : Server) (i : Nat) : Proc → Event → Server → Option Proc → Prop
  | exec {p q : Proc} {s' : Server} (now : Time) :
      Executed s i now p s' q → Acted s i p (.exec now) s' (some q)
  | done (response : Response) (now : Time) : Acted s i (.respond response) (.exec now) s none
  | abort {p : Proc} : p.inTransaction = true →
      Acted s i p .abort (s.unlock i) (some (.respond .serverError))

/-- Every action is one of these. -/
theorem acted_of_act {e : Event} {q : Option Proc} (h : act i s p e = some (s', q)) :
    Acted s i p e s' q := by
  cases e with
  | exec now =>
    simp only [act] at h
    split at h
    · cases h
      exact .done _ now
    · obtain ⟨⟨s₁, p₁⟩, hexec, heq⟩ := Option.map_eq_some_iff.mp h
      cases heq
      exact .exec now (executed_of_exec hexec)
  | abort =>
    simp only [act] at h
    split at h
    · next htx =>
      cases h
      exact .abort htx
    · cases h

end Statements

end StationManager.Deployments
