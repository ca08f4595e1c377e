import StationManager.Deployments.Final

/-!
# StationManager.Deployments.Stranded

A deployment is closed by the request that sees all its children finished.  A
creation looks at the deployments it has superseded results of before it
commits, so neither it nor a status update that looks in the meantime sees the
other's write, and the deployment stays in progress for ever
(`deployment_stranded`).

A roll-up *misses* a supersession if the only unfinished children it sees are
ones that other creations, not yet committed, have superseded.  In every run
without such a roll-up, a deployment in progress has an unfinished child or a
request that will still look at it (`Covered`), so that none is left behind
once all requests are done.
-/

namespace StationManager.Deployments

/-! ## roll-ups that miss a supersession -/

/-- The results that an open creation has superseded. -/
def Proc.superseded (p : Proc) : List ResultKey :=
  match p.tx with
  | some (tx, _) => tx.superseded.map Prod.fst
  | none => []

/-- The next statement decides whether the children of a deployment are all
finished: the deployment, and the database as the process sees it. -/
def Proc.evaluates (db : Db) : Proc → Option (Pk × Db)
  | .completeRead d _ => some (d, db)
  | .createStatuses tx d _ => some (d, tx.view db)
  | _ => none

/-- The step is a roll-up that sees unfinished children, all of them
superseded by other creations that have not committed yet. -/
def misses (c : Pool Server Proc) : Sched Request Event → Bool
  | .advance i (.exec _) => match (c.procs.get? i).bind fun p => p.evaluates c.shared.db with
      | some (d, seen) => seen.openResults d ≠ [] ∧ (seen.openResults d).all fun k =>
        c.procs.entries.any fun e => e.1 ≠ i ∧ k ∈ e.2.superseded
      | none => false
  | _ => false

/-- The process will still look at the deployment, or close it. -/
def Proc.owes (d : Pk) : Proc → Prop
  | .completeRead d' _ | .completeFailures d' _ | .completeUpdate d' _ _ => d' = d
  | p => ∃ tx close, p.tx = some (tx, close) ∧ (d ∈ close ∨ d ∈ tx.closed.map Prod.fst)

/-- Deployment `d` has an unfinished child that neither process `q` nor a
process of the others has superseded, or `q` will still look at it. -/
def Covers (s : Server) (q : Option Proc) (others : ResultKey → Prop) (d : Pk) : Prop :=
  (∃ k, k.deployment = d ∧ s.Open k ∧ (∀ p, q = some p → k ∉ p.superseded) ∧ ¬others k) ∨
    ∃ p, q = some p ∧ p.owes d

section Steps

variable {s s' : Server} {i j : Nat} {now : Time} {p p' : Proc} {k : ResultKey} {d : Pk}

variable {close : List Pk} {others : ResultKey → Prop} {tx : Tx}

theorem Covers.live (hkd : k.deployment = d) (hopen : s.Open k) (hown : k ∉ p.superseded)
    (hfree : ¬others k) : Covers s (some p) others d := by
  refine .inl ⟨k, hkd, hopen, ?_, hfree⟩
  rintro _ ⟨⟩
  exact hown

theorem Covers.owed (howes : p.owes d) : Covers s (some p) others d :=
  .inr ⟨p, rfl, howes⟩

/-! ## open creations -/

theorem superseded_of_tx (hp : p.tx = some (tx, close)) :
    p.superseded = tx.superseded.map Prod.fst := by
  rw [Proc.superseded, hp]

theorem superseded_of_none (hp : p.tx = none) : p.superseded = [] := by
  rw [Proc.superseded, hp]

theorem owes_of_tx (hp : p.tx = some (tx, close)) :
    p.owes d ↔ d ∈ close ∨ d ∈ tx.closed.map Prod.fst := by
  cases p <;> cases hp <;> simp [Proc.owes, Proc.tx]

/-- In a transaction, only an open creation owes anything. -/
theorem not_owes_of_none (htx : p.inTransaction = true) (hp : p.tx = none) : ¬p.owes d := by
  intro howes
  cases p with
  | completeRead | completeFailures | completeUpdate => cases htx
  | _ =>
    obtain ⟨tx, close, h, _⟩ := howes
    rw [hp] at h
    cases h

/-- A creation owes a look only at deployments it has superseded results
of. -/
theorem owes_touches (hp : Asserts i p s) (htx : p.tx = some (tx, close)) (howes : p.owes d) :
    tx.Touches d := by
  obtain ⟨hv, hclose⟩ := hp.tx tx close htx
  rcases (owes_of_tx htx).mp howes with hd | hd
  · exact hclose d hd
  · obtain ⟨e, he, rfl⟩ := List.mem_map.mp hd
    exact (hv.closes e he).2.1

/-- A deployment is in progress for a transaction if it is in progress and the
transaction has not closed it. -/
theorem statusOf_view (hv : tx.Valid i s) (hd : d ≠ tx.deployment) :
    (tx.view s.db).statusOf d = some .inProgress ↔
      s.db.statusOf d = some .inProgress ∧ d ∉ tx.closed.map Prod.fst := by
  rw [Db.statusOf, Tx.get?_view_deployments, if_neg hd, Option.map_map]
  by_cases hmem : d ∈ tx.closed.map Prod.fst
  · simp only [hmem, not_true_eq_false, and_false, iff_false]
    intro hin
    obtain ⟨dep, _, hstatus⟩ := Option.map_eq_some_iff.mp hin
    simp only [Function.comp, Tx.seenDeployment] at hstatus
    split at hstatus
    · next e hfound => exact (hv.closes e (List.mem_of_find?_eq_some hfound)).2.2 hstatus
    · next hnone =>
      obtain ⟨e, he, rfl⟩ := List.mem_map.mp hmem
      have := List.find?_eq_none.mp hnone e he
      simp at this
  · have hopen : ∀ e ∈ tx.closed, e.1 ≠ d := fun e he heq =>
      hmem (List.mem_map.mpr ⟨e, he, heq⟩)
    simp only [hmem, not_false_eq_true, and_true, Db.statusOf]
    cases s.db.deployments.get? d with
    | none => rfl
    | some dep =>
      rw [Option.map_some, Option.map_some, Function.comp, Tx.seenDeployment_of_notMem hopen]

/-- A result that a transaction sees unfinished, of another deployment, is
unfinished and not superseded by it. -/
theorem open_of_view (hv : tx.Valid i s) (hd : d ≠ tx.deployment)
    (hk : k ∈ (tx.view s.db).openResults d) :
    k.deployment = d ∧ s.Open k ∧ k ∉ tx.superseded.map Prod.fst := by
  obtain ⟨rfl, r, hr, hopen⟩ := (Db.mem_openResults ..).mp hk
  rw [hv.results_ne hd] at hr
  obtain ⟨r₀, hr₀, rfl⟩ := Option.map_eq_some_iff.mp hr
  have hnot : k ∉ tx.superseded.map Prod.fst := by
    intro hmem
    obtain ⟨e, he, rfl⟩ := List.mem_map.mp hmem
    rw [Tx.seenResult_of_mem he] at hopen
    cases hopen
  refine ⟨rfl, ⟨r₀, hr₀, ?_⟩, hnot⟩
  rwa [Tx.seenResult_of_notMem fun e he heq => hnot (List.mem_map.mpr ⟨e, he, heq⟩)] at hopen

theorem openResults_of_hasOpen {db : Db} (h : db.hasOpen d = true) : db.openResults d ≠ [] := by
  obtain ⟨station, r, hr, hopen⟩ := hasOpen_iff.mp h
  have hmem := (Db.mem_openResults db d ⟨d, station⟩).mpr ⟨rfl, r, hr, hopen⟩
  exact List.ne_nil_of_mem hmem

/-- A creation that does not find all children of a deployment finished sees an
unfinished one. -/
theorem openResults_view (hv : tx.Valid i s) (ht : tx.Touches d)
    (hnot : ¬((tx.view s.db).childStatuses d ≠ [] ∧
      ((tx.view s.db).childStatuses d).all ResultStatus.isTerminal = true)) :
    (tx.view s.db).openResults d ≠ [] := by
  obtain ⟨f, hf, rfl⟩ := ht
  obtain ⟨_, r, hr, _⟩ := hv.pending f hf
  have hview := hv.results_ne (hv.elsewhere hf)
  rw [hr] at hview
  have hchildren : (tx.view s.db).childStatuses f.1.deployment ≠ [] :=
    List.ne_nil_of_mem ((Db.mem_childStatuses ..).mpr ⟨f.1.station, _, hview, rfl⟩)
  have hopen : (tx.view s.db).hasOpen f.1.deployment = true := by
    by_contra hclosed
    refine hnot ⟨hchildren, ?_⟩
    rw [all_isTerminal_eq, Bool.eq_false_iff.mpr hclosed]
    rfl
  exact openResults_of_hasOpen hopen

/-- What a transaction has superseded is pending until it commits, and no other
process has superseded it. -/
theorem open_of_touches (hv : tx.Valid i s) (ht : tx.Touches d)
    (hothers : ∀ k, others k → ∃ j, j ≠ i ∧ s.Holds j (.result k)) :
    ∃ k, k.deployment = d ∧ s.Open k ∧ ¬others k := by
  obtain ⟨e, he, rfl⟩ := ht
  obtain ⟨hlock, r, hr, hpending⟩ := hv.pending e he
  refine ⟨e.1, rfl, ⟨r, hr, by rw [hpending]; rfl⟩, fun ho => ?_⟩
  obtain ⟨j, hne, hj⟩ := hothers _ ho
  exact hj.ne_of_isFree hne hlock.isFree rfl

/-! ## children and their deployments -/

/-- An unfinished result stays unfinished unless the statement finishes it. -/
theorem executed_open (hp : Asserts i p s) (h : Executed s i now p s' p') (hk : s.Open k) :
    s'.Open k ∨ k ∈ p.finishes s.db := by
  obtain ⟨r, hr, hopen⟩ := hk
  rcases executed_row hp h hr with hsame | ⟨_, hfin | hopen'⟩ | ⟨_, hfin⟩
  · exact .inl ⟨r, hsame, hopen⟩
  · exact .inr hfin
  · exact .inl hopen'
  · exact .inr hfin

theorem cancelDeployment_statusOf (db : Db) (e : Pk) : (db.cancelDeployment now d).statusOf e =
      if e = d then (db.statusOf e).map fun _ => .cancelled else db.statusOf e :=
  Db.setStatus_statusOf ..

/-- Whoever finishes a result will look at its deployment, has closed it, or
has superseded the result before. -/
theorem finishes_owes (h : Executed s i now p s' p') (hk : k ∈ p.finishes s.db) :
    p'.owes k.deployment ∨ s'.db.statusOf k.deployment ≠ some .inProgress ∨ k ∈ p.superseded := by
  cases h with
  | reportFinal hf =>
    rw [Proc.finishes, if_pos hf] at hk
    cases List.mem_singleton.mp hk
    exact .inl rfl
  | reportProgress hf =>
    rw [Proc.finishes, if_neg (Bool.eq_false_iff.mp hf)] at hk
    cases hk
  | commitMismatch _ hne =>
    rw [Proc.finishes, if_pos hne] at hk
    cases List.mem_singleton.mp hk
    exact .inl rfl
  | commitLocked =>
    rw [Proc.finishes, if_neg fun h => h rfl] at hk
    cases hk
  | committed =>
    cases List.mem_singleton.mp hk
    exact .inl rfl
  | cancelled hopen =>
    rw [Proc.finishes, if_pos hopen] at hk
    obtain ⟨rfl, _⟩ := (Db.mem_openResults ..).mp hk
    refine .inr (.inl fun hin => ?_)
    rw [Server.unlock, Server.setDb, cancelDeployment_statusOf, if_pos rfl] at hin
    obtain ⟨_, _, hcancelled⟩ := Option.map_eq_some_iff.mp hin
    cases hcancelled
  | cancelledLate hopen =>
    rw [Proc.finishes, if_neg (Bool.eq_false_iff.mp hopen)] at hk
    cases hk
  | stationSkipped | stationServed | created | rolledBack =>
    simp only [Proc.finishes] at hk
    split at hk
    · exact .inr (.inr hk)
    · cases hk
  | _ => cases hk

/-- Whoever supersedes a result will look at its deployment. -/
theorem superseded_owes (h : Executed s i now p s' p') (hk : k ∈ p'.superseded) :
    k ∈ p.superseded ∨ p'.owes k.deployment := by
  cases h with
  | closeSkipped | closeStarted | stationSkipped | statusesOpen | statusesClosed | closed =>
    exact .inl hk
  | stationServed =>
    rw [superseded_of_tx rfl, List.map_append] at hk
    rcases List.mem_append.mp hk with hold | hnew
    · exact .inl hold
    · refine .inr ((owes_of_tx rfl).mpr (.inl (List.mem_dedup.mpr ?_)))
      simp only [List.map_map, List.mem_map, Function.comp] at hnew
      obtain ⟨e, he, rfl⟩ := hnew
      exact List.mem_map.mpr ⟨e, he, rfl⟩
  | _ => cases hk

/-- A deployment that is in progress was so before, or is a new one with an
unfinished child. -/
theorem executed_inProgress (hp : Asserts i p s) (h : Executed s i now p s' p')
    (hd : s'.db.statusOf d = some .inProgress) : s.db.statusOf d = some .inProgress ∨
      ∃ k, k.deployment = d ∧ s'.Open k ∧ k ∉ p'.superseded ∧ s.db.results.get? k = none := by
  cases h with
  | statusLocked hlock | commitLocked hlock | cancelLocked hlock | stationsLocked hlock
  | inserted hlock | closed hlock => exact .inl (by rwa [(Server.lock_db hlock).1] at hd)
  | stationServed _ _ _ _ hlock => exact .inl (by rwa [(Server.lock_db hlock).1] at hd)
  | cancelledLate _ hlock => exact .inl (by rwa [Server.unlock, (Server.lock_db hlock).1] at hd)
  | completeFlipped =>
    rw [Server.setDb, Db.flipInProgress] at hd
    split at hd
    · rw [Db.setStatus_statusOf] at hd
      split at hd
      · obtain ⟨_, _, hstatus⟩ := Option.map_eq_some_iff.mp hd
        exact absurd hstatus (hp.sets _ rfl)
      · exact .inl hd
    · exact .inl hd
  | cancelled =>
    rw [Server.unlock, Server.setDb, cancelDeployment_statusOf] at hd
    split at hd
    · obtain ⟨_, _, hcancelled⟩ := Option.map_eq_some_iff.mp hd
      cases hcancelled
    · exact .inl hd
  | @created tx _ _ hok =>
    have hv := (hp.tx tx [] rfl).1
    by_cases hnew : d = tx.deployment
    · -- the new deployment has a result for every station that is served
      obtain ⟨e, he⟩ := List.exists_mem_of_ne_nil _ (hv.serves hok)
      have hnone : s.db.results.get? e.1 = none := by
        have hunused := hv.unused e.1.station
        rwa [← (hv.inserts e he).1] at hunused
      have hsome : (tx.results.find? fun f => f.1 = e.1).isSome = true :=
        List.find?_isSome.mpr ⟨e, he, decide_eq_true rfl⟩
      obtain ⟨f, hf⟩ := Option.isSome_iff_exists.mp hsome
      refine .inr ⟨e.1, (hv.inserts e he).1.trans hnew.symm, ⟨f.2, ?_, ?_⟩, ?_, hnone⟩
      · rw [Server.unlock, Server.setDb, Tx.get?_view_results, hnone, hf]
        rfl
      · rw [(hv.inserts f (List.mem_of_find?_eq_some hf)).2]
        rfl
      · exact List.not_mem_nil
    · exact .inl ((statusOf_view hv hnew).mp hd).1
  | _ => exact .inl hd

/-- What a process owes to a deployment it still owes, or the deployment has an
unfinished child, unless its roll-up misses a supersession. -/
theorem executed_owes (hp : Asserts i p s) (h : Executed s i now p s' p')
    (hothers : ∀ k, others k → ∃ j, j ≠ i ∧ s.Holds j (.result k))
    (hmiss : ∀ e seen, p.evaluates s.db = some (e, seen) → seen.openResults e ≠ [] →
      ∃ k ∈ seen.openResults e, ¬others k) (hd : s'.db.statusOf d = some .inProgress)
    (howes : p.owes d) : Covers s' (some p') others d := by
  cases h with
  | @completeOpen e _ hopen =>
    obtain rfl : e = d := howes
    obtain ⟨k, hk, hfree⟩ := hmiss e s.db rfl (openResults_of_hasOpen hopen)
    obtain ⟨hkd, hkopen⟩ := (Db.mem_openResults ..).mp hk
    exact .live hkd hkopen List.not_mem_nil hfree
  | completeClosed | completeDecided => exact .owed howes
  | @completeFlipped e =>
    obtain rfl : e = d := howes
    rw [Server.setDb, Db.flipInProgress] at hd
    split at hd
    · rw [Db.setStatus_statusOf, if_pos rfl] at hd
      obtain ⟨_, _, hstatus⟩ := Option.map_eq_some_iff.mp hd
      exact absurd hstatus (hp.sets _ rfl)
    · next hnot => exact absurd hd hnot
  | @closeSkipped tx e close hview =>
    refine .owed ((owes_of_tx rfl).mpr ?_)
    rcases (owes_of_tx rfl).mp howes with hmem | hmem
    · rcases List.mem_cons.mp hmem with rfl | hmem
      · obtain ⟨hv, _⟩ := hp.tx _ _ rfl
        have hne := hv.touches_ne (owes_touches hp rfl howes)
        refine .inr (not_not.mp fun hnot => hview ?_)
        exact (statusOf_view hv hne).mpr ⟨hd, hnot⟩
      · exact .inl hmem
    · exact .inr hmem
  | closeStarted | statusesClosed => exact .owed ((owes_of_tx rfl).mpr ((owes_of_tx rfl).mp howes))
  | stationSkipped | stationServed =>
    have hclosed := ((owes_of_tx rfl).mp howes).resolve_left List.not_mem_nil
    refine .owed ((owes_of_tx rfl).mpr (.inr ?_))
    exact hclosed
  | created =>
    obtain ⟨hv, _⟩ := hp.tx _ _ rfl
    have hne := hv.touches_ne (owes_touches hp rfl howes)
    have hclosed := ((owes_of_tx rfl).mp howes).resolve_left List.not_mem_nil
    exact absurd hclosed ((statusOf_view hv hne).mp hd).2
  | rolledBack =>
    obtain ⟨k, hkd, hopen, hfree⟩ :=
      open_of_touches (hp.tx _ _ rfl).1 (owes_touches hp rfl howes) hothers
    exact .live hkd hopen List.not_mem_nil hfree
  | statusesOpen hnot =>
    rcases (owes_of_tx rfl).mp howes with hmem | hmem
    · rcases List.mem_cons.mp hmem with rfl | hmem
      · obtain ⟨hv, _⟩ := hp.tx _ _ rfl
        have htouches := owes_touches hp rfl howes
        obtain ⟨k, hk, hfree⟩ := hmiss d _ rfl (openResults_view hv htouches hnot)
        obtain ⟨hkd, hkopen, hkept⟩ := open_of_view hv (hv.touches_ne htouches) hk
        exact .live hkd hkopen hkept hfree
      · exact .owed ((owes_of_tx rfl).mpr (.inl hmem))
    · exact .owed ((owes_of_tx rfl).mpr (.inr hmem))
  | closed =>
    refine .owed ((owes_of_tx rfl).mpr ?_)
    rw [List.map_append, List.mem_append]
    rcases (owes_of_tx rfl).mp howes with hmem | hmem
    · rcases List.mem_cons.mp hmem with rfl | hmem
      · exact .inr (.inr List.mem_cons_self)
      · exact .inl hmem
    · exact .inr (.inl hmem)
  | _ =>
    obtain ⟨_, _, htx, _⟩ := howes
    cases htx

/-- **A statement keeps a deployment covered**, unless it is a roll-up that
misses a supersession. -/
theorem executed_covers (hp : Asserts i p s) (h : Executed s i now p s' p')
    (hothers : ∀ k, others k → ∃ j, j ≠ i ∧ s.Holds j (.result k))
    (hrows : ∀ k, others k → s.db.results.get? k ≠ none)
    (hmiss : ∀ e seen, p.evaluates s.db = some (e, seen) → seen.openResults e ≠ [] →
      ∃ k ∈ seen.openResults e, ¬others k) (hd : s'.db.statusOf d = some .inProgress)
    (hcov : s.db.statusOf d = some .inProgress → Covers s (some p) others d) :
    Covers s' (some p') others d := by
  rcases executed_inProgress hp h hd with hin | ⟨k, hkd, hopen, hown, hnone⟩
  · rcases hcov hin with ⟨k, hkd, hopen, hown, hfree⟩ | ⟨_, ⟨⟩, howes⟩
    · rcases executed_open hp h hopen with hopen' | hfin
      · by_cases hsup : k ∈ p'.superseded
        · rcases superseded_owes h hsup with hold | howes
          · exact absurd hold (hown p rfl)
          · exact .owed (hkd ▸ howes)
        · exact .live hkd hopen' hsup hfree
      · rcases finishes_owes h hfin with howes | hclosed | hold
        · exact .owed (hkd ▸ howes)
        · exact absurd hd (hkd ▸ hclosed)
        · exact absurd hold (hown p rfl)
    · exact executed_owes hp h hothers hmiss hd howes
  · exact .live hkd hopen hown fun ho => hrows k ho hnone

end Steps

/-! ## runs -/

/-- Every deployment in progress has an unfinished child that no open creation
has superseded, or a request that will still look at it. -/
def Covered (c : Pool Server Proc) : Prop :=
  ∀ d, c.shared.db.statusOf d = some .inProgress →
    (∃ k, k.deployment = d ∧ c.shared.Open k ∧
      ∀ j q, c.procs.get? j = some q → k ∉ q.superseded) ∨
    ∃ j q, c.procs.get? j = some q ∧ q.owes d

/-- Every deployment in progress has an unfinished child. -/
def NoneStranded (s : Server) : Prop :=
  ∀ d, s.db.statusOf d = some .inProgress → ∃ k, k.deployment = d ∧ s.Open k

theorem noneStranded_of_entries {s : Server}
    (h : s.db.deployments.entries.all fun e =>
      e.2.status = .inProgress → s.db.openResults e.1 ≠ []) : NoneStranded s := by
  intro d hd
  obtain ⟨dep, hdep, hstatus⟩ := Option.map_eq_some_iff.mp hd
  have hopen := List.all_eq_true.mp h _ ((Table.mem_entries_iff ..).mpr hdep)
  obtain ⟨k, hk⟩ := List.exists_mem_of_ne_nil _ (decide_eq_true_eq.mp hopen hstatus)
  exact ⟨k, (Db.mem_openResults ..).mp hk⟩

/-- Superseded by a process other than `i`. -/
def supersededElsewhere (c : Pool Server Proc) (i : Nat) (k : ResultKey) : Prop :=
  ∃ j q, j ≠ i ∧ c.procs.get? j = some q ∧ k ∈ q.superseded

section Runs

variable {c c' : Pool Server Proc} {l : Sched Request Event} {i : Nat} {d : Pk}

/-- A superseded row is held by its process. -/
theorem supersededElsewhere_holds (hc : c.Holds Server.Numbered Asserts) {k : ResultKey}
    (h : supersededElsewhere c i k) :
    (∃ j, j ≠ i ∧ c.shared.Holds j (.result k)) ∧ c.shared.db.results.get? k ≠ none := by
  obtain ⟨j, q, hne, hj, hk⟩ := h
  cases htx : q.tx with
  | none =>
    rw [superseded_of_none htx] at hk
    cases hk
  | some tx =>
    rw [superseded_of_tx htx] at hk
    obtain ⟨e, he, rfl⟩ := List.mem_map.mp hk
    obtain ⟨hlock, r, hr, _⟩ := ((hc.2 j q hj).tx _ _ htx).1.pending e he
    exact ⟨⟨j, hne, hlock⟩, by rw [hr]; exact nofun⟩

variable {p : Proc}

/-- A roll-up that does not miss a supersession sees an unfinished child that
no other creation has superseded. -/
theorem of_not_misses {now : Time} (hok : misses c (.advance i (.exec now)) = false)
    (hi : c.procs.get? i = some p) {e : Pk} {seen : Db}
    (heval : p.evaluates c.shared.db = some (e, seen)) (hne : seen.openResults e ≠ []) :
    ∃ k ∈ seen.openResults e, ¬supersededElsewhere c i k := by
  by_contra hall
  have hmiss : misses c (.advance i (.exec now)) = true := by
    simp only [misses, hi, Option.bind_some, heval]
    refine decide_eq_true ⟨hne, List.all_eq_true.mpr fun k hk => ?_⟩
    obtain ⟨j, q, hji, hj, hsup⟩ := not_not.mp fun hnot => hall ⟨k, hk, hnot⟩
    exact List.any_eq_true.mpr ⟨(j, q), (Table.mem_entries_iff ..).mpr hj,
      decide_eq_true ⟨hji, hsup⟩⟩
  rw [hok] at hmiss
  cases hmiss

/-- A covered deployment, seen from process `i`: covered by it and the rows,
or by another process. -/
theorem covers_of_covered (hcov : Covered c) (hi : c.procs.get? i = some p)
    (hd : c.shared.db.statusOf d = some .inProgress) :
    Covers c.shared (some p) (supersededElsewhere c i) d ∨
      ∃ j q, j ≠ i ∧ c.procs.get? j = some q ∧ q.owes d := by
  rcases hcov d hd with ⟨k, hkd, hopen, hfree⟩ | ⟨j, q, hj, howes⟩
  · refine .inl (.live hkd hopen (hfree i p hi) ?_)
    rintro ⟨j, q, _, hj, hk⟩
    exact hfree j q hj hk
  · by_cases hji : j = i
    · subst hji
      rw [hi] at hj
      cases hj
      exact .inl (.owed howes)
    · exact .inr ⟨j, q, hji, hj, howes⟩

/-- What an aborted transaction had superseded is unfinished again. -/
theorem abort_covers {s : Server} {others : ResultKey → Prop} (hp : Asserts i p s)
    (hothers : ∀ k, others k → ∃ j, j ≠ i ∧ s.Holds j (.result k)) (htx : p.inTransaction = true)
    (hcov : Covers s (some p) others d) (response : Response) :
    Covers (s.unlock i) (some (.respond response)) others d := by
  have hlive : ∃ k, k.deployment = d ∧ s.Open k ∧ ¬others k := by
    rcases hcov with ⟨k, hkd, hopen, _, hfree⟩ | ⟨_, ⟨⟩, howes⟩
    · exact ⟨k, hkd, hopen, hfree⟩
    · cases h : p.tx with
      | none => exact absurd howes (not_owes_of_none htx h)
      | some tx => exact open_of_touches (hp.tx _ _ h).1 (owes_touches hp h howes) hothers
  obtain ⟨k, hkd, hopen, hfree⟩ := hlive
  exact .live hkd hopen List.not_mem_nil hfree

theorem acted_covers {s' : Server} {q : Option Proc} {e : Event}
    (hc : c.Holds Server.Numbered Asserts) (hcov : Covered c) (hi : c.procs.get? i = some p)
    (hok : misses c (.advance i e) = false) (h : Acted c.shared i p e s' q)
    (hd : s'.db.statusOf d = some .inProgress) : Covers s' q (supersededElsewhere c i) d ∨
      ∃ j q, j ≠ i ∧ c.procs.get? j = some q ∧ q.owes d := by
  have hheld := fun k hk => (supersededElsewhere_holds (i := i) (k := k) hc hk).1
  have hrows := fun k hk => (supersededElsewhere_holds (i := i) (k := k) hc hk).2
  cases h with
  | exec now hexec =>
    by_cases hother : ∃ j q, j ≠ i ∧ c.procs.get? j = some q ∧ q.owes d
    · exact .inr hother
    · refine .inl (executed_covers (hc.2 i p hi) hexec hheld hrows
        (fun _ _ => of_not_misses hok hi) hd fun hin => ?_)
      exact (covers_of_covered hcov hi hin).resolve_right hother
  | done =>
    rcases covers_of_covered hcov hi hd with
      (⟨k, hkd, hopen, _, hfree⟩ | ⟨_, ⟨⟩, _, _, htx, _⟩) | hother
    · exact .inl (.inl ⟨k, hkd, hopen, nofun, hfree⟩)
    · cases htx
    · exact .inr hother
  | abort htx =>
    rcases covers_of_covered hcov hi hd with hself | hother
    · exact .inl (abort_covers (hc.2 i p hi) hheld htx hself _)
    · exact .inr hother

/-- **A step keeps all deployments covered**, unless it is a roll-up that
misses a supersession. -/
theorem step_covered (hc : c.Holds Server.Numbered Asserts) (hcov : Covered c)
    (hok : misses c l = false) (h : serverStep c l = some c') : Covered c' := by
  intro d hd
  cases Pool.stepped_of_step h with
  | spawn i r p hstart hfree hshared hprocs =>
    rw [hshared] at hd ⊢
    have hnone : p.tx = none := by cases r <;> cases hstart <;> rfl
    rcases hcov d hd with ⟨k, hkd, hopen, hkept⟩ | ⟨j, q, hj, howes⟩
    · refine .inl ⟨k, hkd, hopen, fun j q hj => ?_⟩
      rw [hprocs] at hj
      split at hj
      · cases hj
        rw [superseded_of_none hnone]
        exact List.not_mem_nil
      · exact hkept j q hj
    · refine .inr ⟨j, q, ?_, howes⟩
      rw [hprocs, if_neg]
      · exact hj
      · rintro rfl
        rw [hfree] at hj
        cases hj
  | advance i e p q hi hact hprocs =>
    rcases acted_covers hc hcov hi hok (acted_of_act hact) hd with
      (⟨k, hkd, hopen, hself, hfree⟩ | ⟨p', hq, howes⟩) | ⟨j, q', hne, hj, howes⟩
    · refine .inl ⟨k, hkd, hopen, fun j q' hj => ?_⟩
      rw [hprocs] at hj
      split at hj
      · exact hself q' hj
      · next hne => exact fun hk => hfree ⟨j, q', hne, hj, hk⟩
    · exact .inr ⟨i, p', by rw [hprocs, if_pos rfl, hq], howes⟩
    · exact .inr ⟨j, q', by rw [hprocs, if_neg hne, hj], howes⟩

end Runs

/-- **No deployment is stranded.**  In every run without a roll-up that misses
a supersession, once no request is in progress every deployment that is in
progress has an unfinished result. -/
theorem no_deployment_stranded (c₀ c : Pool Server Proc) (h₀ : Idle c₀)
    (hnone : NoneStranded c₀.shared)
    (h : Reachable serverStep (fun c l => misses c l = false) c₀ c) (hquiet : c.Quiescent) :
    NoneStranded c.shared := by
  have hboth : c.Holds Server.Numbered Asserts ∧ Covered c := by
    refine h.invariant (P := fun c => c.Holds Server.Numbered Asserts ∧ Covered c) ⟨?_, ?_⟩ ?_
    · have hinit : Reachable serverStep (fun c l => misses c l = false) c₀ c₀ := .init
      exact asserts_of_reachable h₀ hinit
    · intro d hd
      obtain ⟨k, hkd, hopen⟩ := hnone d hd
      refine .inl ⟨k, hkd, hopen, fun j q hj => ?_⟩
      rw [h₀.procs] at hj
      cases hj
    · intro c l c' hc hok hstep
      exact ⟨step_asserts hc.1 hstep, step_covered hc.1 hc.2 hok hstep⟩
  intro d hd
  rcases hboth.2 d hd with ⟨k, hkd, hopen, _⟩ | ⟨j, q, hj, _⟩
  · exact ⟨k, hkd, hopen⟩
  · have hmem := (Table.mem_entries_iff ..).mpr hj
    rw [hquiet] at hmem
    cases hmem

/-! ## a lost close-out -/

namespace Sample

/-- Deployment 1 is pending on station 1 and half done on station 2; `v3` is
imported. -/
def halfDone : Db where
  stations := (Table.empty.insert 1 ⟨"alpha", some 1, none, "v1"⟩).insert 2
    ⟨"beta", some 1, none, "v1"⟩
  groups := Table.empty
  images := ((Table.empty.insert 1 (image "v1")).insert 2 (image "v2")).insert 3 (image "v3")
  deployments := Table.empty.insert 1 ⟨"v2", "release", .all, none, none, .inProgress, [], 0⟩
  results := (Table.empty.insert ⟨1, 1⟩ { imageRelease := 2 }).insert ⟨1, 2⟩
    { imageRelease := 2, status := .installing }

theorem idle_halfDone : Idle (idleServer halfDone) where
  procs := rfl
  numbered := Server.numbered_of_entries (by decide) (by decide)

/-- `v3` is deployed to station 1: all statements up to the commit. -/
def creation : List (Sched Request Event) :=
  [.spawn 0 (.create ⟨"v3", "release", .station, none, some 1, none⟩), .advance 0 (.exec 1),
    .advance 0 (.exec 2), .advance 0 (.exec 3), .advance 0 (.exec 4), .advance 0 (.exec 5),
    .advance 0 (.exec 6)]

/-- The commit and the response. -/
def committed : List (Sched Request Event) := [.advance 0 (.exec 7), .advance 0 (.exec 8)]

/-- Station 2 reports a failure: all statements up to the roll-up. -/
def failure : List (Sched Request Event) :=
  [.spawn 1 (.statusUpdate 2 ⟨1, 2⟩ .failed "no space"), .advance 1 (.exec 9),
    .advance 1 (.exec 10), .advance 1 (.exec 11), .advance 1 (.exec 12)]

/-- The end of the roll-up of a deployment with no unfinished child. -/
def closed : List (Sched Request Event) := [.advance 1 (.exec 13), .advance 1 (.exec 14)]

/-- The number of open requests, the status of deployment 1 and those of its
results, and the status of deployment 2. -/
def overview (c : Pool Server Proc) :
    Nat × Option DeploymentStatus × List ResultStatus × Option DeploymentStatus :=
  (c.procs.entries.length, c.shared.db.statusOf 1, c.shared.db.childStatuses 1,
    c.shared.db.statusOf 2)

end Sample

theorem no_deployment_stranded_sample : ∃ c,
    Reachable serverStep (fun c l => misses c l = false) (Sample.idleServer Sample.halfDone) c ∧
    c.shared.db.statusOf 1 = some .failed ∧ c.shared.db.statusOf 2 = some .inProgress ∧
    NoneStranded c.shared := by
  obtain ⟨c, hreach, heq⟩ := exists_avoiding serverStep misses (Sample.idleServer Sample.halfDone)
    (Sample.creation ++ Sample.committed ++ Sample.failure ++ Sample.closed)
    (P := fun c => Sample.overview c =
      (0, some .failed, [.superseded, .failed], some .inProgress)) (by decide)
  have hquiet : c.Quiescent := List.eq_nil_of_length_eq_zero (congrArg Prod.fst heq)
  exact ⟨c, hreach, congrArg (·.2.1) heq, congrArg (·.2.2.2) heq,
    no_deployment_stranded _ c Sample.idle_halfDone
      (noneStranded_of_entries (by decide)) hreach hquiet⟩

/-- The failure of station 2 is rolled up while the superseding creation has
not committed: both results of deployment 1 are finished, no request is left,
and it stays in progress. -/
theorem deployment_stranded : Idle (Sample.idleServer Sample.halfDone) ∧
    NoneStranded (Sample.idleServer Sample.halfDone).shared ∧
    ∃ c, Reachable serverStep (fun _ _ => True) (Sample.idleServer Sample.halfDone) c ∧
      c.Quiescent ∧ c.shared.db.statusOf 1 = some .inProgress ∧
      c.shared.db.childStatuses 1 = [.superseded, .failed] := by
  refine ⟨Sample.idle_halfDone, noneStranded_of_entries (by decide), ?_⟩
  obtain ⟨c, hreach, heq⟩ := exists_reachable serverStep (Sample.idleServer Sample.halfDone)
    (Sample.creation ++ Sample.failure ++ Sample.committed)
    (P := fun c => Sample.overview c =
      (0, some .inProgress, [.superseded, .failed], some .inProgress)) (by decide)
  exact ⟨c, hreach, List.eq_nil_of_length_eq_zero (congrArg Prod.fst heq),
    congrArg (·.2.1) heq, congrArg (·.2.2.1) heq⟩

end StationManager.Deployments
