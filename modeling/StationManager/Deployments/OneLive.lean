import StationManager.Deployments.Stranded

/-!
# StationManager.Deployments.OneLive

A station has at most one unfinished result.  No database constraint says so:
it rests on `create_deployment`, the only request that adds unfinished results.
It locks the rows of its stations first and keeps them to its end, so that two
creations for one station come one after the other, and for every result it
adds it supersedes the pending ones of that station, or adds none if one is
past pending.

`Sole` is what an open creation knows: it holds the rows of its stations, and
it has superseded whatever is unfinished there besides its own results.  Other
requests only finish results of that station, so `Sole` survives them.
-/

namespace StationManager.Deployments

theorem ResultKey.eq_of {k k' : ResultKey} (hd : k.deployment = k'.deployment)
    (hs : k.station = k'.station) : k = k' := by
  cases k
  cases k'
  cases hd
  cases hs
  rfl

/-- No station has two unfinished results. -/
def Server.OneLive (s : Server) : Prop :=
  ∀ k k', s.Open k → s.Open k' → k.station = k'.station → k = k'

theorem Server.oneLive_of_entries {s : Server}
    (h : ∀ e ∈ s.db.results.entries, ∀ e' ∈ s.db.results.entries,
      e.2.status.isNonTerminal = true → e'.2.status.isNonTerminal = true →
      e.1.station = e'.1.station → e.1 = e'.1) : s.OneLive := by
  intro k k' ⟨r, hr, hopen⟩ ⟨r', hr', hopen'⟩ hstation
  have hmem := (Table.mem_entries_iff ..).mpr hr
  have hmem' := (Table.mem_entries_iff ..).mpr hr'
  exact h _ hmem _ hmem' hopen hopen' hstation

/-- What an open creation knows about its stations: it holds their rows, and
what is unfinished on a station that it serves is superseded by it. -/
structure Tx.Sole (tx : Tx) (i : Nat) (s : Server) : Prop where
  todo : ∀ p ∈ tx.todo, p.ok = true → s.Holds i (.station p.pk)
  held : ∀ e ∈ tx.results, s.Holds i (.station e.1.station)
  alone : ∀ e ∈ tx.results, ∀ k, s.Open k → k.station = e.1.station →
    ∃ f ∈ tx.superseded, f.1 = k

/-- What a process of a creation knows about its stations. -/
structure Alone (i : Nat) (p : Proc) (s : Server) : Prop where
  locked : ∀ r plans stations, p = .createInsert r plans stations →
    ∀ e ∈ stations, s.Holds i (.station e.1)
  tx : ∀ tx close, p.tx = some (tx, close) → tx.Sole i s

section Steps

variable {s s' : Server} {i j : Nat} {now : Time} {p p' : Proc} {k : ResultKey}

theorem Alone.of_none (htx : p.tx = none)
    (hins : ∀ r plans stations, p ≠ .createInsert r plans stations) : Alone i p s where
  locked := fun r plans stations h => absurd h (hins r plans stations)
  tx := by
    intro tx close h
    rw [htx] at h
    cases h

theorem Alone.of_tx {tx : Tx} {close : List Pk} (hp : p.tx = some (tx, close))
    (hs : tx.Sole i s) : Alone i p s where
  locked := by
    rintro r plans stations rfl
    cases hp
  tx := by
    intro tx' close' h
    rw [hp] at h
    cases h
    exact hs

/-! ## what a statement opens -/

/-- The results that the next statement of a process adds, unfinished. -/
def Proc.adds (p : Proc) : List ResultKey := match p with
  | .create tx [] => tx.results.map Prod.fst
  | _ => []

theorem Server.Open.of_results (h : s'.Open k) (heq : s'.db.results = s.db.results) : s.Open k := by
  obtain ⟨r, hr, hopen⟩ := h
  exact ⟨r, heq ▸ hr, hopen⟩

theorem Server.Open.of_lock {rows : List Row} (h : s'.Open k) (hlock : s.lock i rows = some s') :
    s.Open k :=
  h.of_results (by rw [(Server.lock_db hlock).1])

/-- Saving a result opens no other one, and none if it finishes the result. -/
theorem open_of_setResult {k' : ResultKey} {f : DeploymentResult → DeploymentResult}
    (h : (s.setDb (s.db.setResult k' f)).Open k)
    (hf : s.Open k' ∨ ∀ r, (f r).status.isNonTerminal = false) : s.Open k := by
  obtain ⟨r, hr, hopen⟩ := h
  rw [Server.setDb, get?_setResult] at hr
  split at hr
  · next hk =>
    subst hk
    rcases hf with hk | hf
    · exact hk
    · obtain ⟨r', _, rfl⟩ := Option.map_eq_some_iff.mp hr
      rw [hf r'] at hopen
      cases hopen
  · exact ⟨r, hr, hopen⟩

/-- An unfinished result in the view of a creation is its own, or it was
unfinished before and is not superseded. -/
theorem Tx.open_of_view {tx : Tx} (h : (s.setDb (tx.view s.db)).Open k) :
    (∃ e ∈ tx.results, e.1 = k) ∨ s.Open k ∧ ∀ f ∈ tx.superseded, f.1 ≠ k := by
  obtain ⟨r, hr, hopen⟩ := h
  rw [Server.setDb, Tx.get?_view_results] at hr
  cases hold : s.db.results.get? k with
  | none =>
    rw [hold] at hr
    obtain ⟨e, he, _⟩ := Option.map_eq_some_iff.mp hr
    exact .inl ⟨e, List.mem_of_find?_eq_some he, by simpa using List.find?_some he⟩
  | some old =>
    rw [hold] at hr
    have hseen : tx.seenResult k old = r := by simpa using hr
    have hkept : ∀ f ∈ tx.superseded, f.1 ≠ k := by
      rintro f hf rfl
      have hstatus := Tx.seenResult_of_mem hf old
      rw [hseen] at hstatus
      rw [hstatus] at hopen
      cases hopen
    rw [Tx.seenResult_of_notMem hkept] at hseen
    exact .inr ⟨⟨old, hold, by rw [hseen]; exact hopen⟩, hkept⟩

/-- **Only a creation opens results**, those it has prepared. -/
theorem executed_opens (hp : Asserts i p s) (h : Executed s i now p s' p') (hk : s'.Open k) :
    s.Open k ∨ k ∈ p.adds := by
  cases h with
  | statusLocked hlock | commitLocked hlock | cancelLocked hlock | stationsLocked hlock
  | closed hlock => exact .inl (hk.of_lock hlock)
  | stationServed _ _ _ _ hlock => exact .inl (hk.of_lock hlock)
  | inserted hlock => exact .inl (hk.of_results (by rw [(Server.lock_db hlock).1]))
  | cancelledLate _ hlock =>
    exact .inl (hk.of_results (by rw [Server.unlock, (Server.lock_db hlock).1]))
  | reportFinal | reportProgress =>
    have hopen := hp.reports _ _ _ rfl
    exact .inl (open_of_setResult (hk.of_results rfl) (.inl hopen))
  | commitMismatch => exact .inl (open_of_setResult hk (.inr fun _ => rfl))
  | @committed k' version _ savedAt =>
    have hsaved : (s.setDb (s.db.setResult k' fun r => r.commit savedAt version)).Open k :=
      hk.of_results rfl
    exact .inl (open_of_setResult hsaved (.inr fun _ => rfl))
  | completeFlipped =>
    refine .inl (hk.of_results ?_)
    unfold Db.flipInProgress
    split <;> rfl
  | @cancelled d =>
    obtain ⟨r, hr, hopen⟩ := hk
    simp only [Server.unlock, Server.setDb, Db.cancelDeployment, Db.setStatus_results,
      Table.get?_map] at hr
    obtain ⟨old, hold, heq⟩ := Option.map_eq_some_iff.mp hr
    split at heq
    · cases heq
      cases hopen
    · exact .inl ⟨r, heq ▸ hold, hopen⟩
  | created =>
    rcases Tx.open_of_view (hk.of_results rfl) with ⟨e, he, rfl⟩ | ⟨hold, _⟩
    · exact .inr (List.mem_map.mpr ⟨e, he, rfl⟩)
    · exact .inl hold
  | rolledBack => exact .inl (hk.of_results rfl)
  | regrouped => exact .inl (hk.of_results rfl)
  | _ => exact .inl hk

/-- A creation holds the station rows of the results it adds. -/
theorem holds_of_adds (ha : Alone i p s) (hk : k ∈ p.adds) : s.Holds i (.station k.station) := by
  unfold Proc.adds at hk
  split at hk
  · obtain ⟨e, he, rfl⟩ := List.mem_map.mp hk
    exact (ha.tx _ [] rfl).held e he
  · cases hk

/-! ## the stations of a creation -/

/-- A plan made again under the locks serves only locked stations. -/
theorem mem_locked_of_replan {db : Db} {r : CreateRequest} {plans : List StationPlan}
    {stations : List (Pk × Station)} {q : StationPlan} (hq : q ∈ replan db r plans stations)
    (hok : q.ok = true) : ∃ e ∈ stations, e.1 = q.pk := by
  obtain ⟨p, _, heq⟩ := List.mem_map.mp hq
  split at heq
  · cases hfound : (planDeployment db r.tag r.channel stations).find? fun q => q.pk = p.pk with
    | none =>
      rw [hfound] at heq
      subst heq
      cases hok
    | some found =>
      rw [hfound] at heq
      obtain ⟨e, he, hplan⟩ := List.mem_map.mp (List.mem_of_find?_eq_some hfound)
      refine ⟨e, he, ?_⟩
      rw [← planStation_pk db r.tag r.channel e, hplan, ← heq]
      rfl
  · next hp =>
    subst heq
    exact absurd hok hp

/-- The results of a station that a creation serves: the ones it has met, and
whatever is unfinished is among them. -/
theorem Tx.Sole.serve {tx : Tx} {q : StationPlan} {todo : List StationPlan}
    {rows : List (ResultKey × DeploymentResult)} {locked : Server} (hv : tx.Valid i s)
    (hs : tx.Sole i s) (htodo : tx.todo = q :: todo) (hok : q.ok = true)
    (hrows : rows = unfinishedElsewhere (tx.view s.db) q.pk tx.deployment)
    (hlock : s.lock i (rows.map fun e => .result e.1) = some locked) :
    Tx.Sole
      { tx with
        todo, finals := tx.finals ++ [q]
        results := tx.results ++ [(⟨tx.deployment, q.pk⟩, Tx.newResult q)]
        superseded := tx.superseded ++ rows.map fun e => (e.1, now) } i locked := by
  have hheld : s.Holds i (.station q.pk) := hs.todo q (by rw [htodo]; exact List.mem_cons_self) hok
  refine ⟨?_, ?_, ?_⟩
  · intro p hp hpok
    refine Server.lock_keeps hlock (hs.todo p ?_ hpok)
    rw [htodo]
    exact List.mem_cons_of_mem _ hp
  · intro e he
    refine Server.lock_keeps hlock ?_
    rcases List.mem_append.mp he with he | he
    · exact hs.held e he
    · cases List.mem_singleton.mp he
      exact hheld
  · intro e he k hk hstation
    have hold : s.Open k := hk.of_lock hlock
    by_cases hsup : ∃ f ∈ tx.superseded, f.1 = k
    · obtain ⟨f, hf, rfl⟩ := hsup
      exact ⟨f, List.mem_append_left _ hf, rfl⟩
    · rcases List.mem_append.mp he with he | he
      · exact absurd (hs.alone e he k hold hstation) hsup
      · cases List.mem_singleton.mp he
        -- an unfinished row of the station that the creation has not superseded is one it meets now
        obtain ⟨r, hr, hopen⟩ := hold
        have hne : k.deployment ≠ tx.deployment := by
          intro heq
          have hnone := hv.unused k.station
          rw [← heq] at hnone
          rw [hnone] at hr
          cases hr
        have hview : (tx.view s.db).results.get? k = some r := by
          rw [hv.results_ne hne, hr, Option.map_some,
            Tx.seenResult_of_notMem fun f hf heq => hsup ⟨f, hf, heq⟩]
        have hmem : (k, r) ∈ rows := by
          rw [hrows]
          simp only [unfinishedElsewhere, List.mem_filter, List.mem_reverse, decide_eq_true_eq]
          exact ⟨(Table.mem_entries_iff ..).mpr hview, hstation, hopen, hne⟩
        exact ⟨(k, now), List.mem_append_right _ (List.mem_map.mpr ⟨_, hmem, rfl⟩), rfl⟩

theorem Tx.Sole.of_results {tx tx' : Tx} (hs : tx.Sole i s) (hres : tx'.results = tx.results)
    (hsup : tx'.superseded = tx.superseded) (htodo : ∀ p ∈ tx'.todo, p ∈ tx.todo) :
    tx'.Sole i s where
  todo := fun p hp => hs.todo p (htodo p hp)
  held := by
    rw [hres]
    exact hs.held
  alone := by
    rw [hres, hsup]
    exact hs.alone

/-- **A creation keeps its stations to itself.** -/
theorem executed_alone (hp : Asserts i p s) (ha : Alone i p s) (h : Executed s i now p s' p') :
    Alone i p' s' := by
  cases h with
  | stationsLocked hlock =>
    refine ⟨?_, fun _ _ h => nomatch h⟩
    rintro _ _ _ ⟨⟩ e he
    exact Server.holds_of_lock hlock (List.mem_map.mpr ⟨e, he, rfl⟩)
  | inserted hlock =>
    refine .of_tx rfl ⟨?_, List.forall_mem_nil _, List.forall_mem_nil _⟩
    intro q hq hok
    obtain ⟨e, he, heq⟩ := mem_locked_of_replan ((List.mem_insertionSort _).mp hq) hok
    have hheld : s.Holds i (.station e.1) := ha.locked _ _ _ rfl e he
    rw [← heq]
    exact (Server.lock_keeps hlock hheld : Server.Holds _ i _)
  | closeSkipped | closeStarted | statusesOpen | statusesClosed => exact .of_tx rfl (ha.tx _ _ rfl)
  | stationSkipped _ htodo _ =>
    refine .of_tx rfl ((ha.tx _ _ rfl).of_results rfl rfl fun q hq => ?_)
    rw [htodo]
    exact List.mem_cons_of_mem _ hq
  | stationServed htodo hok hrows _ hlock =>
    exact .of_tx rfl ((ha.tx _ _ rfl).serve (hp.tx _ _ rfl).1 htodo hok hrows hlock)
  | @closed tx _ _ _ _ hlock =>
    have hs := ha.tx _ _ rfl
    refine .of_tx rfl ⟨fun q hq hok => ?_, fun e he => ?_, fun e he k hk => ?_⟩
    · exact Server.lock_keeps hlock (hs.todo q hq hok)
    · exact Server.lock_keeps hlock (hs.held e he)
    · exact hs.alone e he k (hk.of_lock hlock)
  | _ => exact .of_none rfl (fun _ _ _ h => by cases h)

/-! ## runs -/

/-- What a creation knows survives the statements of the others: an unfinished
result that they add is one of a station they hold themselves. -/
theorem Alone.mono (ha : Alone j p s) (hl : Leaves j s s')
    (hopen : ∀ k, s'.Open k → s.Open k ∨ ∃ i, i ≠ j ∧ s.Holds i (.station k.station)) :
    Alone j p s' where
  locked := fun r plans stations hp e he => hl.locks _ (ha.locked r plans stations hp e he)
  tx := by
    intro tx close hp
    have hs := ha.tx tx close hp
    refine ⟨fun q hq hok => hl.locks _ (hs.todo q hq hok), fun e he => hl.locks _ (hs.held e he), ?_⟩
    intro e he k hk hstation
    rcases hopen k hk with hold | ⟨i, hne, hheld⟩
    · exact hs.alone e he k hold hstation
    · have hown := hs.held e he
      rw [← hstation] at hown
      rw [Server.Holds, hheld] at hown
      exact absurd (Option.some.inj hown) hne

/-- A statement of a server without two unfinished results on a station leaves
none. -/
theorem executed_oneLive (hp : Asserts i p s) (ha : Alone i p s) (h : Executed s i now p s' p')
    (hone : s.OneLive) : s'.OneLive := by
  -- a statement that opens nothing is immediate; one that does is the commit of a creation
  by_cases hadds : p.adds = []
  · intro k k' hk hk' hstation
    have hold : ∀ k, s'.Open k → s.Open k := fun k hk =>
      (executed_opens hp h hk).resolve_right fun hmem => by
        rw [hadds] at hmem
        cases hmem
    exact hone k k' (hold k hk) (hold k' hk') hstation
  · cases h with
    | @created tx =>
      obtain ⟨hv, _⟩ := hp.tx tx [] rfl
      have hs := ha.tx tx [] rfl
      have hmixed : ∀ e ∈ tx.results, ∀ k, s.Open k → (∀ f ∈ tx.superseded, f.1 ≠ k) →
          k.station = e.1.station → False := by
        intro e he k hold hkept hstation
        obtain ⟨f, hf, heq⟩ := hs.alone e he k hold hstation
        exact hkept f hf heq
      intro k k' hk hk' hstation
      rcases Tx.open_of_view (hk.of_results rfl) with ⟨e, he, rfl⟩ | ⟨hold, hkept⟩
      · rcases Tx.open_of_view (hk'.of_results rfl) with ⟨e', he', rfl⟩ | ⟨hold', hkept'⟩
        · have hd := (hv.inserts e he).1.trans (hv.inserts e' he').1.symm
          exact ResultKey.eq_of hd hstation
        · exact (hmixed e he k' hold' hkept' hstation.symm).elim
      · rcases Tx.open_of_view (hk'.of_results rfl) with ⟨e', he', rfl⟩ | ⟨hold', hkept'⟩
        · exact (hmixed e' he' k hold hkept hstation).elim
        · exact hone k k' hold hold' hstation
    | rolledBack => exact fun k k' hk hk' => hone k k' (hk.of_results rfl) (hk'.of_results rfl)
    | stationSkipped => exact hone
    | stationServed _ _ _ _ hlock =>
      exact fun k k' hk hk' => hone k k' (hk.of_lock hlock) (hk'.of_lock hlock)
    | _ => exact absurd rfl hadds

end Steps

/-- The invariant of the server: what the requests rely on, what the creations
know, and no second unfinished result. -/
def Single (c : Pool Server Proc) : Prop :=
  c.Holds Server.Numbered Asserts ∧ c.Holds Server.OneLive Alone

theorem step_single {c c' : Pool Server Proc} {l : Sched Request Event} (hc : Single c)
    (h : serverStep c l = some c') : Single c' := by
  refine ⟨step_asserts hc.1 h, ?_⟩
  refine Pool.invariant_step (fun c _ => c.Holds Server.Numbered Asserts) ?_ ?_ ?_ hc.2 hc.1 h
  · intro c i r p _ _ hstart
    cases r <;> cases hstart <;> exact .of_none rfl (fun _ _ _ h => by cases h)
  · intro c i p e s' q hc hasserts hi hact
    have hp := hasserts.2 i p hi
    have ha := hc.2 i p hi
    cases acted_of_act hact with
    | exec now hexec =>
      refine ⟨executed_oneLive hp ha hexec hc.1, ?_⟩
      rintro p' ⟨⟩
      exact executed_alone hp ha hexec
    | done => exact ⟨hc.1, fun _ h => nomatch h⟩
    | abort =>
      refine ⟨fun k k' hk hk' => hc.1 k k' (hk.of_results rfl) (hk'.of_results rfl), ?_⟩
      rintro p' ⟨⟩
      exact .of_none rfl (fun _ _ _ h => by cases h)
  · intro c i p e s' q j p' hc hasserts hi hact hne hj
    have hp := hasserts.2 i p hi
    refine (hc.2 j p' hj).mono (acted_leaves hp (acted_of_act hact) hne) fun k hk => ?_
    cases acted_of_act hact with
    | exec now hexec =>
      rcases executed_opens hp hexec hk with hold | hadds
      · exact .inl hold
      · exact .inr ⟨i, hne.symm, holds_of_adds (hc.2 i p hi) hadds⟩
    | done => exact .inl hk
    | abort => exact .inl (hk.of_results rfl)

/-- **At most one unfinished result per station**, in every state of every run:
whatever creations, status reports, commits and cancellations overlap, and
whatever the database aborts. -/
theorem one_unfinished_result (c₀ c : Pool Server Proc) (h₀ : Idle c₀)
    (hone : c₀.shared.OneLive) (h : Reachable serverStep (fun _ _ => True) c₀ c)
    (k k' : ResultKey) (r r' : DeploymentResult) (hr : c.shared.db.results.get? k = some r)
    (hr' : c.shared.db.results.get? k' = some r') (hopen : r.status.isTerminal = false)
    (hopen' : r'.status.isTerminal = false) (hstation : k.station = k'.station) : k = k' := by
  have hinit : Single c₀ := by
    have hreach : Reachable serverStep (fun _ _ => True) c₀ c₀ := .init
    refine ⟨asserts_of_reachable h₀ hreach, hone, ?_⟩
    intro i p hp
    rw [h₀.procs] at hp
    cases hp
  have hsingle := h.invariant hinit fun c l c' hc _ hstep => step_single hc hstep
  refine hsingle.2.1 k k' ⟨r, hr, ?_⟩ ⟨r', hr', ?_⟩ hstation
  · rw [ResultStatus.isNonTerminal_eq_not, hopen]
    rfl
  · rw [ResultStatus.isNonTerminal_eq_not, hopen']
    rfl

/-- Station 1 of the sample gets `v3` while `v2` is pending there: afterwards
the new result is the only unfinished one. -/
theorem one_unfinished_result_sample : ∃ c,
    Reachable serverStep (fun _ _ => True) (Sample.idleServer Sample.halfDone) c ∧
    (c.shared.db.results.get? ⟨1, 1⟩).map (·.status) = some .superseded ∧
    ∃ r, c.shared.db.results.get? ⟨2, 1⟩ = some r ∧ r.status.isTerminal = false ∧
      ∀ k r', c.shared.db.results.get? k = some r' → r'.status.isTerminal = false →
        k.station = 1 → k = ⟨2, 1⟩ := by
  obtain ⟨c, hreach, hrow, hold⟩ := exists_reachable serverStep
    (Sample.idleServer Sample.halfDone) (Sample.creation ++ Sample.committed)
    (P := fun c => c.shared.db.results.get? ⟨2, 1⟩ =
        some { imageRelease := 3, previousVersion := "v1" } ∧
      (c.shared.db.results.get? ⟨1, 1⟩).map (·.status) = some .superseded) (by decide)
  have hone : (Sample.idleServer Sample.halfDone).shared.OneLive :=
    Server.oneLive_of_entries (by decide)
  refine ⟨c, hreach, hold, _, hrow, rfl, ?_⟩
  intro k r' hr' hopen hstation
  exact one_unfinished_result _ c Sample.idle_halfDone hone hreach k ⟨2, 1⟩ r' _ hr' hrow hopen rfl
    hstation

end StationManager.Deployments
