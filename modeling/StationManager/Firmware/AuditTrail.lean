import Mathlib.Data.List.Chain
import StationManager.Firmware.WellFormed

/-!
# StationManager.Firmware.AuditTrail

What the audit log tells about one convergence row.  The entries `not_updatable`
and `updatable_again` mark the detour of a row whose boot key does not fit: each
opens or closes it, so they alternate and the latest one says where the row
stands.  The entry `gave_up` stands for one way into `failed`, the transient cap;
a row that comes back to `failed` from a detour has none.

`Moves` says what one update does to the state and what it logs, `Told` what all updates of
an operation do.  Only a status report gives a row up: every other operation finds it below
the cap (`ConvergenceState.Settled`).
-/

namespace StationManager.Firmware

/-- The two events of the detour. -/
def EventType.isMark : EventType → Bool
  | .moduleNotUpdatable | .moduleUpdatableAgain => true
  | _ => false

/-! ## one update -/

/-- What an update does to the state of a row, and what it logs. -/
inductive Moves (cs cs' : ConvergenceState) : List EventType → Prop
  | enter (hs : cs.state ≠ .notUpdatable) (hs' : cs'.state = .notUpdatable) :
      Moves cs cs' [.moduleNotUpdatable]
  | leave (hs : cs.state = .notUpdatable) (hs' : cs'.state ≠ .notUpdatable) :
      Moves cs cs' [.moduleUpdatableAgain]
  | giveUp (hs : cs.state.isSticky = false) (hs' : cs'.state = .failed) :
      Moves cs cs' [.moduleFlashGaveUp]
  | plain {es : List EventType} (hes : ∀ e ∈ es, e = .moduleFlashInstructed)
      (hs : cs'.state = .notUpdatable ↔ cs.state = .notUpdatable) : Moves cs cs' es

variable {cs cs' : ConvergenceState} {marks : List EventType} {inside : Prop}

open ConvergenceState

/-- An update that keeps the state and logs nothing. -/
theorem Moves.same (h : cs'.state = cs.state) : Moves cs cs' [] :=
  .plain (by simp) (by rw [h])

/-- An update between two states that are no detour. -/
theorem Moves.between (hs : cs.state ≠ .notUpdatable) (hs' : cs'.state ≠ .notUpdatable) :
    Moves cs cs' [] :=
  .plain (by simp) ⟨fun h => absurd h hs', fun h => absurd h hs⟩

/-- The events of an outcome. -/
def Outcome.events (o : Outcome) : List EventType :=
  (o.audits.map Prod.fst).filter EventType.isTrail

theorem reached_moves (uid : Uid) (desired : Release) (now : Time) :
    Moves cs (reached uid desired now cs).row (reached uid desired now cs).events := by
  by_cases hs : cs.state = .notUpdatable
  · have hev : (reached uid desired now cs).events = [.moduleUpdatableAgain] := by
      simp [Outcome.events, reached, hs, EventType.isTrail]
    rw [hev]
    exact .leave hs (by simp [reached, ConvergenceState.toOk])
  · have hev : (reached uid desired now cs).events = [] := by
      simp [Outcome.events, reached, hs]
    rw [hev]
    exact .between hs (by simp [reached, ConvergenceState.toOk])

theorem keyMismatch_moves (m : Module) (now : Time) :
    Moves cs (keyMismatch m now cs).row (keyMismatch m now cs).events := by
  unfold keyMismatch
  by_cases hs : cs.state = .notUpdatable
  · rw [if_pos hs]
    exact .same rfl
  · rw [if_neg hs]
    exact .enter hs rfl

/-- The last steps of `_decide` on a row outside a detour. -/
theorem settle_moves (uid : Uid) (desired : Release) (now : Time) :
    Moves cs (settle uid desired now cs).row (settle uid desired now cs).events := by
  unfold settle
  by_cases hs : cs.state.isSticky = true
  · rw [if_pos hs]
    exact .same rfl
  rw [if_neg hs]
  replace hs : cs.state.isSticky = false := Bool.eq_false_iff.mpr hs
  by_cases hcap : drainTransientLimit ≤ cs.transientFailures
  · rw [if_pos hcap]
    exact .giveUp hs rfl
  · rw [if_neg hcap]
    refine .between (fun h => ?_) (by simp [ConvergenceState.toUpdating])
    rw [h] at hs
    cases hs

/-- Step 3 of `_decide` changes nothing, or ends the detour in a row that the
last steps keep out of it. -/
theorem keyFixed_settle_moves (hinv : cs.RowInv) (uid : Uid) (m : Module) (desired : Release)
    (now : Time) : Moves cs (settle uid desired now (keyFixed uid m desired now cs).1).row
      (((keyFixed uid m desired now cs).2.map Prod.fst).filter EventType.isTrail ++
        (settle uid desired now (keyFixed uid m desired now cs).1).events) := by
  unfold keyFixed
  simp only
  split
  · next before hs hb =>
    split
    · next hfix =>
      obtain ⟨hsticky, _⟩ := hinv.restore now hs hb
      have hrow : settle uid desired now (cs.restore now before) =
          { row := cs.restore now before, rollup := before.rollup } := if_pos hsticky
      rw [hrow]
      refine .leave hs ?_
      rcases hinv.before_cases hb with rfl | rfl
      · simp [ConvergenceState.restore]
      · simp [ConvergenceState.restore]
    · exact settle_moves uid desired now
  · next hs hb =>
    split
    · next hfix =>
      have hrow : settle uid desired now cs.releaseKey =
          { row := cs.releaseKey.toUpdating now, rollup := .updating } := rfl
      rw [hrow]
      exact .leave hs (by simp [ConvergenceState.toUpdating])
    · exact settle_moves uid desired now
  · exact settle_moves uid desired now

theorem decide_moves (hinv : cs.RowInv) (uid : Uid) (m : Module) (desired : Release) (now : Time) :
    Moves cs (reconcilerDecide uid m desired now cs).row
      (reconcilerDecide uid m desired now cs).events := by
  unfold reconcilerDecide
  split
  · exact reached_moves uid desired now
  · split
    · exact keyMismatch_moves m now
    · have h := keyFixed_settle_moves hinv uid m desired now
      simp only [Outcome.events, List.map_append, List.filter_append] at h ⊢
      exact h

/-- A recorded error is a give-up with its entry, or none, and then the row is quarantined or
keeps its state. -/
theorem error_cases (uid : Uid) (m : Module) (rel : Release) (mode : ErrorMode) (message : String)
    (now : Time) (cs : ConvergenceState) :
    let o := recordErrorOutcome uid m rel mode message now cs
    (o.row.state = .failed ∧ o.events = [.moduleFlashGaveUp]) ∨
      (o.row.state = .quarantined ∨ o.row.state = cs.state) ∧ o.events = [] := by
  intro o
  cases hj : judge mode (cs.stamp mode message now) with
  | mk row atCap =>
    have hevents : o.events = if atCap then [.moduleFlashGaveUp] else [] := by
      simp only [o, recordErrorOutcome, hj]
      cases atCap with
      | true => rfl
      | false =>
        simp only [Bool.false_eq_true, if_false]
        split
        · split <;> rfl
        · split <;> rfl
    cases atCap with
    | true =>
      refine .inl ⟨?_, hevents⟩
      rw [recordErrorOutcome_row_of_cap hj]
      rfl
    | false =>
      refine .inr ⟨?_, hevents⟩
      rw [recordErrorOutcome_row hj]
      cases mode with
      | rejected =>
        cases hj
        exact .inl rfl
      | rolledBack =>
        simp only [judge] at hj
        split at hj
        · cases hj
          exact .inl rfl
        · cases hj
          exact .inr rfl
      | transient =>
        simp only [judge, Prod.mk.injEq] at hj
        obtain ⟨rfl, -⟩ := hj
        exact .inr rfl

theorem error_moves (hs : cs.state.isSticky = false) (uid : Uid) (m : Module) (rel : Release)
    (mode : ErrorMode) (message : String) (now : Time) :
    Moves cs (recordErrorOutcome uid m rel mode message now cs).row
      (recordErrorOutcome uid m rel mode message now cs).events := by
  rcases error_cases uid m rel mode message now cs with ⟨hf, he⟩ | ⟨hq | hsame, he⟩
  · rw [he]
    exact .giveUp hs hf
  · rw [he]
    refine .between (fun h => ?_) (by simp [hq])
    rw [h] at hs
    cases hs
  · rw [he]
    exact .same hsame

/-- **Row step**: what a permitted update of an endpoint does and logs. -/
theorem update_moves {d d' : Db} {op : Op} {k : RowKey} {rop : RowOp} (hinv : cs.RowInv)
    (hp : Permitted d op d' k rop cs) (hop : op.isEndpoint = true) :
    Moves cs (rop.apply cs) (rop.trail cs) := by
  cases rop with
  | decide uid m desired now => exact decide_moves hinv uid m desired now
  | error uid m rel mode message now =>
    refine error_moves ?_ uid m rel mode message now
    rcases hp with hs | ⟨hs, _⟩ | ⟨_, _, _, _, rfl⟩
    · rw [hs]
      rfl
    · rw [hs]
      rfl
    · cases hop
  | instruct now => exact .plain (by simp [RowOp.trail]) Iff.rfl
  | progress phase now => exact .same (progressRow_keeps phase now cs).1
  | commit now => exact .same rfl
  | release now =>
    exact .between (by simp [hp.1]) (by simp [RowOp.apply, releaseRow])
  | retry now =>
    exact .between (by simp [hp.1]) (by simp [RowOp.apply, retryRow])
  | clearNotice => exact .same rfl

/-- An update that holds no new failure has no give-up entry. -/
theorem Moves.count_of_held {es : List EventType} (h : Moves cs cs' es)
    (hf : cs'.Held .failed → cs.Held .failed) : es.count .moduleFlashGaveUp = 0 := by
  cases h with
  | enter | leave => rfl
  | giveUp hs hs' =>
    have hsticky := (hf (.inl hs')).isSticky rfl
    rw [hs] at hsticky
    cases hsticky
  | plain hes =>
    rw [List.count_eq_zero]
    intro hmem
    cases hes _ hmem

/-! ## the marks of a trail -/

/-- The marks alternate, the first one opens a detour, and the last one is open
exactly if `inside` holds. -/
structure Alternates (marks : List EventType) (inside : Prop) : Prop where
  chain : marks.IsChain (· ≠ ·)
  first : marks.head? ≠ some .moduleUpdatableAgain
  last : marks.getLast? = some .moduleNotUpdatable ↔ inside

theorem Alternates.nil (h : ¬inside) : Alternates [] inside :=
  ⟨.nil, by simp, by simpa using h⟩

theorem Alternates.congr {inside' : Prop} (h : Alternates marks inside) (hiff : inside' ↔ inside) :
    Alternates marks inside' :=
  ⟨h.chain, h.first, h.last.trans hiff.symm⟩

/-- The next mark differs from the last one. -/
theorem Alternates.snoc {inside' : Prop} {e : EventType} (h : Alternates marks inside)
    (hne : ∀ x, marks.getLast? = some x → x ≠ e) (hfirst : marks = [] → e ≠ .moduleUpdatableAgain)
    (hlast : e = .moduleNotUpdatable ↔ inside') : Alternates (marks ++ [e]) inside' where
  chain := by
    rw [List.isChain_append]
    refine ⟨h.chain, .singleton e, fun x hx y hy => ?_⟩
    cases hy
    exact hne x hx
  first := by
    cases marks with
    | nil => simpa using hfirst rfl
    | cons x xs => simpa using h.first
  last := by
    rw [List.getLast?_append]
    simpa using hlast

/-- An update keeps the marks alternating. -/
theorem Alternates.move {es : List EventType} (h : Alternates marks (cs.state = .notUpdatable))
    (hm : Moves cs cs' es) :
    Alternates (marks ++ es.filter EventType.isMark) (cs'.state = .notUpdatable) := by
  cases hm with
  | enter hs hs' =>
    refine h.snoc (fun x hx hne => ?_) (by simp) (by simp [hs'])
    rw [hne] at hx
    exact hs (h.last.mp hx)
  | leave hs hs' =>
    have hopen := h.last.mpr hs
    refine h.snoc (fun x hx => ?_) (fun hnil => ?_) (by simp [hs'])
    · rw [hopen] at hx
      cases hx
      simp
    · rw [hnil] at hopen
      cases hopen
  | giveUp hs hs' =>
    have hnone : [EventType.moduleFlashGaveUp].filter EventType.isMark = [] := rfl
    rw [hnone, List.append_nil]
    refine h.congr ⟨fun h => ?_, fun h => ?_⟩
    · rw [hs'] at h
      cases h
    · rw [h] at hs
      cases hs
  | plain hes hs =>
    have hnone : es.filter EventType.isMark = [] := by
      refine List.filter_eq_nil_iff.mpr fun e he => ?_
      rw [hes e he]
      simp [EventType.isMark]
    rw [hnone, List.append_nil]
    exact h.congr hs

/-! ## failures -/

/-- A decision on a settled row gives nothing up. -/
theorem ConvergenceState.Settled.decided_failed {m : Module} {desired : Release} {now : Time}
    (h : cs.Settled) (hd : Decided m desired now cs cs') (hf : cs'.Held .failed) :
    cs.Held .failed := by
  cases hd with
  | reached => simp [Held, toOk] at hf
  | released | updating => simp [Held, toUpdating] at hf
  | mismatch hv hk hs =>
    have hbefore : (if cs.state = .quarantined ∨ cs.state = .failed then some cs.state else none) =
        some .failed := (hf.resolve_left (by simp [toNotUpdatable])).2
    split at hbefore
    · exact .inl (Option.some.inj hbefore)
    · cases hbefore
  | restored before hs hb hfix uid =>
    obtain ⟨hsticky, -⟩ := h.restore now hs hb
    rw [settle_row_of_sticky uid desired now hsticky] at hf
    have hbefore : before = .failed := hf.resolve_right fun hn => by cases hn.2
    exact .inr ⟨hs, by rw [hb, hbefore]⟩
  | kept hs => exact hf
  | gaveUp hs hcap =>
    refine absurd hcap (Nat.not_le.mpr ?_)
    cases hst : cs.state with
    | ok => exact h.okBelowCap hst
    | updating => exact (h.updating hst).2.1
    | _ =>
      rw [hst] at hs
      cases hs

section Made

variable {d d' : Db} {op : Op} {k : RowKey} {rop : RowOp}

/-- Only an update of a status report gives a settled row up. -/
theorem failed_of_apply (h : cs.Settled) (hm : Makes d op d' k rop cs) (hop : op.isEndpoint = true)
    (hs : op.isStatus = false) (hf : (rop.apply cs).Held .failed) : cs.Held .failed := by
  cases rop with
  | decide uid m desired now =>
    exact h.decided_failed (reconcilerDecide_decided uid m desired now cs) hf
  | error uid m rel mode message now =>
    have hmade := hm.2
    have he := recordErrorOutcome_errored uid m rel mode message now cs
    rw [RowOp.apply] at hf
    generalize (recordErrorOutcome uid m rel mode message now cs).row = row at he hf
    cases he with
    | rejected | quarantined => simp [Held] at hf
    | counted | failure => exact hf
    | gaveUp hmode => simp [Op.makes, hs, hop, hmode] at hmade
  | progress phase now => cases hs.symm.trans hm.2
  | release | retry => simp [Held, RowOp.apply, releaseRow, retryRow] at hf
  | commit | instruct | clearNotice => exact hf

/-- A status report comes to a row that has not failed, and gives it up with one entry. -/
theorem count_of_report (hm : Makes d op d' k rop cs) (hs : op.isStatus = true) :
    ¬cs.Held .failed ∧ (rop.trail cs).count .moduleFlashGaveUp =
      if (rop.apply cs).Held .failed then 1 else 0 := by
  cases rop with
  | error uid m rel mode message now =>
    have hst : cs.state = .updating ∨ cs.state = .ok := by
      rcases hm.1 with h | ⟨h, _⟩ | ⟨_, _, _, _, rfl⟩
      · exact .inl h
      · exact .inr h
      · cases hs
    have hno : cs.state ≠ .failed ∧ cs.state ≠ .notUpdatable := by
      rcases hst with h | h <;> simp [h]
    refine ⟨fun hf => hf.elim hno.1 fun hn => hno.2 hn.1, ?_⟩
    have hevents : RowOp.trail (.error uid m rel mode message now) cs =
        (recordErrorOutcome uid m rel mode message now cs).events := rfl
    rw [hevents, RowOp.apply]
    rcases error_cases uid m rel mode message now cs with ⟨hf, he⟩ | ⟨hq | hsame, he⟩
    · rw [he, if_pos (.inl hf)]
      rfl
    · rw [he, if_neg (by simp [Held, hq])]
      rfl
    · rw [he, if_neg (by simp [Held, hsame, hno])]
      rfl
  | progress phase now =>
    have hst : cs.state = .updating := hm.1
    have hst' : (progressRow phase now cs).state = .updating :=
      (progressRow_keeps phase now cs).1.trans hst
    exact ⟨by simp [Held, hst],
      by simp [Held, RowOp.trail, RowOp.apply, hst']⟩
  | _ =>
    have hmade := hm.2
    cases op <;> simp [Op.makes, Op.isStatus, Op.isCheck] at hs hmade

end Made

/-! ## the updates of an operation -/

/-- The row is stored and on its detour. -/
def OnDetour (o : Option ConvergenceState) : Prop := o.map (·.state) = some .notUpdatable

/-- The row is stored and has failed; a detour may hide it. -/
def Failed (o : Option ConvergenceState) : Bool := o.any fun cs => cs.Held .failed

/-- What the updates of an operation have made of a row, and logged, if `marks` were there
before. -/
structure Told (op : Op) (o : Option ConvergenceState) (marks : List EventType) (us : Updates)
    (o' : Option ConvergenceState) : Prop where
  settled : ∀ cs, o' = some cs → cs.Settled
  marks : Alternates (marks ++ us.trail.filter EventType.isMark) (OnDetour o')
  gaveUps : us.trail.count .moduleFlashGaveUp = if Failed o' && !Failed o then 1 else 0
  kept : op.isStatus = true → Failed o = true → Failed o' = true
  fresh : op.isStatus = false → Failed o' = true → Failed o = true

section Told

variable {d d' : Db} {op : Op} {k : RowKey} {us : Updates} {rop : RowOp}
  {o o₁ : Option ConvergenceState}

theorem Updates.trail_snoc (us : Updates) (op : RowOp) (cs : ConvergenceState) :
    Updates.trail (us ++ [(op, cs)]) = us.trail ++ op.trail cs := by
  simp [Updates.trail]

/-- One more update, of a row like `cs`. -/
theorem Told.snoc (h : Told op o marks us o₁) (hdetour : OnDetour o₁ ↔ cs.state = .notUpdatable)
    (hfailed : Failed o₁ = true ↔ cs.Held .failed) (hsettled : cs.Settled)
    (hm : Makes d op d' k rop cs) (hop : op.isEndpoint = true) :
    Told op o marks (us ++ [(rop, cs)]) (some (rop.apply cs)) := by
  have hmoves := update_moves hsettled.toRowInv hm.1 hop
  have hnew : Failed (some (rop.apply cs)) = true ↔ (rop.apply cs).Held .failed := by
    simp [Failed]
  have hmarks : Alternates (marks ++ (us ++ [(rop, cs)]).trail.filter EventType.isMark)
      (OnDetour (some (rop.apply cs))) := by
    rw [Updates.trail_snoc, List.filter_append, ← List.append_assoc]
    exact ((h.marks.congr hdetour.symm).move hmoves).congr (by simp [OnDetour])
  have hsettled' : ∀ cs', some (rop.apply cs) = some cs' → cs'.Settled := by
    rintro _ ⟨⟩
    exact settled_apply hsettled hm.1 hop
  cases hs : op.isStatus with
  | true =>
    obtain ⟨hno, hcount⟩ := count_of_report hm hs
    have hold : Failed o₁ = false := Bool.eq_false_iff.mpr (mt hfailed.mp hno)
    have hfirst : Failed o = false :=
      Bool.eq_false_iff.mpr fun hf => Bool.eq_false_iff.mp hold (h.kept hs hf)
    refine ⟨hsettled', hmarks, ?_, fun _ hf => ?_, fun hn => ?_⟩
    · rw [Updates.trail_snoc, List.count_append, h.gaveUps, hold, hcount, hfirst]
      simp [Failed]
    · cases hfirst.symm.trans hf
    · cases hs.symm.trans hn
  | false =>
    have hback := failed_of_apply hsettled hm hop hs
    have hfirst : Failed (some (rop.apply cs)) = true → Failed o = true :=
      fun hf => h.fresh hs (hfailed.mpr (hback (hnew.mp hf)))
    refine ⟨hsettled', hmarks, ?_, fun hn => ?_, fun _ => hfirst⟩
    · have hzero : ∀ x y : Bool, (x = true → y = true) → (if x && !y then 1 else 0) = 0 := by decide
      rw [Updates.trail_snoc, List.count_append, h.gaveUps, hmoves.count_of_held hback,
        hzero _ _ (h.fresh hs), hzero _ _ hfirst]
    · cases hs.symm.trans hn

/-- **Run**: all updates of an operation. -/
theorem RowRun.told {o' : Option ConvergenceState} (hrun : RowRun (Makes d op d' k) o us o')
    (hop : op.isEndpoint = true) (hsettled : ∀ cs, o = some cs → cs.Settled)
    (hmarks : Alternates marks (OnDetour o)) : Told op o marks us o' := by
  induction hrun with
  | refl =>
    refine ⟨hsettled, ?_, ?_, fun _ => id, fun _ => id⟩
    · simpa [Updates.trail] using hmarks
    · simp [Updates.trail]
  | update _ hm ih =>
    exact ih.snoc (by simp [OnDetour]) (by simp [Failed]) (ih.settled _ rfl) hm hop
  | create now _ hm ih =>
    exact ih.snoc (by simp [OnDetour, freshRow])
      (by simp [Failed, freshRow, Held]) (freshRow_settled now) hm hop

end Told

/-- The rows are settled, and the log tells which are on a detour. -/
structure Db.Recorded (db : Db) : Prop where
  settled : db.rows.All fun _ => ConvergenceState.Settled
  marks : ∀ k, Alternates ((db.trail k).filter EventType.isMark) (OnDetour (db.rows.get? k))

/-- **One operation**: what it makes of a row, and logs. -/
theorem Db.Recorded.told {db db' : Db} {op : Op} (h : db.Recorded) (hop : op.isEndpoint = true)
    (hstep : db.step op = some db') (k : RowKey) :
    ∃ us, Told op (db.rows.get? k) ((db.trail k).filter EventType.isMark) us (db'.rows.get? k) ∧
      db'.trail k = db.trail k ++ us.trail := by
  obtain ⟨us, hrun, htrail⟩ := (step_makes hstep).run k
  exact ⟨us, hrun.told hop (h.settled k) (h.marks k), htrail⟩

theorem recorded_step {db db' : Db} {op : Op} (h : db.Recorded) (hop : op.isEndpoint = true)
    (hstep : db.step op = some db') : db'.Recorded where
  settled k := by
    obtain ⟨us, htold, -⟩ := h.told hop hstep k
    exact htold.settled
  marks k := by
    obtain ⟨us, htold, htrail⟩ := h.told hop hstep k
    rw [htrail, List.filter_append]
    exact htold.marks

/-- **The audit trail of a row.**  In every database that a run of endpoint operations
reaches, the entries `not_updatable` and `updatable_again` of a row alternate,
beginning with `not_updatable`; the latest one is `not_updatable` exactly if the
row is; and the next operation writes one `gave_up` if it makes the row a failure, and none
otherwise: a row that is restored from a detour to `failed` was one. -/
theorem audit_trail_of_row (db₀ db : Db) (h₀ : db₀.rows = Table.empty)
    (hlog : ∀ k, db₀.trail k = [])
    (h : Reachable Db.step (fun _ op => op.isEndpoint = true) db₀ db) (k : RowKey) :
    ((db.trail k).filter EventType.isMark).IsChain (· ≠ ·) ∧
    ((db.trail k).filter EventType.isMark).head? ≠ some .moduleUpdatableAgain ∧
    (((db.trail k).filter EventType.isMark).getLast? = some .moduleNotUpdatable ↔
      (db.rows.get? k).map (·.state) = some .notUpdatable) ∧
    ∀ op db', op.isEndpoint = true → db.step op = some db' →
      (db'.trail k).count .moduleFlashGaveUp = (db.trail k).count .moduleFlashGaveUp +
        if Failed (db'.rows.get? k) && !Failed (db.rows.get? k) then 1 else 0 := by
  have hrec : db.Recorded := by
    refine h.invariant (P := Db.Recorded) ⟨h₀ ▸ Table.all_empty, fun k => ?_⟩
      fun _ _ _ hs hop hstep =>
      recorded_step hs hop hstep
    rw [hlog, h₀]
    exact .nil (by simp [OnDetour, Table.empty, Table.get?])
  refine ⟨(hrec.marks k).chain, (hrec.marks k).first, (hrec.marks k).last,
    fun op db' hop hstep => ?_⟩
  obtain ⟨us, htold, htrail⟩ := hrec.told hop hstep k
  rw [htrail, List.count_append, htold.gaveUps]

namespace Sample

/-- The module reports the key of its release. -/
def ownKey : Identity where
  uid := some "m"
  version := "1.0.0"
  bootKey := some "1111111111111111"

/-- The key does not fit, fits again, and then four flashes fail. -/
def detour : List Op :=
  [.reconcileModule 1 "m", .ingestModule 2 1 "1" (some "fm") ownKey true] ++
    List.replicate 4 (.statusUpdate 3 (some 1) key (.error .failed) "timeout")

end Sample

/-- The trail of a row that leaves its detour; the fifth error makes it a failure. -/
theorem audit_trail_of_row_detour : ∃ db db' : Db,
      db.step (.statusUpdate 3 (some 1) Sample.key (.error .failed) "timeout") = some db' ∧
      db'.trail Sample.key = [.moduleNotUpdatable, .moduleUpdatableAgain, .moduleFlashGaveUp] ∧
      (db.rows.get? Sample.key).map (·.state) ≠ some .notUpdatable ∧
      (Failed (db'.rows.get? Sample.key) && !Failed (db.rows.get? Sample.key)) = true := by
  obtain ⟨db, hreach, htrail, hlast⟩ := exists_admitted Db.step (fun _ op => op.isEndpoint)
    Sample.foreignKey Sample.detour (P := fun db =>
      db.trail Sample.key = [.moduleNotUpdatable, .moduleUpdatableAgain] ∧
      ((db.step (.statusUpdate 3 (some 1) Sample.key (.error .failed) "timeout")).any fun db' =>
        db'.trail Sample.key = [.moduleNotUpdatable, .moduleUpdatableAgain, .moduleFlashGaveUp]) =
          true) (by decide +kernel)
  obtain ⟨db', hstep, htrail'⟩ := (Option.any_eq_true ..).mp hlast
  replace htrail' := of_decide_eq_true htrail'
  obtain ⟨_, _, hopen, hnext⟩ := audit_trail_of_row Sample.foreignKey db rfl (fun _ => rfl)
    hreach Sample.key
  refine ⟨db, db', hstep, htrail', fun hstate => ?_, ?_⟩
  · have hlast := hopen.mpr hstate
    rw [htrail] at hlast
    exact absurd hlast (by decide)
  · have hcount := hnext _ db' rfl hstep
    rw [htrail, htrail'] at hcount
    by_contra hno
    rw [if_neg hno] at hcount
    cases hcount

end StationManager.Firmware
