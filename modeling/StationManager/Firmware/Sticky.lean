import StationManager.Firmware.Rows

/-!
# StationManager.Firmware.Sticky

Quarantined and failed rows stay what they are.  A row is *held* in such a
state when it is in it directly or hides it under a `not_updatable` detour.
No operation takes a row out of a held quarantine but `release_quarantine`
picking that row; a held failure ends with `retry_failed` on it, or when the
module reports the target version.
-/

namespace StationManager.Firmware

/-- In state `s`, directly or underneath a `not_updatable` detour. -/
def ConvergenceState.Held (s : State) (cs : ConvergenceState) : Prop :=
  cs.state = s ∨ (cs.state = .notUpdatable ∧ cs.stateBeforeNotUpdatable = some s)

instance (s : State) (cs : ConvergenceState) : Decidable (cs.Held s) :=
  inferInstanceAs (Decidable (_ ∨ _))

/-- Row `k` is stored and held in state `s`. -/
def Db.HeldAt (db : Db) (k : RowKey) (s : State) : Prop :=
  ∃ cs, db.rows.get? k = some cs ∧ cs.Held s

/-- The module of row `k` reports the version of the row's release. -/
def Db.reportsTarget (db : Db) (k : RowKey) : Bool :=
  match db.modules.get? k.module, db.releases.table.get? k.targetRelease with
  | some module, some release => module.lastReportedVersion = release.version
  | _, _ => false

/-- The states that are held. -/
def State.isHeld : State → Bool
  | .quarantined | .failed => true
  | .ok | .updating | .notUpdatable => false

namespace ConvergenceState

variable {cs : ConvergenceState} {s : State}

theorem Held.isSticky (h : cs.Held s) (hs : s.isHeld = true) : cs.state.isSticky = true := by
  rcases h with h | h
  · rw [h]
    cases s <;> first | rfl | cases hs
  · rw [h.1]
    rfl

/-- A held row accepts no callback. -/
theorem Held.givenUp (h : cs.Held s) (hs : s.isHeld = true) : cs.state.givenUp = true := by
  have hsticky := h.isSticky hs
  cases hst : cs.state <;> simp_all [State.isSticky, State.givenUp]

theorem Held.sticky_eq (h : cs.Held s) (hs : s.isHeld = true) : cs.sticky = some s := by
  unfold ConvergenceState.sticky
  rcases h with h | h
  · rw [h, if_neg]
    rintro rfl
    cases hs
  · rw [if_pos h.1, h.2]

/-- Outside a detour a row is held in its own state. -/
theorem Held.eq_of_state {t : State} (h : cs.Held s) (ht : cs.state = t) (hne : t ≠ .notUpdatable) :
    s = t := by
  rcases h with hs | hdetour
  · rw [← hs, ht]
  · exact absurd (ht.symm.trans hdetour.1) hne

end ConvergenceState

variable {db : Db} {k : RowKey} {s : State} {now : Time}

/-- A decision keeps a held row held, unless it is a failure and the version
is reached. -/
theorem held_decided {m : Module} {desired : Release} {cs cs' : ConvergenceState}
    (hs : s.isHeld = true) (h : cs.Held s)
    (hv : s = .failed → m.lastReportedVersion ≠ desired.version) (hd : Decided m desired now cs cs') :
    cs'.Held s := by
  cases hd with
  | reached hver hq =>
    rw [h.sticky_eq hs] at hq
    cases s with
    | quarantined => exact absurd rfl hq
    | failed => exact absurd hver (hv rfl)
    | ok => cases hs
    | updating => cases hs
    | notUpdatable => cases hs
  | mismatch hver hk hst =>
    -- the detour remembers the state it overrides
    have hcs : cs.state = s := h.resolve_right fun hn => hst hn.1
    refine .inr ⟨rfl, ?_⟩
    simp only [ConvergenceState.toNotUpdatable, hcs]
    cases s <;> first | rfl | cases hs
  | restored before hst hb hfix uid =>
    have hbefore : before = s := by
      rcases h with h | h
      · rw [hst] at h
        rw [← h] at hs
        cases hs
      · rw [hb] at h
        exact Option.some.inj h.2
    rw [settle_row_of_sticky]
    · exact .inl hbefore
    · show before.isSticky = true
      rw [hbefore]
      cases s <;> first | rfl | cases hs
  | released hst hb hfix =>
    rcases h with h | h
    · rw [hst] at h
      rw [← h] at hs
      cases hs
    · rw [hb] at h
      cases h.2
  | kept hst => exact h
  | gaveUp hst | updating hst =>
    have hsticky := h.isSticky hs
    rw [hst] at hsticky
    cases hsticky

theorem reportsTarget_of {version : String} {rel : Release}
    (hm : (db.modules.get? k.module).map (·.lastReportedVersion) = some version)
    (hrel : db.releases.table.get? k.targetRelease = some rel) (hv : version = rel.version) :
    db.reportsTarget k = true := by
  obtain ⟨m, hm', hmv⟩ := Option.map_eq_some_iff.mp hm
  simp only [Db.reportsTarget, hm', hrel, hmv, hv, decide_true]

/-- **Row step**: a permitted update of an endpoint keeps a held row held,
unless it releases or retries the row or its failure has been overcome. -/
theorem held_apply {d d' : Db} {op : Op} {rop : RowOp} {cs : ConvergenceState}
    (hs : s.isHeld = true) (h : cs.Held s) (hp : Permitted d op d' k rop cs)
    (hend : op.isEndpoint = true) (hrel : s = .quarantined → op.releases d k = false)
    (hret : s = .failed → op.retries d k = false) (hrep : s = .failed → d'.reportsTarget k = false) :
    (rop.apply cs).Held s := by
  have hgiven := h.givenUp hs
  cases rop with
  | decide uid m desired now =>
    obtain ⟨huid, hver, hdes⟩ := hp
    subst huid
    refine held_decided hs h ?_ (reconcilerDecide_decided k.module m desired now cs)
    intro hf hv
    have := reportsTarget_of hver hdes hv
    rw [hrep hf] at this
    cases this
  | error uid m rel mode message now =>
    rcases hp with hst | ⟨hst, _⟩ | ⟨_, _, _, _, hop⟩
    · rw [hst] at hgiven
      cases hgiven
    · rw [hst] at hgiven
      cases hgiven
    · rw [hop] at hend
      cases hend
  | instruct now =>
    rw [show cs.state = .updating from hp] at hgiven
    cases hgiven
  | progress phase now =>
    rw [show cs.state = .updating from hp] at hgiven
    cases hgiven
  | commit now =>
    rw [show cs.state.givenUp = false from hp] at hgiven
    cases hgiven
  | release now =>
    obtain ⟨hst, hpick⟩ := hp
    rw [hrel (h.eq_of_state hst (by decide))] at hpick
    cases hpick
  | retry now =>
    obtain ⟨hst, hpick⟩ := hp
    rw [hret (h.eq_of_state hst (by decide))] at hpick
    cases hpick
  | clearNotice => exact h

/-- The same for a whole operation. -/
theorem heldAt_step {db' : Db} {op : Op} (hs : s.isHeld = true) (h : db.HeldAt k s)
    (hstep : db.step op = some db') (hend : op.isEndpoint = true)
    (hrel : s = .quarantined → op.releases db k = false)
    (hret : s = .failed → op.retries db k = false)
    (hrep : s = .failed → db'.reportsTarget k = false) : db'.HeldAt k s := by
  obtain ⟨cs, hrow, hheld⟩ := h
  obtain ⟨cs', hrow', hpath⟩ := (step_evolves hstep).kept k cs hrow
  refine ⟨cs', hrow', hpath.invariant hheld ?_⟩
  intro rop c hc hp
  exact held_apply hs hc hp hend hrel hret hrep

/-! ## what `check` hands out -/

theorem answer_instruction {station : Pk} {c : Candidates} {i : Instruction}
    (h : (db.answer now station c).2 = .instruction i) :
    ∃ cs, (db.answer now station c).1.rows.get? i.convergenceId = some cs ∧
      cs.state = .updating := by
  unfold Db.answer at h ⊢
  split at h
  · cases h
  · next j _ =>
    simp only at h
    split at h
    · next hmark =>
      cases h
      unfold Db.markInstructed at hmark ⊢
      split at hmark
      · cases hmark
      · next cs hcs =>
        split at hmark
        · next hst =>
          rw [if_pos hst]
          split
          · exact ⟨instructRow now cs, by rw [Db.log_rows, Db.get?_putRow, if_pos rfl], hst⟩
          · exact ⟨cs, hcs, hst⟩
        · cases hmark
    · cases h

/-- An instruction is only handed out for a row that the check leaves
`updating`. -/
theorem check_instruction {station : Option Pk} {i : Instruction}
    (h : (db.check now station).2 = .instruction i) :
    ∃ cs, (db.check now station).1.rows.get? i.convergenceId = some cs ∧ cs.state = .updating := by
  unfold Db.check at h ⊢
  split at h
  · cases h
  · split at h
    · cases h
    · split at h
      · cases h
      · next hfree =>
        rw [if_neg hfree]
        exact answer_instruction h

/-- A held quarantine gets no instruction. -/
theorem check_ne_of_heldAt (h : db.HeldAt k .quarantined) (now : Time) (station : Option Pk)
    (i : Instruction) (hi : (db.check now station).2 = .instruction i) : i.convergenceId ≠ k := by
  rintro rfl
  have hstep : db.step (.check now station) = some (db.check now station).1 := rfl
  obtain ⟨cs, hrow, hheld⟩ := heldAt_step rfl h hstep rfl (fun _ => rfl) (fun h => by cases h)
    (fun h => by cases h)
  obtain ⟨cs', hrow', hst⟩ := check_instruction hi
  rw [hrow] at hrow'
  cases hrow'
  have hgiven := hheld.givenUp rfl
  rw [hst] at hgiven
  cases hgiven

/-! ## runs -/

/-- **Quarantine and failure are sticky.**  Along every run of endpoint
operations, from any database: a held quarantine stays held and gets no
instruction as long as no `release_quarantine` picks the row; a held failure
stays held as long as no `retry_failed` picks the row and no operation leaves
the module reporting the target version. -/
theorem held_states_are_sticky (k : RowKey) : (∀ db db', Reachable Db.step
        (fun s op => op.isEndpoint = true ∧ op.releases s k = false) db db' →
      db.HeldAt k .quarantined → db'.HeldAt k .quarantined ∧
        ∀ now station i, (db'.check now station).2 = .instruction i → i.convergenceId ≠ k) ∧
    (∀ db db', Reachable Db.step (fun s op => op.isEndpoint = true ∧ op.retries s k = false ∧
          ∀ s', s.step op = some s' → s'.reportsTarget k = false) db db' →
      db.HeldAt k .failed → db'.HeldAt k .failed) := by
  refine ⟨?_, ?_⟩
  · intro db db' hreach h
    have hheld : db'.HeldAt k .quarantined := by
      refine hreach.invariant (P := fun s => s.HeldAt k .quarantined) h ?_
      intro s op s' hs hok hstep
      exact heldAt_step rfl hs hstep hok.1 (fun _ => hok.2) (fun h => by cases h)
        (fun h => by cases h)
    exact ⟨hheld, check_ne_of_heldAt hheld⟩
  · intro db db' hreach h
    refine hreach.invariant (P := fun s => s.HeldAt k .failed) h ?_
    intro s op s' hs hok hstep
    exact heldAt_step rfl hs hstep hok.1 (fun h => by cases h) (fun _ => hok.2.1)
      (fun _ => hok.2.2 s' hstep)

namespace Sample

/-- The identity the module reports. -/
def identity (version : String) (bootKey : Option String) : Identity :=
  { uid := some "m", version := version, bootKey := bootKey }

/-- The fleet after an inventory report of the module. -/
def reported (cs : ConvergenceState) (version : String) (bootKey : Option String) : Db :=
  ((fleetWith cs).ingestModule 9 1 "1" (some "fm") (identity version bootKey) true).1

end Sample

/-- A quarantined module that then reports the target version stays
quarantined; a failed one that reports a foreign boot key stays failed under
the detour. -/
theorem held_states_are_sticky_sample :
    (Sample.reported { state := .quarantined, createdAt := 0, updatedAt := 0 } "2.0.0" none).HeldAt
        Sample.key .quarantined ∧
    (Sample.reported { state := .failed, createdAt := 0, updatedAt := 0 } "1.0.0"
        (some "2222222222222222")).HeldAt Sample.key .failed := by
  refine ⟨((held_states_are_sticky Sample.key).1 _ _ (.step .init ⟨rfl, rfl⟩
    (i := .ingestModule 9 1 "1" (some "fm") (Sample.identity "2.0.0" none) true) rfl)
    ⟨_, rfl, .inl rfl⟩).1, ?_⟩
  refine (held_states_are_sticky Sample.key).2 _ _ (.step .init ⟨rfl, rfl, ?_⟩
    (i := .ingestModule 9 1 "1" (some "fm") (Sample.identity "1.0.0" (some "2222222222222222"))
      true) rfl) ⟨_, rfl, .inl rfl⟩
  intro s' hs'
  cases hs'
  decide

end StationManager.Firmware
