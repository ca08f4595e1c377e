import StationManager.Agent.Scanner

/-!
# StationManager.Agent.ScannerSteps

What one step of the runner and one step of a hold can do, each said once as a
relation: `Ran` and `HoldStepped`.  The invariants of the scanner are proved by
cases on them.  `emit_eq`, `terminate_eq` and `advance_eq` say which fields these
functions write.
-/

namespace StationManager.Agent.Scanner

/-! ## frames -/

variable {e : Event} {phase : HoldPhase} {keyed : Option Module} {reason : Reason} {s' : State}
  (s : State) (v : Visit)

/-- A frame may be sent; nothing else changes. -/
theorem send_eq (report : Report) (entry : Option Entry) (reason : Option Reason) :
    ∃ sent, s.send report entry reason = { s with sent } := by
  simp only [State.send]
  split
  · exact ⟨s.sent, rfl⟩
  · exact ⟨_, rfl⟩

/-- The same, and it may become the last one. -/
theorem emit_eq (report : Report) (reason : Option Reason) (untuned : Bool) :
    ∃ last sent, s.emit report reason untuned = { s with last, sent } := by
  simp only [State.emit]
  generalize (if untuned = true then none else s.entries[s.index]?) = entry
  split
  · exact ⟨s.last, s.sent, rfl⟩
  · obtain ⟨sent, hsent⟩ :=
      send_eq { s with last := some (report, s.index, entry.map Entry.ref) } report entry reason
    exact ⟨_, sent, hsent⟩

/-- The end of a scan: everything is reset, and the end is recorded. -/
theorem terminate_eq (reason : Reason) : ∃ sent, s.terminate reason = { s.reset with
      running := false, sent, ends := ⟨reason, s.entries.length, s.outcomes⟩ :: s.ends } := by
  simp only [State.terminate]
  obtain ⟨sent, hsent⟩ := send_eq { s with
    index := s.tunedPos.getD s.index
    ends := ⟨reason, s.entries.length, s.outcomes⟩ :: s.ends } .stopped
    (s.tunedPos.bind (s.entries[·]?)) (some reason)
  rw [hsent]
  exact ⟨sent, rfl⟩

theorem runner_terminate (reason : Reason) : (s.terminate reason).runner = s.runner := by
  obtain ⟨sent, hend⟩ := terminate_eq s reason
  rw [hend]
  rfl

/-- What a move to the next entry may change. -/
theorem advance_eq (offset : Nat) :
    ∃ entries pending failStreak index visits outcomes, s.advance offset =
      { s with entries, pending, failStreak, index, visits, outcomes } := by
  simp only [State.advance]
  split
  · exact ⟨_, _, _, _, _, _, rfl⟩
  · exact ⟨_, _, _, _, _, _, rfl⟩

/-! ## hold -/

/-- The call is a hold. -/
def Caller.isHold : Caller → Bool
  | .hold .. => true
  | _ => false

/-- The phases of `hold`. -/
inductive HoldStepped (s : State) (p : Party) (reason : Reason) (keyed : Option Module) :
    HoldPhase → State → HoldResult → Prop
  | aborted (hhead : s.lock.head? = some p) (hend : s.running = false ∨ s.stopping = true) :
      HoldStepped s p reason keyed .waiting (s.release p) .returned
  | entered (hhead : s.lock.head? = some p) (hrun : s.running = true)
      (hstop : s.stopping = false) :
      HoldStepped s p reason keyed .waiting
        ({ s with index := s.tunedPos.getD s.index }.emit .held (some reason) s.tunedPos.isNone)
        (.on (.emitting s.tunedPos))
  | returned (pos : Option Nat) :
      HoldStepped s p reason keyed (.emitting pos) (s.release p) .returned
  | raised (pos : Option Nat) :
      HoldStepped s p reason keyed (.emitting pos) (s.release p) .raised
  | routes (pos : Option Nat) (entry : Entry)
      (hkeyed : keyed = some entry.target ∨ keyed = none ∧ s.keys = []) :
      HoldStepped s p reason keyed (.emitting pos) s (.on (.routing entry))
  | routed (entry : Entry) (ok : Bool) :
      HoldStepped s p reason keyed (.routing entry) ((s.setRoute entry ok).release p) .returned

/-- Every step of a hold is one of these. -/
theorem holdStepped_of_holdStep {s : State} {p : Party} {r : HoldResult}
    (h : s.holdStep p reason keyed phase e = some (s', r)) :
    HoldStepped s p reason keyed phase s' r := by
  cases phase with
  | waiting =>
    cases e with
    | go =>
      simp only [State.holdStep] at h
      split at h
      · next hhead =>
        split at h
        · next hend =>
          cases h
          exact .aborted hhead (by simpa using hend)
        · next hend =>
          cases h
          simp only [Bool.or_eq_true, Bool.not_eq_true', not_or, Bool.not_eq_false,
            Bool.not_eq_true] at hend
          exact .entered hhead hend.1 hend.2
      · cases h
    | applied _ => cases h
    | read _ _ => cases h
    | routed _ => cases h
  | emitting pos =>
    cases e with
    | go =>
      cases pos with
      | none =>
        cases h
        exact .returned none
      | some pos =>
        simp only [State.holdStep] at h
        split at h
        · cases h
          exact .returned _
        · split at h
          · cases h
            exact .raised _
          · split at h
            · next hkeyed =>
              cases h
              exact .routes _ _ hkeyed
            · cases h
              exact .returned _
    | applied _ => cases pos <;> cases h
    | read _ _ => cases pos <;> cases h
    | routed _ => cases pos <;> cases h
  | routing entry =>
    cases e with
    | routed ok =>
      cases h
      exact .routed entry ok
    | go => cases h
    | applied _ => cases h
    | read _ _ => cases h

theorem HoldStepped.runner_eq {s : State} {p : Party} {r : HoldResult}
    (h : HoldStepped s p reason keyed phase s' r) : s'.runner = s.runner := by
  cases h with
  | entered _ _ _ =>
    obtain ⟨last, sent, hemit⟩ := emit_eq { s with index := s.tunedPos.getD s.index } .held
      (some reason) s.tunedPos.isNone
    rw [hemit]
  | aborted _ _ => rfl
  | returned _ => rfl
  | raised _ => rfl
  | routes _ _ _ => rfl
  | routed _ _ => rfl

/-- The broker's call after a step of its hold. -/
def State.afterCall (s : State) (reason : Reason) (keyed : Option Module) : HoldResult → State
  | .on phase => { s with caller := .hold reason keyed phase }
  | .returned => s.holdReturned keyed
  | .raised => { s with caller := .idle }

theorem holdStepped_of_callerStep {s : State} (hc : s.caller = .hold reason keyed phase)
    (h : s.callerStep e = some s') :
    ∃ s₁ r, HoldStepped s .broker reason keyed phase s₁ r ∧ s' = s₁.afterCall reason keyed r := by
  simp only [State.callerStep, hc] at h
  cases hstep : s.holdStep .broker reason keyed phase e with
  | none =>
    rw [hstep] at h
    cases h
  | some r =>
    obtain ⟨s₁, r⟩ := r
    rw [hstep] at h
    refine ⟨s₁, r, holdStepped_of_holdStep hstep, ?_⟩
    cases r <;> cases h <;> rfl

/-! ## runner -/

/-- How the runner goes on, off the lock, to its next `await`. -/
inductive Next (s : State) : State → Prop
  | aborted (h : s.held = true ∨ s.stopping = true) : Next s s.aborted
  | queue (v : Visit) (op : Op) : Next s (s.queue v op)
  | sleep (v : Visit) (parked : Bool) : Next s { s with runner := .sleeping v parked }
  | visited (reachable : Bool) : Next s (s.visited reachable)
  | finish (reason : Reason) (h : reason ≠ .noReachableEntries) : Next s (s.finish reason)
  | hold (hheld : s.held = false) (hstop : s.stopping = false) : Next s s.ownHold

theorem next_listen : Next s (s.listen v) := by
  simp only [State.listen]
  split
  · exact .visited true
  · exact .queue _ _

theorem next_rest : Next s (s.rest v) := by
  simp only [State.rest]
  split
  · exact .visited true
  · exact .sleep _ _

theorem next_found : Next s (s.found v) := by
  simp only [State.found]
  split
  · exact .queue _ _
  · split
    · next hflags => exact .aborted (by simpa using hflags)
    · next hflags =>
      simp only [Bool.or_eq_true, not_or, Bool.not_eq_true] at hflags
      exact .hold hflags.1 hflags.2

/-- The runner after a step of its own hold. -/
def State.afterHold (s : State) : HoldResult → State
  | .on phase => { s with runner := .hold phase }
  | .returned => s.aborted
  | .raised => s.finish .internalError

/-- One step of the runner. -/
inductive Ran (s : State) : State → Prop
  | starts (hr : s.runner = .fresh) : Ran s s.loop
  | resumes (hr : s.runner = .parked) : Ran s (s.advance 0).loop
  | drained (hr : s.runner = .parked) : Ran s (s.finish .moduleUpdate)
  | wakes {s' : State} (v : Visit) (parked : Bool) (hr : s.runner = .sleeping v parked)
      (hnext : Next s s') : Ran s s'
  | refused (v : Visit) (op : Op) (hr : s.runner = .queued v op)
      (hhead : s.lock.head? = some .runner)
      (hflags : s.held = true ∨ s.stopping = true ∨ s.visitGen ≠ s.holdGen) :
      Ran s (s.release .runner).aborted
  | gone (v : Visit) (op : Op) (hr : s.runner = .queued v op)
      (hhead : s.lock.head? = some .runner) :
      Ran s ((s.release .runner).finish .moduleUpdate)
  | begins (v : Visit) (op : Op) (hr : s.runner = .queued v op)
      (hhead : s.lock.head? = some .runner) (hheld : s.held = false) (s₁ : State)
      (hs₁ : s₁ = s ∨ ∃ report, s₁ = s.emit report none false) :
      Ran s { s₁ with runner := .inFlight v op }
  | landed {s' : State} (v : Visit) (op : Op) (hr : s.runner = .inFlight v op)
      (tuned routed : Option String) (txRoute : Option Module)
      (hroute : op ≠ .route → txRoute = s.txRoute)
      (hnext : Next { s.release .runner with tuned, routed, txRoute } s') : Ran s s'
  | held (phase : HoldPhase) (hr : s.runner = .hold phase) (s₁ : State) (r : HoldResult)
      (hstep : HoldStepped s .runner .ptt none phase s₁ r) : Ran s (s₁.afterHold r)

theorem ran_queued {s : State} {v : Visit} {op : Op} (hr : s.runner = .queued v op)
    (h : s.runnerStep e = some s') : Ran s s' := by
  cases e <;> simp only [State.runnerStep, hr] at h <;> try cases h
  split at h
  · next hhead =>
    split at h
    · next hflags =>
      cases h
      exact .refused v op hr hhead (by simpa [or_assoc] using hflags)
    · next hflags =>
      have hheld : s.held = false := by
        by_contra hh
        exact hflags (by simp [hh])
      split at h
      · cases h
        exact .gone v op hr hhead
      · cases op <;> cases h
        · exact .begins v _ hr hhead hheld _ (.inr ⟨_, rfl⟩)
        · exact .begins v _ hr hhead hheld s (.inl rfl)
        · exact .begins v _ hr hhead hheld s (.inl rfl)
        · exact .begins v _ hr hhead hheld s (.inl rfl)
  · cases h

theorem ran_inFlight {s : State} {v : Visit} {op : Op} (hr : s.runner = .inFlight v op)
    (h : s.runnerStep e = some s') : Ran s s' := by
  have hlanded : ∀ {s'}, op ≠ .route → Next (s.release .runner) s' → Ran s s' :=
    fun _ hnext => .landed v op hr s.tuned s.routed s.txRoute (fun _ => rfl) hnext
  cases op with
  | emit report =>
    cases e <;> simp only [State.runnerStep, hr] at h <;> try cases h
    cases report <;> cases h
    · exact hlanded nofun (.queue _ _)
    · exact hlanded nofun (next_rest _ _)
    · exact hlanded nofun (next_rest _ _)
    · exact hlanded nofun (next_rest _ _)
    · exact hlanded nofun (next_rest _ _)
  | apply =>
    cases e <;> simp only [State.runnerStep, hr] at h <;> try cases h
    next r =>
      cases r <;> cases h
      · exact .landed v _ hr (some v.entry.ref) s.routed s.txRoute (fun _ => rfl)
          (next_listen _ _)
      · exact .landed v _ hr none s.routed s.txRoute (fun _ => rfl) (.visited false)
      · exact .landed v _ hr none s.routed s.txRoute (fun _ => rfl) (.finish _ nofun)
      · exact hlanded nofun (.finish _ nofun)
  | carrier parked =>
    cases e <;> simp only [State.runnerStep, hr] at h <;> try cases h
    next r expired =>
      cases r with
      | failed =>
        cases h
        exact hlanded nofun (.visited false)
      | updating =>
        cases h
        exact hlanded nofun (.finish _ nofun)
      | raised =>
        cases h
        exact hlanded nofun (.finish _ nofun)
      | yes =>
        simp only at h
        split at h
        · cases h
          exact hlanded nofun (next_found _ _)
        · split at h
          · cases h
            exact hlanded nofun (.queue _ _)
          · cases h
            exact hlanded nofun (next_rest _ _)
      | no =>
        simp only at h
        split at h
        · split at h
          · cases h
            exact hlanded nofun (.visited true)
          · cases h
            exact hlanded nofun (.sleep _ _)
        · split at h
          · cases h
            exact hlanded nofun (.queue _ _)
          · split at h
            · cases h
              exact hlanded nofun (.visited true)
            · cases h
              exact hlanded nofun (next_rest _ _)
  | route =>
    cases e <;> simp only [State.runnerStep, hr] at h <;> try cases h
    next ok =>
      exact .landed v _ hr s.tuned (some v.entry.ref)
        (if ok then some v.entry.target else s.txRoute) (absurd rfl) (.queue _ _)

/-- **Every step of the runner is one of these.** -/
theorem ran_of_runnerStep {s : State} (h : s.runnerStep e = some s') : Ran s s' := by
  cases hr : s.runner with
  | dead =>
    simp only [State.runnerStep, hr] at h
    cases h
  | fresh =>
    cases e <;> simp only [State.runnerStep, hr] at h <;> cases h
    exact .starts hr
  | parked =>
    cases e <;> simp only [State.runnerStep, hr] at h <;> try cases h
    split at h
    · cases h
      exact .resumes hr
    · split at h
      · cases h
        exact .drained hr
      · cases h
  | sleeping v parked =>
    cases parked <;> cases e <;> simp only [State.runnerStep, hr] at h <;> cases h
    · exact .wakes v false hr (next_listen _ _)
    · exact .wakes v true hr (.queue _ _)
  | queued v op => exact ran_queued hr h
  | inFlight v op => exact ran_inFlight hr h
  | hold phase =>
    simp only [State.runnerStep, hr] at h
    cases hstep : s.holdStep .runner .ptt none phase e with
    | none =>
      rw [hstep] at h
      cases h
    | some r =>
      obtain ⟨s₁, r⟩ := r
      rw [hstep] at h
      have hs' : s' = s₁.afterHold r := by cases r <;> cases h <;> rfl
      rw [hs']
      exact .held phase hr s₁ r (holdStepped_of_holdStep hstep)

end StationManager.Agent.Scanner
