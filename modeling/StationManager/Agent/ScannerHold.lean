import StationManager.Agent.ScannerLock

/-!
# StationManager.Agent.ScannerHold

`hold` as a barrier: once a hold of the broker has returned and the scan goes
on, the scanner applies nothing, reads no carrier and moves no route until it is
resumed, skipped or stopped.

The early return of `hold` breaks it.  The runner holds by itself when it finds
a transmitter keyed; a hold of the broker that comes meanwhile finds the flag
set and returns although the runner goes on to move the route
(`routed_behind_hold`).
-/

namespace StationManager.Agent.Scanner

/-! ## calls of the broker -/

variable {s s' : State}

/-- The broker leaves the lock; a barrier may stand from now on. -/
theorem Inv.leaves {b : Bool} (h : Inv s) (hhead : s.lock.head? = some .broker)
    (hrunner : s'.runner = s.runner)
    (hview : s'.view = ⟨s.lock.erase .broker, .idle, s.held, s.stopping, s.running, b⟩)
    (hb : b = true → s.held = true) : Inv s' := by
  have hok := h.runner
  have hlock := erase_head hhead
  have hnodup : (Party.broker :: s.lock.erase .broker).Nodup := hlock ▸ h.base.nodup
  obtain ⟨hout, hnodup⟩ := List.nodup_cons.mp hnodup
  have hmem : Party.runner ∈ s.lock.erase .broker ↔ .runner ∈ s.lock := by
    rw [hlock]
    simp
  have halive : Alive s.view →
      Alive ⟨s.lock.erase .broker, .idle, s.held, s.stopping, s.running, b⟩ :=
    fun ha => ⟨ha.running, fun hin => absurd hin hout⟩
  have hnot : ¬ Owner s.view := by
    intro ho
    have := ho.head
    rw [show s.view.lock = s.lock from rfl, hhead] at this
    cases this
  refine ⟨?_, ?_⟩
  · rw [hview]
    refine ⟨hnodup, ?_, nofun, nofun, fun ht => ⟨hb ht, rfl⟩, nofun⟩
    simpa using hout
  · rw [hview, hrunner]
    cases hr : s.runner <;> rw [hr] at hok
    · exact ⟨halive hok.1, fun hin => hok.2 (hmem.mp hin)⟩
    · exact ⟨halive hok.1, fun hin => hok.2 (hmem.mp hin)⟩
    · exact ⟨halive hok.1, hmem.mpr hok.2⟩
    · exact absurd hok.1 hnot
    · exact ⟨halive hok.1, fun hin => hok.2 (hmem.mp hin)⟩
    · exact absurd hok hnot
    · exact fun hin => hok (hmem.mp hin)

/-- The broker sets a flag and queues for the lock. -/
theorem Inv.joins {c : Caller} (h : Inv s) (held stopping : Bool) (hidle : s.caller = .idle)
    (hrunner : s'.runner = s.runner)
    (hview : s'.view = ⟨s.lock ++ [.broker], c, held, stopping, s.running, false⟩) (hc : c ≠ .idle)
    (howns : c.owns = false) (hholds : c.isHold = true → held = true)
    (hflag : held = true ∨ stopping = true) : Inv s' := by
  have hok := h.runner
  have hout : Party.broker ∉ s.lock := fun hin => h.base.callerIn.mp hin hidle
  have halive : Alive s.view →
      Alive ⟨s.lock ++ [.broker], c, held, stopping, s.running, false⟩ :=
    fun ha => ⟨ha.running, fun _ => hflag⟩
  have howner : Owner s.view →
      Owner ⟨s.lock ++ [.broker], c, held, stopping, s.running, false⟩ := by
    intro ho
    refine ⟨halive ho.alive, ?_, rfl⟩
    rw [List.head?_append, show s.lock.head? = some .runner from ho.head]
    rfl
  refine ⟨?_, ?_⟩
  · rw [hview]
    refine ⟨?_, ?_, ?_, fun hh => .inl (hholds hh), nofun, ?_⟩
    · refine List.nodup_append.mpr ⟨h.base.nodup, by simp, ?_⟩
      rintro p hp q hq rfl
      cases List.mem_singleton.mp hq
      exact hout hp
    · simp [hc]
    · simp [howns]
    · rintro reason m entry rfl
      cases howns
  · rw [hview, hrunner]
    cases hr : s.runner <;> rw [hr] at hok
    · exact ⟨halive hok.1, by simpa [State.view] using hok.2⟩
    · exact ⟨halive hok.1, by simpa [State.view] using hok.2⟩
    · exact ⟨halive hok.1, List.mem_append_left _ hok.2⟩
    · exact ⟨howner hok.1, fun _ => by simp⟩
    · exact ⟨halive hok.1, by simpa [State.view] using hok.2⟩
    · exact howner hok
    · simpa [RunnerOk, State.view] using hok

/-- The broker changes flags and is off the lock before and after. -/
theorem Inv.reflags (h : Inv s) (held b : Bool) (hidle : s.caller = .idle)
    (hrunner : s'.runner = s.runner)
    (hview : s'.view = ⟨s.lock, .idle, held, s.stopping, s.running, b⟩)
    (hheld : held = true → s.held = true)
    (hb : b = true → held = true ∧ ∀ phase, s.runner ≠ .hold phase) : Inv s' := by
  have hok := h.runner
  have hout : Party.broker ∉ s.lock := fun hin => h.base.callerIn.mp hin hidle
  have halive : Alive s.view → Alive ⟨s.lock, .idle, held, s.stopping, s.running, b⟩ :=
    fun ha => ⟨ha.running, fun hin => absurd hin hout⟩
  refine ⟨?_, ?_⟩
  · rw [hview]
    refine ⟨h.base.nodup, ?_, nofun, nofun, fun ht => ⟨(hb ht).1, rfl⟩, nofun⟩
    simpa using hout
  · rw [hview, hrunner]
    cases hr : s.runner <;> rw [hr] at hok
    · exact ⟨halive hok.1, hok.2⟩
    · exact ⟨halive hok.1, hok.2⟩
    · exact ⟨halive hok.1, hok.2⟩
    · have hnot : held = false := by
        by_contra hh
        exact hout (hok.2 (hheld (by simpa using hh)))
      refine ⟨⟨halive hok.1.alive, hok.1.head, ?_⟩, ?_⟩
      · by_contra ht
        have := (hb (by simpa using ht)).1
        rw [hnot] at this
        cases this
      · intro hh
        rw [show held = true from hh] at hnot
        cases hnot
    · exact ⟨halive hok.1, hok.2⟩
    · next phase =>
      refine ⟨halive hok.alive, hok.head, ?_⟩
      by_contra ht
      exact (hb (by simpa using ht)).2 phase hr
    · exact hok

/-- A hold is called while the runner is in a hold of its own: it returns at
once. -/
def overlaps (s : State) : Label → Bool
  | .call (.hold ..) | .call (.control _ .hold) => s.held && match s.runner with
    | .hold _ => true
    | _ => false
  | _ => false

theorem Inv.callHold (h : Inv s) (hidle : s.caller = .idle) (reason : Reason)
    (keyed : Option Module) (hown : s.held = true → ∀ phase, s.runner ≠ .hold phase) :
    Inv (s.callHold reason keyed) := by
  simp only [State.callHold]
  split
  · next hflags =>
    refine h.reflags s.held _ hidle rfl rfl id fun hb => ?_
    have hheld : s.held = true := by
      have hb' : (s.running && !s.stopping) = true := hb
      simp only [Bool.or_eq_true, Bool.not_eq_true', Bool.and_eq_true] at hflags hb'
      obtain (hrun | hheld) | hstop := hflags
      · rw [hrun] at hb'
        cases hb'.1
      · exact hheld
      · rw [hstop] at hb'
        cases hb'.2
    exact ⟨hheld, hown hheld⟩
  · next hflags =>
    simp only [Bool.or_eq_true, not_or, Bool.not_eq_true] at hflags
    have hb : s.barrier = false := h.base.unbarred_of_not_held hflags.1.2
    refine h.joins (c := .hold reason keyed .waiting) true s.stopping hidle rfl ?_
      (by simp) rfl (fun _ => rfl) (.inl rfl)
    simp only [State.beginHold, State.enqueue, State.view, hb]

theorem Inv.callStop (h : Inv s) (hidle : s.caller = .idle) (reason : Reason) (next : Option Start) :
    Inv (s.callStop reason next) := by
  simp only [State.callStop]
  split
  · exact h
  · exact h.joins (c := .stop reason next) s.held true hidle rfl rfl nofun rfl nofun (.inr rfl)

/-- A scan begins: there is no runner and nobody on the lock. -/
theorem inv_begin (hdead : s.runner = .dead) (hlock : s.lock = []) (hidle : s.caller = .idle)
    (scanId : String) (entries : List Entry) : Inv (s.begin scanId entries) := by
  simp only [State.begin]
  split
  · refine ⟨?_, ?_⟩
    · rw [view_terminate]
      simp only [State.reset, hlock, hidle]
      exact ⟨List.nodup_nil, by simp, nofun, nofun, nofun, nofun⟩
    · rw [view_terminate]
      rw [runner_terminate, show (State.runner { s.reset with scanId := some scanId, entries }) =
        .dead from hdead]
      simp [RunnerOk, State.reset, hlock]
  · refine ⟨⟨?_, ?_, ?_, ?_, ?_, ?_⟩, ⟨rfl, ?_⟩, ?_⟩ <;>
      simp [State.reset, State.view, hlock, hidle, Caller.owns, Caller.isHold]

theorem Inv.lock_nil (h : Inv s) (hidle : s.caller = .idle) (hdead : s.runner = .dead) :
    s.lock = [] := by
  have hok := h.runner
  rw [hdead] at hok
  rw [List.eq_nil_iff_forall_not_mem]
  rintro (_ | _)
  · exact hok
  · exact fun hin => h.base.callerIn.mp hin hidle

theorem Inv.dead_of_not_running (h : Inv s) (hrun : s.running = false) : s.runner = .dead := by
  have hok := h.runner
  have hnot : ¬ Alive s.view := by
    intro ha
    have := ha.running
    rw [show s.view.running = s.running from rfl, hrun] at this
    cases this
  cases hr : s.runner <;> rw [hr] at hok
  · exact absurd hok.1 hnot
  · exact absurd hok.1 hnot
  · exact absurd hok.1 hnot
  · exact absurd hok.1.alive hnot
  · exact absurd hok.1 hnot
  · exact absurd hok.alive hnot

theorem Inv.control (h : Inv s) (hidle : s.caller = .idle) (scanId : String) (action : Action)
    (hown : action = .hold → s.held = true → ∀ phase, s.runner ≠ .hold phase) :
    Inv (s.control scanId action) := by
  simp only [State.control]
  split
  · exact h
  · cases action with
    | stop => exact h.callStop hidle _ _
    | hold => exact h.callHold hidle _ _ (hown rfl)
    | resume =>
      simp only
      split
      · refine h.reflags false false hidle rfl ?_ nofun nofun
        simp only [State.view, hidle]
      · exact h
    | skip =>
      simp only
      split
      · refine h.reflags false false hidle ?_ ?_ nofun nofun
        · obtain ⟨entries, pending, failStreak, index, visits, outcomes, hadvance⟩ :=
            advance_eq s 1
          rw [hadvance]
        · obtain ⟨entries, pending, failStreak, index, visits, outcomes, hadvance⟩ :=
            advance_eq s 1
          rw [hadvance]
          simp [State.view, hidle]
      · exact ⟨h.base, h.runner⟩
    | other => exact h

theorem Inv.call {c : Call} (h : Inv s) (hidle : s.caller = .idle)
    (hover : overlaps s (.call c) = false) : Inv (s.call c) := by
  cases c with
  | start scanId entries =>
    simp only [State.call]
    split
    · exact h.callStop hidle _ _
    · next hrun =>
      have hdead := h.dead_of_not_running (by simpa using hrun)
      exact inv_begin hdead (h.lock_nil hidle hdead) hidle _ _
  | update scanId entries =>
    simp only [State.call, State.update]
    split
    · exact h
    · split
      · exact h.callStop hidle _ _
      · exact ⟨h.base, h.runner⟩
  | control scanId action =>
    refine h.control hidle scanId action ?_
    rintro rfl hheld phase hr
    simp [overlaps, hheld, hr] at hover
  | hold reason keyed =>
    refine h.callHold hidle reason keyed ?_
    intro hheld phase hr
    simp [overlaps, hheld, hr] at hover
  | disconnect => exact h.callStop hidle _ _
  | shutdown => exact h.callStop hidle _ _

/-- A hold of the broker goes on: it has the lock, or it leaves the lock and
the barrier stands. -/
theorem Inv.callerHold {s₁ : State} {reason : Reason} {keyed : Option Module} {phase : HoldPhase}
    {r : HoldResult} (h : Inv s) (hc : s.caller = .hold reason keyed phase)
    (hstep : HoldStepped s .broker reason keyed phase s₁ r) :
    Inv (s₁.afterCall reason keyed r) := by
  have hhold : s.view.caller.isHold = true := by
    rw [show s.view.caller = s.caller from rfl, hc]
    rfl
  have hunbarred : s.barrier = false := h.base.unbarred_of_isHold hhold
  have hheld : s.held = true ∨ s.running = false := h.base.holds hhold
  have hrunner := hstep.runner_eq
  obtain ⟨hwait, hcases⟩ := hstep.view
  have hhead : s.lock.head? = some .broker := by
    cases phase with
    | waiting => exact hwait rfl
    | emitting pos => exact h.base.callerHead (by simp [State.view, hc, Caller.owns])
    | routing entry => exact h.base.callerHead (by simp [State.view, hc, Caller.owns])
  cases r with
  | on phase' =>
    obtain ⟨hview, -, hroute⟩ := hcases
    have hview' : (s₁.afterCall reason keyed (.on phase')).view =
        { s.view with caller := .hold reason keyed phase' } := by
      simp only [State.afterCall, State.view, View.mk.injEq] at hview ⊢
      simp [hview]
    have hin : Party.broker ∈ s.lock := by
      rw [erase_head hhead]
      exact List.mem_cons_self
    refine ⟨?_, ?_⟩
    · rw [hview']
      refine ⟨h.base.nodup, by simpa [State.view] using hin, fun _ => hhead,
        fun _ => hheld, ?_, ?_⟩
      · intro hb
        rw [show s.view.barrier = s.barrier from rfl, hunbarred] at hb
        cases hb
      · intro reason' m entry heq
        cases heq
        exact hroute entry m rfl rfl
    · rw [hview']
      show RunnerOk _ s₁.runner
      rw [hrunner]
      exact h.runner.recall _
  | returned =>
    simp only [State.view, State.release, View.mk.injEq] at hcases
    refine h.leaves hhead hrunner (b := s.running && !s.stopping) ?_ ?_
    · simp [State.afterCall, State.view, State.holdReturned, hcases]
    · intro hb
      obtain hheld | hrun := hheld
      · exact hheld
      · rw [hrun] at hb
        cases hb
  | raised =>
    simp only [State.view, State.release, View.mk.injEq] at hcases
    refine h.leaves hhead hrunner (b := false) ?_ (by simp)
    simp [State.afterCall, State.view, hcases, hunbarred]

theorem Inv.callerStep {e : Event} (h : Inv s) (hs : s.callerStep e = some s') : Inv s' := by
  cases hc : s.caller with
  | idle =>
    simp only [State.callerStep, hc] at hs
    cases hs
  | hold reason keyed phase =>
    obtain ⟨s₁, r, hstep, rfl⟩ := holdStepped_of_callerStep hc hs
    exact h.callerHold hc hstep
  | stop reason next =>
    simp only [State.callerStep, hc] at hs
    split at hs
    · next hgo =>
      -- the runner is cancelled and leaves the lock as well
      have hlock : (s.lock.erase .broker).erase .runner = [] := by
        rw [List.eq_nil_iff_forall_not_mem]
        have hnodup := h.base.nodup.erase Party.broker
        rintro (_ | _)
        · exact fun hin => (hnodup.mem_erase_iff.mp hin).1 rfl
        · intro hin
          have := List.mem_of_mem_erase hin
          exact (h.base.nodup.mem_erase_iff.mp this).1 rfl
      generalize hs₁ : State.terminate { (s.release .broker).release .runner with
        runner := .dead } reason = s₁ at hs
      have hview : s₁.view = ⟨[], .stop reason next, false, false, false, false⟩ := by
        rw [← hs₁, view_terminate]
        simp [State.release, hlock, hc]
      have hdead : s₁.runner = .dead := by rw [← hs₁, runner_terminate]
      simp only [State.view, View.mk.injEq] at hview
      cases next with
      | none =>
        cases hs
        refine ⟨⟨?_, ?_, ?_, ?_, ?_, ?_⟩, ?_⟩ <;>
          simp [State.view, hview, hdead, Caller.owns, Caller.isHold, RunnerOk]
      | some start =>
        cases hs
        exact inv_begin (s := { s₁ with caller := .idle }) hdead hview.1 rfl _ _
    · cases hs

theorem Inv.step {l : Label} (h : Inv s) (hover : overlaps s l = false)
    (hs : Scanner.step s l = some s') : Inv s' := by
  cases l with
  | call c =>
    simp only [Scanner.step] at hs
    split at hs
    · next hidle =>
      cases hs
      exact h.call hidle hover
    · cases hs
  | broker e => exact h.callerStep hs
  | runner e => exact h.ran (ran_of_runnerStep hs)
  | keys ms =>
    cases hs
    exact ⟨h.base, h.runner⟩
  | paused slots =>
    cases hs
    exact ⟨h.base, h.runner⟩
  | txRoute m =>
    cases hs
    exact ⟨h.base, h.runner⟩

/-! ## the barrier -/

/-- A step that is a device call or moves the route. -/
def Op.touches : Op → Bool
  | .emit _ => false
  | .apply | .carrier _ | .route => true

/-- A preset apply, a carrier read or a route change of the scanner is in
flight. -/
def State.Busy (s : State) : Prop :=
  (∃ v op, s.runner = .inFlight v op ∧ op.touches = true) ∨
    (∃ entry, s.runner = .hold (.routing entry)) ∨
    ∃ reason keyed entry, s.caller = .hold reason keyed (.routing entry)

/-- Behind a barrier the runner does not own the lock. -/
theorem not_owner_of_barrier (hb : s.barrier = true) : ¬ Owner s.view := by
  intro ho
  have := ho.unbarred
  rw [show s.view.barrier = s.barrier from rfl, hb] at this
  cases this

theorem Inv.not_busy (h : Inv s) (hb : s.barrier = true) : ¬ s.Busy := by
  have hok := h.runner
  have hopen := not_owner_of_barrier hb
  rintro (⟨v, op, hr, -⟩ | ⟨entry, hr⟩ | ⟨reason, keyed, entry, hc⟩)
  · rw [hr] at hok
    exact hopen hok.1
  · rw [hr] at hok
    exact hopen hok
  · have := (h.base.barrier hb).2
    rw [show s.view.caller = s.caller from rfl, hc] at this
    cases this

@[simp] theorem txRoute_advance (s : State) (offset : Nat) :
    (s.advance offset).txRoute = s.txRoute := by
  obtain ⟨entries, pending, failStreak, index, visits, outcomes, hadvance⟩ := advance_eq s offset
  rw [hadvance]

@[simp] theorem txRoute_finish (s : State) (reason : Reason) :
    (s.finish reason).txRoute = s.txRoute := by
  simp only [State.finish]
  split
  · rfl
  · obtain ⟨sent, hend⟩ := terminate_eq s reason
    rw [hend]
    rfl

@[simp] theorem txRoute_loop (s : State) : s.loop.txRoute = s.txRoute := by
  simp only [State.loop]
  split
  · rfl
  · split
    · rfl
    · split
      · simp
      · split <;> rfl

@[simp] theorem txRoute_aborted (s : State) : s.aborted.txRoute = s.txRoute := by
  simp [State.aborted]

@[simp] theorem txRoute_visited (s : State) (reachable : Bool) :
    (s.visited reachable).txRoute = s.txRoute := by
  simp only [State.visited]
  split
  · simp
  · split <;> simp

theorem txRoute_next (h : Next s s') : s'.txRoute = s.txRoute := by
  cases h with
  | aborted _ => simp
  | queue v op => rfl
  | sleep v parked => rfl
  | visited reachable => simp
  | finish reason _ => simp
  | hold _ _ => rfl

/-- With nothing in flight, the runner leaves `tx_route` alone. -/
theorem txRoute_ran (h : Ran s s') (hroute : ∀ v, s.runner ≠ .inFlight v .route)
    (hhold : ∀ phase, s.runner ≠ .hold phase) : s'.txRoute = s.txRoute := by
  cases h with
  | starts _ => simp
  | resumes _ => simp
  | drained _ => simp
  | wakes v parked _ hnext => exact txRoute_next hnext
  | refused v op _ _ _ => simp [State.release]
  | gone v op _ _ => simp [State.release]
  | begins v op _ _ _ s₁ hs₁ =>
    obtain rfl | ⟨report, rfl⟩ := hs₁
    · rfl
    · obtain ⟨last, sent, hemit⟩ := emit_eq s report none false
      rw [hemit]
  | landed v op hr tuned routed txRoute htx hnext =>
    rw [txRoute_next hnext]
    apply htx
    rintro rfl
    exact hroute v hr
  | held phase hr _ _ _ => exact absurd hr (hhold phase)

/-- **Hold is a barrier.**  In every run in which the broker does not call
`hold` while the runner is in a hold of its own: once a hold of the broker has
returned and the scan goes on, no apply, carrier read or route change is in
flight, and no step of the runner moves `tx_route`, until the scan is resumed,
skipped or stopped.  What a hold for a key routes is the module to be keyed. -/
theorem hold_is_barrier {s : State} (h : Reachable step (fun s l => overlaps s l = false) init s) :
    (s.barrier = true → ¬ s.Busy ∧ ∀ e s', step s (.runner e) = some s' → s'.txRoute = s.txRoute) ∧
    ∀ reason m entry, s.caller = .hold reason (some m) (.routing entry) → entry.target = m := by
  have hinv : Inv s := by
    apply h.invariant .init
    intro s l s' hinv hover hs
    exact hinv.step hover hs
  refine ⟨fun hb => ⟨hinv.not_busy hb, ?_⟩, hinv.base.route⟩
  intro e s' hs
  have hok := hinv.runner
  have hopen := not_owner_of_barrier hb
  apply txRoute_ran (ran_of_runnerStep hs)
  · intro v hr
    rw [hr] at hok
    exact hopen hok.1
  · intro phase hr
    rw [hr] at hok
    exact hopen hok

/-- The entry of the scan, on the first module. -/
def entryA : Entry := ⟨"a", 1, "fm"⟩

/-- The scan has tuned to its entry and sleeps in the listen window. -/
def tuning : List Label :=
  [.call (.start "scan" [entryA]), .runner .go, .runner .go, .runner .go, .runner .go,
    .runner (.applied .ok), .runner .go, .runner (.read .no false)]

/-- A key of another module is held first, frame and all. -/
def keying : List Label := [.call (.hold .ptt (some (2, "fm"))), .broker .go, .broker .go]

/-- The scan runs into the hold of a key, and its runner finds the flag. -/
theorem hold_is_barrier_sample :
    ∃ s : State, s.barrier = true ∧ s.keys = [(2, "fm")] ∧ ¬ s.Busy := by
  obtain ⟨s, hreach, hb, hkeys⟩ := exists_avoiding step overlaps init
    (tuning ++ keying ++ [.runner .go, .runner .go])
    (P := fun s => s.barrier = true ∧ s.keys = [(2, "fm")]) (by decide)
  exact ⟨s, hb, hkeys, ((hold_is_barrier hreach).1 hb).1⟩

/-- **The route moves under a keyed module.**  The operator resumes while the
second module is keyed, so the runner holds by itself; the key is released while
the runner sends its frame, and pressed again while it moves the route to the
first module.  The hold of that key returns at once. -/
theorem routed_behind_hold :
    ∃ s s' : State, Reachable step (fun _ _ => True) init s ∧ s.barrier = true ∧
      s.keys = [(2, "fm")] ∧ s.runner = .hold (.routing entryA) ∧ s.Busy ∧
      step s (.runner (.routed true)) = some s' ∧ s'.txRoute = some (1, "fm") ∧
      s.txRoute = none := by
  obtain ⟨s, hreach, hb, hkeys, hr, htx, hnext⟩ := exists_reachable step init
    (tuning ++ keying ++ [.call (.control "scan" .resume), .runner .go, .runner .go, .runner .go,
      .keys [], .runner .go, .call (.hold .ptt (some (2, "fm")))])
    (P := fun s => s.barrier = true ∧ s.keys = [(2, "fm")] ∧
      s.runner = .hold (.routing entryA) ∧ s.txRoute = none ∧
      (step s (.runner (.routed true))).map State.txRoute = some (some (1, "fm"))) (by decide)
  obtain ⟨s', hs', htx'⟩ := Option.map_eq_some_iff.mp hnext
  exact ⟨s, s', hreach, hb, hkeys, hr, .inr (.inl ⟨_, hr⟩), hs', htx', htx⟩

end StationManager.Agent.Scanner
