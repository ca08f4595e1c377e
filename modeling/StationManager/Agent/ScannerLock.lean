import StationManager.Agent.ScannerSteps

/-!
# StationManager.Agent.ScannerLock

The step lock.  The argument is about the lock and a few flags only, collected in
`View`: a program that runs a step owns the lock (`RunnerOk`), a step begins only
without a hold, and a hold that waits for the lock gets it after the step in
flight.
-/

namespace StationManager.Agent.Scanner

/-! ## the view -/

/-- Lock and flags. -/
structure View where
  lock : List Party
  caller : Caller
  held : Bool
  stopping : Bool
  running : Bool
  barrier : Bool

def State.view (s : State) : View := ⟨s.lock, s.caller, s.held, s.stopping, s.running, s.barrier⟩

/-- The call is a hold that has got the lock. -/
def Caller.owns : Caller → Bool
  | .hold _ _ .waiting => false
  | .hold .. => true
  | _ => false

/-- The part of the invariant that does not look at the runner. -/
structure Base (v : View) : Prop where
  nodup : v.lock.Nodup
  callerIn : .broker ∈ v.lock ↔ v.caller ≠ .idle
  callerHead : v.caller.owns = true → v.lock.head? = some .broker
  holds : v.caller.isHold = true → v.held = true ∨ v.running = false
  barrier : v.barrier = true → v.held = true ∧ v.caller.isHold = false
  route : ∀ reason m entry, v.caller = .hold reason (some m) (.routing entry) → entry.target = m

variable {s s' : State} {v : View}

/-- Without a hold there is no barrier. -/
theorem Base.unbarred_of_not_held (h : Base v) (hheld : v.held = false) : v.barrier = false := by
  by_contra hb
  have := (h.barrier (by simpa using hb)).1
  rw [hheld] at this
  cases this

/-- Nor is there one in a hold that has not returned. -/
theorem Base.unbarred_of_isHold (h : Base v) (hc : v.caller.isHold = true) : v.barrier = false := by
  by_contra hb
  have := (h.barrier (by simpa using hb)).2
  rw [hc] at this
  cases this

/-- A runner that is alive: the scan runs, and a call on the lock has set its
flag. -/
structure Alive (v : View) : Prop where
  running : v.running = true
  flagged : .broker ∈ v.lock → v.held = true ∨ v.stopping = true

/-- Between two awaits the runner is off the lock. -/
structure Loose (v : View) : Prop where
  base : Base v
  alive : Alive v
  off : .runner ∉ v.lock

/-- The runner owns the lock, and no barrier stands. -/
structure Owner (v : View) : Prop where
  alive : Alive v
  head : v.lock.head? = some .runner
  unbarred : v.barrier = false

/-- What is known where the runner is suspended. -/
def RunnerOk (v : View) : Runner → Prop
  | .dead => .runner ∉ v.lock
  | .fresh | .parked | .sleeping .. => Alive v ∧ .runner ∉ v.lock
  | .queued .. => Alive v ∧ .runner ∈ v.lock
  | .inFlight .. => Owner v ∧ (v.held = true → .broker ∈ v.lock)
  | .hold _ => Owner v

/-- It does not depend on the broker's call. -/
theorem RunnerOk.recall {r : Runner} (h : RunnerOk v r) (c : Caller) :
    RunnerOk { v with caller := c } r := by
  have halive : Alive v → Alive { v with caller := c } := fun ha => ⟨ha.running, ha.flagged⟩
  have howner : Owner v → Owner { v with caller := c } :=
    fun ho => ⟨halive ho.alive, ho.head, ho.unbarred⟩
  cases r with
  | dead => exact h
  | fresh => exact ⟨halive h.1, h.2⟩
  | parked => exact ⟨halive h.1, h.2⟩
  | sleeping v parked => exact ⟨halive h.1, h.2⟩
  | queued v op => exact ⟨halive h.1, h.2⟩
  | inFlight v op => exact ⟨howner h.1, h.2⟩
  | hold phase => exact howner h

structure Inv (s : State) : Prop where
  base : Base s.view
  runner : RunnerOk s.view s.runner

theorem Inv.init : Inv init where
  base := ⟨List.nodup_nil, by simp [State.view, Scanner.init], nofun, nofun, nofun, nofun⟩
  runner := by simp [RunnerOk, State.view, Scanner.init]

/-! ## frames -/

theorem view_emit (s : State) (report : Report) (reason : Option Reason) (untuned : Bool) :
    (s.emit report reason untuned).view = s.view := by
  obtain ⟨last, sent, hemit⟩ := emit_eq s report reason untuned
  rw [hemit]
  rfl

theorem view_advance (s : State) (offset : Nat) : (s.advance offset).view = s.view := by
  obtain ⟨entries, pending, failStreak, index, visits, outcomes, hadvance⟩ := advance_eq s offset
  rw [hadvance]
  rfl

theorem view_terminate (s : State) (reason : Reason) :
    (s.terminate reason).view = ⟨s.lock, s.caller, false, false, false, false⟩ := by
  obtain ⟨sent, hend⟩ := terminate_eq s reason
  rw [hend]
  rfl

/-! ## the runner goes on -/

/-- The head of the lock leaves it. -/
theorem erase_head {lock : List Party} {p : Party} (h : lock.head? = some p) :
    lock = p :: lock.erase p := by
  cases lock with
  | nil => cases h
  | cons q lock =>
    cases h
    rw [List.erase_cons_head]

theorem Loose.of_owner (hbase : Base s.view) (halive : Alive s.view)
    (hhead : s.lock.head? = some .runner) : Loose (s.release .runner).view := by
  have hlock := erase_head hhead
  have hnodup : (Party.runner :: s.lock.erase .runner).Nodup := hlock ▸ hbase.nodup
  obtain ⟨hout, hnodup⟩ := List.nodup_cons.mp hnodup
  have hmem : Party.broker ∈ s.lock.erase .runner ↔ .broker ∈ s.lock := by
    rw [hlock]
    simp
  refine ⟨⟨hnodup, hmem.trans hbase.callerIn, ?_, hbase.holds, hbase.barrier, hbase.route⟩,
    ⟨halive.running, fun h => halive.flagged (hmem.mp h)⟩, hout⟩
  intro howns
  have hbroker := hbase.callerHead howns
  rw [show s.view.lock = s.lock from rfl, hhead] at hbroker
  cases hbroker

theorem Loose.dead (h : Loose s.view) : Inv { s with runner := .dead } :=
  ⟨h.base, h.off⟩

theorem Loose.idle (h : Loose s.view) {r : Runner}
    (hr : r = .parked ∨ ∃ v parked, r = .sleeping v parked) : Inv { s with runner := r } := by
  refine ⟨h.base, ?_⟩
  obtain rfl | ⟨v, parked, rfl⟩ := hr
  · exact ⟨h.alive, h.off⟩
  · exact ⟨h.alive, h.off⟩

/-- The runner queues for a step. -/
theorem Loose.queue (h : Loose s.view) (v : Visit) (op : Op) : Inv (s.queue v op) := by
  have hmem : Party.broker ∈ s.lock ++ [.runner] ↔ .broker ∈ s.lock := by simp
  refine ⟨⟨?_, hmem.trans h.base.callerIn, ?_, h.base.holds, h.base.barrier, h.base.route⟩,
    ⟨h.alive.running, fun hb => h.alive.flagged (hmem.mp hb)⟩, ?_⟩
  · show (s.lock ++ [Party.runner]).Nodup
    exact List.nodup_append.mpr ⟨h.base.nodup, by simp, by
      rintro p hp q hq rfl
      cases List.mem_singleton.mp hq
      exact h.off hp⟩
  · intro howns
    have hhead := h.base.callerHead howns
    show (s.lock ++ [Party.runner]).head? = _
    rw [List.head?_append, show s.lock.head? = some .broker from hhead]
    rfl
  · show Party.runner ∈ s.lock ++ [Party.runner]
    simp

/-- The runner holds: nobody is on the lock. -/
theorem Loose.ownHold (h : Loose s.view) (hheld : s.held = false) (hstop : s.stopping = false) :
    Inv s.ownHold := by
  have hbroker : Party.broker ∉ s.lock := by
    intro hb
    have := h.alive.flagged hb
    simp [State.view, hheld, hstop] at this
  have hnil : s.lock = [] := by
    rw [List.eq_nil_iff_forall_not_mem]
    rintro (_ | _)
    · exact h.off
    · exact hbroker
  have hidle : s.caller = .idle := by
    by_contra hne
    exact hbroker (h.base.callerIn.mpr hne)
  have hopen : s.barrier = false := h.base.unbarred_of_not_held hheld
  refine ⟨⟨?_, ?_, ?_, ?_, ?_, ?_⟩, ⟨h.alive.running, fun _ => .inl rfl⟩, ?_, hopen⟩ <;>
    simp [State.ownHold, State.beginHold, State.enqueue, State.view, hnil, hidle, hopen,
      Caller.owns, Caller.isHold]

theorem Loose.finish (h : Loose s.view) (reason : Reason) : Inv (s.finish reason) := by
  simp only [State.finish]
  split
  · exact h.dead
  · have hview : { s.terminate reason with runner := .dead }.view =
        ⟨s.lock, s.caller, false, false, false, false⟩ := view_terminate s reason
    refine ⟨?_, ?_⟩
    · rw [hview]
      exact ⟨h.base.nodup, h.base.callerIn, h.base.callerHead, fun _ => .inr rfl, nofun,
        h.base.route⟩
    · rw [hview]
      exact h.off

theorem Loose.loop (h : Loose s.view) : Inv s.loop := by
  simp only [State.loop]
  split
  · exact h.idle (.inl rfl)
  · next hheld =>
    split
    · exact h.dead
    · next hstop =>
      split
      · exact h.finish _
      · split
        · refine Loose.queue ?_ _ _
          exact h
        · refine Loose.ownHold ?_ (by simpa using hheld) (by simpa using hstop)
          exact h

theorem Loose.aborted (h : Loose s.view) : Inv s.aborted := by
  refine Loose.loop ?_
  exact h

theorem Loose.advance (h : Loose s.view) (offset : Nat) : Loose (s.advance offset).view := by
  rwa [view_advance]

theorem Loose.visited (h : Loose s.view) (reachable : Bool) : Inv (s.visited reachable) := by
  simp only [State.visited]
  split
  · refine (Loose.advance ?_ 1).loop
    exact h
  · split
    · refine Loose.finish ?_ _
      exact h
    · refine (Loose.advance ?_ 1).loop
      exact h

/-- However the runner goes on. -/
theorem Loose.next (h : Loose s.view) (hnext : Next s s') : Inv s' := by
  cases hnext with
  | aborted _ => exact h.aborted
  | queue v op => exact h.queue v op
  | sleep v parked => exact h.idle (.inr ⟨v, parked, rfl⟩)
  | visited reachable => exact h.visited reachable
  | finish reason _ => exact h.finish reason
  | hold hheld hstop => exact h.ownHold hheld hstop

/-! ## hold -/

/-- A hold goes on with the lock, or it leaves the lock. -/
theorem HoldStepped.view {p : Party} {reason : Reason} {keyed : Option Module} {phase : HoldPhase}
    {r : HoldResult} (h : HoldStepped s p reason keyed phase s' r) :
    (phase = .waiting → s.lock.head? = some p) ∧
      match r with
      | .on phase' => s'.view = s.view ∧ phase' ≠ .waiting ∧
          ∀ entry m, phase' = .routing entry → keyed = some m → entry.target = m
      | .returned | .raised => s'.view = (s.release p).view := by
  cases h with
  | aborted hhead _ => exact ⟨fun _ => hhead, rfl⟩
  | entered hhead _ _ =>
    refine ⟨fun _ => hhead, ?_, nofun, nofun⟩
    rw [view_emit]
    rfl
  | returned pos => exact ⟨nofun, rfl⟩
  | raised pos => exact ⟨nofun, rfl⟩
  | routes pos entry hkeyed =>
    refine ⟨nofun, rfl, nofun, ?_⟩
    rintro _ m ⟨⟩ hm
    obtain hkeyed | ⟨hnone, -⟩ := hkeyed
    · rw [hkeyed] at hm
      cases hm
      rfl
    · rw [hnone] at hm
      cases hm
  | routed entry ok => exact ⟨nofun, rfl⟩

/-! ## steps of the runner -/

/-- The runner gets the lock and begins its step. -/
theorem Inv.begins {v : Visit} {op : Op} (h : Inv s) (hr : s.runner = .queued v op)
    (hhead : s.lock.head? = some .runner) (hheld : s.held = false) (hview : s'.view = s.view) :
    Inv { s' with runner := .inFlight v op } := by
  have hok := h.runner
  rw [hr] at hok
  have hview' : { s' with runner := .inFlight v op }.view = s.view := hview
  refine ⟨by rw [hview']; exact h.base, ?_⟩
  rw [hview']
  refine ⟨⟨hok.1, hhead, h.base.unbarred_of_not_held hheld⟩, fun hh => ?_⟩
  simp [State.view, hheld] at hh

/-- **Every step of the runner keeps the invariant.** -/
theorem Inv.ran (h : Inv s) (hran : Ran s s') : Inv s' := by
  have hok := h.runner
  cases hran with
  | starts hr =>
    rw [hr] at hok
    exact Loose.loop ⟨h.base, hok.1, hok.2⟩
  | resumes hr =>
    rw [hr] at hok
    exact (Loose.advance ⟨h.base, hok.1, hok.2⟩ 0).loop
  | drained hr =>
    rw [hr] at hok
    exact Loose.finish ⟨h.base, hok.1, hok.2⟩ _
  | wakes v parked hr hnext =>
    rw [hr] at hok
    exact Loose.next ⟨h.base, hok.1, hok.2⟩ hnext
  | refused v op hr hhead _ =>
    rw [hr] at hok
    exact (Loose.of_owner h.base hok.1 hhead).aborted
  | gone v op hr hhead =>
    rw [hr] at hok
    exact (Loose.of_owner h.base hok.1 hhead).finish _
  | begins v op hr hhead hheld s₁ hs₁ =>
    obtain rfl | ⟨report, rfl⟩ := hs₁
    · exact h.begins hr hhead hheld rfl
    · exact h.begins hr hhead hheld (view_emit ..)
  | landed v op hr tuned routed txRoute _ hnext =>
    rw [hr] at hok
    refine Loose.next ?_ hnext
    exact Loose.of_owner h.base hok.1.alive hok.1.head
  | held phase hr s₁ r hstep =>
    rw [hr] at hok
    have hloose := Loose.of_owner h.base (Owner.alive hok) hok.head
    obtain ⟨-, hview⟩ := hstep.view
    cases r with
    | on phase' =>
      have hview' : (s₁.afterHold (.on phase')).view = s.view := hview.1
      exact ⟨by rw [hview']; exact h.base, by rw [hview']; exact hok⟩
    | returned =>
      rw [← hview] at hloose
      exact hloose.aborted
    | raised =>
      rw [← hview] at hloose
      exact hloose.finish _

end StationManager.Agent.Scanner
