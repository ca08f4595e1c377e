import StationManager.Agent.ScannerSteps
import StationManager.Lib.Cyclic

/-!
# StationManager.Agent.ScannerPlace

Where the scanner is in its list, and what its runner does with it.

The list can change under a visit.  It changes in `advance` only, which assigns
the index along with it.  A hold, which goes back to the tuned entry, ends the
record of the visits.

A visit that a hold aborts leaves the count of failed visits as it is.  What the
count says of the outcomes is therefore stated for `calm` runs, which are not
held in a streak.
-/

namespace StationManager.Agent.Scanner

/-! ## the place -/

/-- List, position and outcomes, and the flags that they depend on. -/
structure Place where
  entries : List Entry
  pending : Option (List Entry)
  index : Nat
  failStreak : Nat
  running : Bool
  held : Bool
  stopping : Bool
  holdGen : Nat
  visitGen : Nat
  caller : Caller
  visits : List Nat
  outcomes : List Outcome
  ends : List End

def State.place (s : State) : Place :=
  ⟨s.entries, s.pending, s.index, s.failStreak, s.running, s.held, s.stopping, s.holdGen,
    s.visitGen, s.caller, s.visits, s.outcomes, s.ends⟩

/-- The last `k` visits have failed. -/
def Failing (outcomes : List Outcome) (k : Nat) : Prop :=
  k ≤ outcomes.length ∧ ∀ r ∈ outcomes.take k, r = .failed

theorem Failing.zero (outcomes : List Outcome) : Failing outcomes 0 := ⟨Nat.zero_le _, nofun⟩

theorem Failing.succ {outcomes : List Outcome} {k : Nat} (h : Failing outcomes k) :
    Failing (.failed :: outcomes) (k + 1) := by
  refine ⟨Nat.succ_le_succ h.1, fun r hr => ?_⟩
  obtain rfl | hr := List.mem_cons.mp (List.take_succ_cons ▸ hr)
  · rfl
  · exact h.2 r hr

theorem Failing.mono {outcomes : List Outcome} {k m : Nat} (h : Failing outcomes k)
    (hle : m ≤ k) : Failing outcomes m :=
  ⟨Nat.le_trans hle h.1, fun r hr => h.2 r (List.take_subset_take_left _ hle hr)⟩

/-- What holds of list and position wherever the runner stands.  What is said of
the failing streak holds in `calm` runs only. -/
structure Core (calm : Prop) (p : Place) : Prop where
  position : p.running = true → p.index < p.entries.length
  pending : ∀ new, p.pending = some new → new ≠ []
  visits : Cyclic p.entries.length p.visits
  holds : p.caller.isHold = true → p.held = true ∨ p.running = false
  stops : ∀ reason next, p.caller = .stop reason next → reason ≠ .noReachableEntries
  streak : calm → p.stopping = true ∨ Failing p.outcomes p.failStreak
  ends : calm → ∀ e ∈ p.ends, e.reason = .noReachableEntries → Failing e.outcomes e.length

/-- The record ends with the current visit, and no hold has come since it began. -/
def Tracked (p : Place) : Prop :=
  p.visits = [] ∨ p.held = false ∧ p.visitGen = p.holdGen ∧ p.visits.head? = some p.index

/-- An aborted visit falls into no streak. -/
def Quiet (p : Place) : Prop := p.held = true ∨ p.failStreak = 0 ∨ p.stopping = true

/-- The runner is in a visit. -/
def Runner.visiting : Runner → Bool
  | .queued .. | .inFlight .. | .sleeping .. => true
  | _ => false

/-- The runner is in a hold of its own. -/
def Runner.isHold : Runner → Bool
  | .hold _ => true
  | _ => false

structure Good (calm : Prop) (p : Place) (r : Runner) : Prop where
  core : Core calm p
  track : p.visits = [] ∨ r = .dead ∨ Tracked p ∧ r.visiting = true
  settled : calm → p.visitGen = p.holdGen ∧ r.isHold = false ∨ Quiet p
  alive : r ≠ .dead → p.running = true

variable {calm : Prop}

theorem Good.init : Good calm init.place init.runner where
  core := ⟨nofun, nofun, .nil, nofun, nofun, fun _ => .inr (.zero _), nofun⟩
  track := .inl rfl
  settled := fun _ => .inr (.inr (.inl rfl))
  alive := absurd rfl

variable {p : Place} {reason : Reason} {r : Runner} {s s' : State}

/-- In a visit the record is on track. -/
theorem Good.tracked (h : Good calm p r) (hdead : r ≠ .dead) : Tracked p := by
  obtain hnil | hdead' | ⟨htrack, -⟩ := h.track
  · exact .inl hnil
  · exact absurd hdead' hdead
  · exact htrack

/-- Out of a visit there is none. -/
theorem Good.visits_nil (h : Good calm p r) (hdead : r ≠ .dead) (hv : r.visiting = false) :
    p.visits = [] := by
  obtain hnil | hdead' | ⟨-, hv'⟩ := h.track
  · exact hnil
  · exact absurd hdead' hdead
  · rw [hv] at hv'
    cases hv'

/-- Nor is there in a hold. -/
theorem Good.visits_of_held (h : Good calm p r) (hheld : p.held = true) :
    p.visits = [] ∨ r = .dead := by
  obtain hnil | hdead | ⟨hnil | ⟨hheld', -⟩, -⟩ := h.track
  · exact .inl hnil
  · exact .inr hdead
  · exact .inl hnil
  · rw [hheld] at hheld'
    cases hheld'

/-! ## the end of a scan -/

theorem place_emit (s : State) (report : Report) (reason : Option Reason) (untuned : Bool) :
    (s.emit report reason untuned).place = s.place := by
  obtain ⟨last, sent, hemit⟩ := emit_eq s report reason untuned
  rw [hemit]
  rfl

theorem place_terminate (s : State) (reason : Reason) :
    (s.terminate reason).place = ⟨[], none, 0, 0, false, false, false, 0, 0, s.caller, [], [],
      ⟨reason, s.entries.length, s.outcomes⟩ :: s.ends⟩ := by
  obtain ⟨sent, hend⟩ := terminate_eq s reason
  rw [hend]
  rfl

theorem Core.terminate (h : Core calm s.place)
    (hreason : calm → reason = .noReachableEntries → Failing s.outcomes s.entries.length) :
    Core calm (s.terminate reason).place := by
  rw [place_terminate]
  refine ⟨nofun, nofun, .nil, fun _ => .inr rfl, h.stops, fun _ => .inr (.zero _), ?_⟩
  intro hcalm e he
  obtain rfl | he := List.mem_cons.mp he
  · exact hreason hcalm
  · exact h.ends hcalm e he

theorem Core.finish (h : Core calm s.place) (hreason : calm → reason = .noReachableEntries →
      s.stopping = true ∨ Failing s.outcomes s.entries.length) :
    Good calm (s.finish reason).place (s.finish reason).runner := by
  simp only [State.finish]
  split
  · next hstop => exact ⟨h, .inr (.inl rfl), fun _ => .inr (.inr (.inr hstop)), absurd rfl⟩
  · next hstop =>
    have hcore : Core calm (s.terminate reason).place :=
      h.terminate fun hcalm heq => (hreason hcalm heq).resolve_left hstop
    have hstreak : (s.terminate reason).place.failStreak = 0 := by rw [place_terminate]
    exact ⟨hcore, .inr (.inl rfl), fun _ => .inr (.inr (.inl hstreak)), absurd rfl⟩

/-! ## the runner goes on -/

/-- **The next index** is one of the list that is current then. -/
theorem Core.advance (h : Core calm s.place) (hrun : s.running = true) (offset : Nat) :
    Core calm (s.advance offset).place := by
  have hpos : s.index < s.entries.length := h.position hrun
  simp only [State.advance]
  split
  · next new hnew =>
    have hlen : 0 < new.length := List.length_pos_iff.mpr (h.pending new hnew)
    refine ⟨fun _ => ?_, by rintro _ ⟨⟩, .nil, h.holds, h.stops, fun _ => .inr (.zero _), h.ends⟩
    dsimp only [State.place]
    split
    · exact Nat.mod_lt _ hlen
    · exact Nat.mod_lt _ hlen
  · exact ⟨fun _ => Nat.mod_lt _ (Nat.lt_of_le_of_lt (Nat.zero_le _) hpos), h.pending, h.visits,
      h.holds, h.stops, h.streak, h.ends⟩

@[simp] theorem running_advance (s : State) (offset : Nat) :
    (s.advance offset).running = s.running := by
  obtain ⟨entries, pending, failStreak, index, visits, outcomes, hadvance⟩ := advance_eq s offset
  rw [hadvance]

@[simp] theorem held_advance (s : State) (offset : Nat) : (s.advance offset).held = s.held := by
  obtain ⟨entries, pending, failStreak, index, visits, outcomes, hadvance⟩ := advance_eq s offset
  rw [hadvance]

/-- The next place, unless the list has changed. -/
theorem visits_advance (s : State) (offset : Nat) :
    (s.advance offset).visits = [] ∨ (s.advance offset).visits = s.visits ∧
      (s.advance offset).entries = s.entries ∧
      (s.advance offset).index = (s.index + offset) % s.entries.length := by
  simp only [State.advance]
  split
  · exact .inl rfl
  · exact .inr ⟨rfl, rfl, rfl⟩

/-- A hold of the runner ends the record. -/
theorem Core.ownHold (h : Core calm s.place) (hrun : s.running = true) :
    Good calm s.ownHold.place s.ownHold.runner :=
  ⟨⟨h.position, h.pending, .nil, fun _ => .inl rfl, h.stops, h.streak, h.ends⟩, .inl rfl,
    fun _ => .inr (.inl rfl), fun _ => hrun⟩

/-- **The top of the loop.**  The visit that begins is the next one on the
record. -/
theorem Core.loop (h : Core calm s.place) (hrun : s.running = true)
    (henter : s.visits = [] ∨ s.held = false ∧ (s.stopping = true ∨
      ∃ i, s.visits.head? = some i ∧ s.index = (i + 1) % s.entries.length)) :
    Good calm s.loop.place s.loop.runner := by
  simp only [State.loop]
  split
  · next hheld =>
    refine ⟨h, .inl ?_, fun _ => .inr (.inl hheld), fun _ => hrun⟩
    obtain hnil | ⟨hheld', -⟩ := henter
    · exact hnil
    · rw [hheld] at hheld'
      cases hheld'
  · next hheld =>
    split
    · next hstop => exact ⟨h, .inr (.inl rfl), fun _ => .inr (.inr (.inr hstop)), absurd rfl⟩
    · next hstop =>
      split
      · exact h.finish nofun
      · have hcyclic : Cyclic s.entries.length (s.index :: s.visits) := by
          refine h.visits.cons (h.position hrun) fun j hj => ?_
          have hj' : s.visits.head? = some j := hj
          obtain hnil | ⟨-, hstop' | ⟨i, hi, hindex⟩⟩ := henter
          · rw [hnil] at hj'
            cases hj'
          · exact absurd hstop' hstop
          · rw [hi] at hj'
            cases hj'
            exact hindex
        split
        · refine ⟨⟨h.position, h.pending, hcyclic, h.holds, h.stops, h.streak, h.ends⟩,
            .inr (.inr ⟨.inr ⟨?_, rfl, rfl⟩, rfl⟩), fun _ => .inl ⟨rfl, rfl⟩, fun _ => hrun⟩
          exact Bool.eq_false_iff.mpr hheld
        · refine Core.ownHold ?_ hrun
          exact ⟨h.position, h.pending, hcyclic, h.holds, h.stops, h.streak, h.ends⟩

/-- A visit is aborted. -/
theorem Core.aborted (h : Core calm s.place) (hrun : s.running = true)
    (henter : s.visits = [] ∨ s.held = false ∧ s.stopping = true)
    (hquiet : calm → s.failStreak = 0 ∨ s.stopping = true) :
    Good calm s.aborted.place s.aborted.runner := by
  refine Core.loop ?_ hrun (henter.imp_right fun he => ⟨he.1, .inl he.2⟩)
  refine ⟨h.position, h.pending, h.visits, h.holds, h.stops, fun hcalm => ?_, h.ends⟩
  obtain hzero | hstop := hquiet hcalm
  · right
    show Failing _ s.failStreak
    rw [hzero]
    exact .zero _
  · exact .inl hstop

/-- **A visit has returned.** -/
theorem Core.visited (h : Core calm s.place) (hrun : s.running = true) (htrack : Tracked s.place)
    (reachable : Bool) : Good calm (s.visited reachable).place (s.visited reachable).runner := by
  -- the loop goes on with any count that the outcomes bear out
  have hloop : ∀ failStreak outcomes,
      (calm → s.stopping = true ∨ Failing outcomes failStreak) →
      Good calm (State.loop (State.advance { s with failStreak, outcomes } 1)).place
        (State.loop (State.advance { s with failStreak, outcomes } 1)).runner := by
    intro failStreak outcomes hstreak
    have hcore : Core calm (State.place { s with failStreak, outcomes }) :=
      ⟨h.position, h.pending, h.visits, h.holds, h.stops, hstreak, h.ends⟩
    refine (hcore.advance hrun 1).loop (by simpa using hrun) ?_
    obtain hnil | ⟨hvisits, hentries, hindex⟩ :=
      visits_advance { s with failStreak, outcomes } 1
    · exact .inl hnil
    · rw [held_advance, hvisits, hentries, hindex]
      obtain hnil | ⟨hheld, -, hhead⟩ := htrack
      · exact .inl hnil
      · exact .inr ⟨hheld, .inr ⟨s.index, hhead, rfl⟩⟩
  simp only [State.visited]
  split
  · exact hloop _ _ fun _ => .inr (.zero _)
  · have hstreak : calm → s.stopping = true ∨
        Failing (.failed :: s.outcomes) (s.failStreak + 1) :=
      fun hcalm => (h.streak hcalm).imp_right Failing.succ
    split
    · next hlong =>
      refine Core.finish ?_ fun hcalm _ => (hstreak hcalm).imp_right (·.mono hlong)
      exact ⟨h.position, h.pending, h.visits, h.holds, h.stops, hstreak, h.ends⟩
    · exact hloop _ _ hstreak

/-- However the runner goes on. -/
theorem Core.next (h : Core calm s.place) (hrun : s.running = true) (htrack : Tracked s.place)
    (hsettled : calm → s.visitGen = s.holdGen ∨ Quiet s.place)
    (hcalm : calm → s.held = true → s.failStreak = 0) (hnext : Next s s') :
    Good calm s'.place s'.runner := by
  cases hnext with
  | aborted hflags =>
    refine h.aborted hrun ?_ fun hc => hflags.imp_left (hcalm hc)
    obtain hnil | ⟨hheld, -⟩ := htrack
    · exact .inl hnil
    · refine .inr ⟨hheld, hflags.resolve_left ?_⟩
      rw [show s.held = false from hheld]
      nofun
  | queue v op =>
    exact ⟨h, .inr (.inr ⟨htrack, rfl⟩), fun hc => (hsettled hc).imp_left (⟨·, rfl⟩),
      fun _ => hrun⟩
  | sleep v parked =>
    exact ⟨h, .inr (.inr ⟨htrack, rfl⟩), fun hc => (hsettled hc).imp_left (⟨·, rfl⟩),
      fun _ => hrun⟩
  | visited reachable => exact h.visited hrun htrack reachable
  | finish reason hreason => exact h.finish fun _ heq => absurd heq hreason
  | hold _ _ => exact h.ownHold hrun

/-! ## hold -/

theorem tunedPos_lt {pos : Nat} (h : s.tunedPos = some pos) : pos < s.entries.length := by
  obtain ⟨ref, -, hpos⟩ := Option.bind_eq_some_iff.mp h
  exact (List.findIdx?_eq_some_iff_getElem.mp hpos).1

/-- A hold goes back to the tuned entry of the current list. -/
theorem HoldStepped.place {p : Party} {keyed : Option Module} {phase : HoldPhase} {r : HoldResult}
    (h : HoldStepped s p reason keyed phase s' r) : ∃ i, s'.place = { s.place with index := i } ∧
      (s.index < s.entries.length → i < s.entries.length) := by
  cases h with
  | entered _ _ _ =>
    refine ⟨s.tunedPos.getD s.index, by rw [place_emit]; rfl, fun hlt => ?_⟩
    cases hpos : s.tunedPos with
    | none => exact hlt
    | some pos => exact tunedPos_lt hpos
  | aborted _ _ => exact ⟨s.index, rfl, id⟩
  | returned _ => exact ⟨s.index, rfl, id⟩
  | raised _ => exact ⟨s.index, rfl, id⟩
  | routes _ _ _ => exact ⟨s.index, rfl, id⟩
  | routed _ _ => exact ⟨s.index, rfl, id⟩

/-- The index may change where no record is kept. -/
theorem Core.reindex (h : Core calm p) {i : Nat}
    (hi : p.index < p.entries.length → i < p.entries.length) : Core calm { p with index := i } :=
  ⟨fun hrun => hi (h.position hrun), h.pending, h.visits, h.holds, h.stops, h.streak, h.ends⟩

/-! ## steps of the runner -/

theorem Good.held {s₁ : State} {phase : HoldPhase} {r : HoldResult} (h : Good calm s.place s.runner)
    (hcalm : calm → s.held = true → s.failStreak = 0) (hr : s.runner = .hold phase)
    (hstep : HoldStepped s .runner .ptt none phase s₁ r) :
    Good calm (s₁.afterHold r).place (s₁.afterHold r).runner := by
  have hrun : s.running = true := h.alive (by rw [hr]; nofun)
  have hnil : s.visits = [] := h.visits_nil (by rw [hr]; nofun) (by rw [hr]; rfl)
  have hquiet : calm → Quiet s.place := fun hc => by
    obtain ⟨-, hno⟩ | hquiet := h.settled hc
    · rw [hr] at hno
      cases hno
    · exact hquiet
  obtain ⟨i, hplace, hi⟩ := hstep.place
  have hcore : Core calm s₁.place := by
    rw [hplace]
    exact h.core.reindex hi
  simp only [State.place, Place.mk.injEq] at hplace
  obtain ⟨-, -, -, hstreak, hrun', hheld, hstop, -, -, -, hvisits, -, -⟩ := hplace
  cases r with
  | on phase' =>
    refine ⟨hcore, .inl ?_, fun hc => .inr ?_, fun _ => ?_⟩
    · exact hvisits.trans hnil
    · show s₁.held = true ∨ s₁.failStreak = 0 ∨ s₁.stopping = true
      rw [hheld, hstreak, hstop]
      exact hquiet hc
    · exact hrun'.trans hrun
  | returned =>
    refine hcore.aborted (hrun'.trans hrun) (.inl (hvisits.trans hnil)) fun hc => ?_
    rw [hstreak, hstop]
    obtain hheld' | hrest := hquiet hc
    · exact .inl (hcalm hc hheld')
    · exact hrest
  | raised => exact hcore.finish nofun

/-- **Every step of the runner keeps the invariant.** -/
theorem Good.ran (h : Good calm s.place s.runner) (hcalm : calm → s.held = true → s.failStreak = 0)
    (hran : Ran s s') : Good calm s'.place s'.runner := by
  have hsettled : calm → s.visitGen = s.holdGen ∨ Quiet s.place :=
    fun hc => (h.settled hc).imp_left And.left
  cases hran with
  | starts hr =>
    have hnil : s.visits = [] := h.visits_nil (by rw [hr]; nofun) (by rw [hr]; rfl)
    exact h.core.loop (h.alive (by rw [hr]; nofun)) (.inl hnil)
  | resumes hr =>
    have hrun : s.running = true := h.alive (by rw [hr]; nofun)
    have hnil : s.visits = [] := h.visits_nil (by rw [hr]; nofun) (by rw [hr]; rfl)
    refine (h.core.advance hrun 0).loop (by simpa using hrun) (.inl ?_)
    obtain hnil' | ⟨hvisits, -⟩ := visits_advance s 0
    · exact hnil'
    · exact hvisits.trans hnil
  | drained hr => exact h.core.finish nofun
  | wakes v parked hr hnext =>
    have hdead : s.runner ≠ .dead := by rw [hr]; nofun
    exact h.core.next (h.alive hdead) (h.tracked hdead) hsettled hcalm hnext
  | refused v op hr _ hflags =>
    have hdead : s.runner ≠ .dead := by rw [hr]; nofun
    refine Core.aborted (s := s.release .runner) h.core (h.alive hdead) ?_ fun hc => ?_
    · obtain hnil | ⟨hheld, hgen, -⟩ := h.tracked hdead
      · exact .inl hnil
      · have hheld' : s.held = false := hheld
        simp only [hheld', show s.visitGen = s.holdGen from hgen, ne_eq, not_true, or_false,
          Bool.false_eq_true, false_or] at hflags
        exact .inr ⟨hheld, hflags⟩
    · obtain hheld | hstop | hgen := hflags
      · exact .inl (hcalm hc hheld)
      · exact .inr hstop
      · obtain hheld | hrest := (hsettled hc).resolve_left hgen
        · exact .inl (hcalm hc hheld)
        · exact hrest
  | gone v op hr _ => exact Core.finish (s := s.release .runner) h.core nofun
  | begins v op hr _ _ s₁ hs₁ =>
    have hdead : s.runner ≠ .dead := by rw [hr]; nofun
    have hplace : s₁.place = s.place := by
      obtain rfl | ⟨report, rfl⟩ := hs₁
      · rfl
      · exact place_emit ..
    show Good calm s₁.place _
    rw [hplace]
    exact ⟨h.core, .inr (.inr ⟨h.tracked hdead, rfl⟩),
      fun hc => (hsettled hc).imp_left (⟨·, rfl⟩), fun _ => h.alive hdead⟩
  | landed v op hr tuned routed txRoute _ hnext =>
    have hdead : s.runner ≠ .dead := by rw [hr]; nofun
    refine Core.next ?_ ?_ ?_ ?_ ?_ hnext
    · exact h.core
    · exact h.alive hdead
    · exact h.tracked hdead
    · exact hsettled
    · exact hcalm
  | held phase hr s₁ r hstep => exact h.held hcalm hr hstep

end StationManager.Agent.Scanner
