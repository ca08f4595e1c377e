import StationManager.Agent.ScannerPlace

/-!
# StationManager.Agent.ScannerOrder

The way of the scanner through its list.  Whatever the broker does between two
steps of the runner, a scan that runs has a current entry, and between holds and
changes of the list the visits go round the list, so that a round visits every
entry once.

A scan gives up for want of reachable entries when as many visits in a row have
failed as the list is long.  A visit that a hold aborts does not count as
reachable, so that the failed visits need not be in a row
(`gives_up_between_holds`).
-/

namespace StationManager.Agent.Scanner

variable {calm : Prop}

/-! ## calls of the broker -/

variable {s s' : State}

theorem Good.callHold (h : Good calm s.place s.runner) (hidle : s.caller = .idle) (reason : Reason)
    (keyed : Option Module) :
    Good calm (s.callHold reason keyed).place (s.callHold reason keyed).runner := by
  simp only [State.callHold]
  split
  · have hplace : (s.holdReturned keyed).place = s.place := by
      simp only [State.place, State.holdReturned, hidle]
    rw [hplace]
    exact h
  · refine ⟨⟨h.core.position, h.core.pending, .nil, fun _ => .inl rfl, ?_, h.core.streak,
      h.core.ends⟩, .inl rfl, fun _ => .inr (.inl rfl), h.alive⟩
    rintro _ _ ⟨⟩

theorem Good.callStop (h : Good calm s.place s.runner) (reason : Reason)
    (hreason : reason ≠ .noReachableEntries) (next : Option Start) :
    Good calm (s.callStop reason next).place (s.callStop reason next).runner := by
  simp only [State.callStop]
  split
  · exact h
  · refine ⟨⟨h.core.position, h.core.pending, h.core.visits, nofun, ?_, fun _ => .inl rfl,
      h.core.ends⟩, h.track, fun _ => .inr (.inr (.inr rfl)), h.alive⟩
    rintro reason' next' heq
    cases heq
    exact hreason

/-- A scan begins. -/
theorem Core.begin (h : Core calm s.place) (hidle : s.caller = .idle) (hdead : s.runner = .dead)
    (scanId : String) (entries : List Entry) :
    Good calm (s.begin scanId entries).place (s.begin scanId entries).runner := by
  simp only [State.begin]
  split
  · next hnil =>
    subst hnil
    refine ⟨?_, .inr (.inl ?_), fun _ => .inr (.inr (.inl ?_)), fun hr => ?_⟩
    · rw [place_terminate]
      refine ⟨nofun, nofun, .nil, fun _ => .inr rfl, h.stops, fun _ => .inr (.zero _), ?_⟩
      intro hcalm e he
      obtain rfl | he := List.mem_cons.mp he
      · nofun
      · exact h.ends hcalm e he
    · rw [runner_terminate]
      exact hdead
    · rw [place_terminate]
    · rw [runner_terminate] at hr
      exact absurd hdead hr
  · next hne =>
    refine ⟨⟨fun _ => List.length_pos_iff.mpr hne, nofun, .nil, ?_, h.stops,
      fun _ => .inr (.zero _), h.ends⟩, .inl rfl, fun _ => .inl ⟨rfl, rfl⟩, fun _ => rfl⟩
    intro hh
    have hh' : s.caller.isHold = true := hh
    rw [hidle] at hh'
    cases hh'

/-- A hold ends, and the scan goes on from a place that keeps the record and the
count, or gives them up. -/
theorem Good.goesOn {p : Place} (h : Good calm s.place s.runner) (hheld : s.held = true)
    (hcalm : calm → s.held = true → s.failStreak = 0) (hcore : Core calm p)
    (hcaller : p.caller = .idle) (hrun : p.running = s.running)
    (hvisits : p.visits = [] ∨ p.visits = s.visits)
    (hstreak : p.failStreak = 0 ∨ p.failStreak = s.failStreak) :
    Good calm { p with held := false } s.runner := by
  refine ⟨⟨hcore.position, hcore.pending, hcore.visits, ?_, hcore.stops, hcore.streak,
    hcore.ends⟩, ?_, fun hc => .inr (.inr (.inl ?_)), fun hr => hrun.trans (h.alive hr)⟩
  · show p.caller.isHold = true → _
    rw [hcaller]
    nofun
  · obtain hnil | hvisits := hvisits
    · exact .inl hnil
    · obtain hnil | hdead := h.visits_of_held hheld
      · exact .inl (hvisits.trans hnil)
      · exact .inr (.inl hdead)
  · obtain hzero | hstreak := hstreak
    · exact hzero
    · exact hstreak.trans (hcalm hc hheld)

theorem Good.control (h : Good calm s.place s.runner) (hidle : s.caller = .idle)
    (hcalm : calm → s.held = true → s.failStreak = 0) (scanId : String) (action : Action) :
    Good calm (s.control scanId action).place (s.control scanId action).runner := by
  simp only [State.control]
  split
  · exact h
  · next hflags =>
    have hrun : s.running = true := by
      simp only [Bool.or_eq_true, Bool.not_eq_true', not_or, Bool.not_eq_false] at hflags
      exact hflags.1
    cases action with
    | stop => exact h.callStop .operator nofun none
    | hold => exact h.callHold hidle _ _
    | resume =>
      simp only
      split
      · next hheld => exact h.goesOn hheld hcalm h.core hidle rfl (.inr rfl) (.inr rfl)
      · exact h
    | skip =>
      simp only
      split
      · next hheld =>
        have hcore := h.core.advance hrun 1
        have hsame : (s.advance 1).runner = s.runner ∧ (s.advance 1).caller = s.caller := by
          obtain ⟨entries, pending, failStreak, index, visits, outcomes, hadvance⟩ :=
            advance_eq s 1
          rw [hadvance]
          exact ⟨rfl, rfl⟩
        have hstreak : (s.advance 1).failStreak = 0 ∨
            (s.advance 1).failStreak = s.failStreak := by
          simp only [State.advance]
          split
          · exact .inl rfl
          · exact .inr rfl
        show Good calm { (s.advance 1).place with held := false } (s.advance 1).runner
        rw [hsame.1]
        exact h.goesOn hheld hcalm hcore (hsame.2.trans hidle) (running_advance s 1)
          ((visits_advance s 1).imp_right And.left) hstreak
      · exact h
    | other => exact h

theorem Good.call (h : Good calm s.place s.runner) (hidle : s.caller = .idle)
    (hcalm : calm → s.held = true → s.failStreak = 0) (c : Call) :
    Good calm (s.call c).place (s.call c).runner := by
  cases c with
  | start scanId entries =>
    simp only [State.call]
    split
    · exact h.callStop .replaced nofun _
    · next hrun =>
      have hdead : s.runner = .dead := by
        by_contra hr
        exact hrun (h.alive hr)
      exact h.core.begin hidle hdead scanId entries
  | update scanId entries =>
    simp only [State.call, State.update]
    split
    · exact h
    · split
      · exact h.callStop .emptyScanList nofun none
      · next hne =>
        refine ⟨⟨h.core.position, ?_, h.core.visits, h.core.holds, h.core.stops,
          h.core.streak, h.core.ends⟩, h.track, h.settled, h.alive⟩
        rintro new heq
        cases heq
        exact hne
  | control scanId action => exact h.control hidle hcalm scanId action
  | hold reason keyed => exact h.callHold hidle reason keyed
  | disconnect => exact h.callStop .disconnect nofun none
  | shutdown => exact h.callStop .shutdown nofun none

/-- A hold of the broker goes on: there is no record that it could disturb. -/
theorem Good.callerHold {reason : Reason} {keyed : Option Module} {phase : HoldPhase}
    {r : HoldResult} (h : Good calm s.place s.runner) (hc : s.caller.isHold = true)
    (hstep : HoldStepped s .broker reason keyed phase s' r) {c : Caller}
    (hc' : c.isHold = true ∨ c = .idle) : Good calm { s'.place with caller := c } s'.runner := by
  obtain ⟨i, hplace, hi⟩ := hstep.place
  have hcore := h.core.reindex hi
  rw [hplace, hstep.runner_eq]
  refine ⟨⟨hcore.position, hcore.pending, hcore.visits, fun _ => h.core.holds hc, ?_,
    hcore.streak, hcore.ends⟩, ?_, h.settled, h.alive⟩
  · rintro reason' next rfl
    obtain hc' | hc' := hc' <;> cases hc'
  · obtain hheld | hrun := h.core.holds hc
    · exact (h.visits_of_held hheld).imp_right .inl
    · right
      left
      by_contra hr
      rw [h.alive hr] at hrun
      cases hrun

theorem Good.callerStep {e : Event} (h : Good calm s.place s.runner) (hs : s.callerStep e = some s') :
    Good calm s'.place s'.runner := by
  cases hc : s.caller with
  | idle =>
    simp only [State.callerStep, hc] at hs
    cases hs
  | hold reason keyed phase =>
    obtain ⟨s₁, r, hstep, rfl⟩ := holdStepped_of_callerStep hc hs
    have hhold : s.caller.isHold = true := by
      rw [hc]
      rfl
    cases r with
    | on phase' => exact h.callerHold hhold hstep (.inl rfl)
    | returned => exact h.callerHold hhold hstep (.inr rfl)
    | raised => exact h.callerHold hhold hstep (.inr rfl)
  | stop reason next =>
    simp only [State.callerStep, hc] at hs
    split at hs
    · have hplace := place_terminate { (s.release .broker).release .runner with
        runner := .dead } reason
      generalize hs₁ : State.terminate { (s.release .broker).release .runner with
        runner := .dead } reason = s₁ at hs hplace
      have hcore : Core calm s₁.place := by
        rw [← hs₁]
        refine Core.terminate ?_ fun _ heq => absurd heq (h.core.stops reason next hc)
        exact h.core
      have hdead : s₁.runner = .dead := by rw [← hs₁, runner_terminate]
      have hstreak : s₁.failStreak = 0 := congrArg Place.failStreak hplace
      have hidle : Core calm (State.place { s₁ with caller := .idle }) :=
        ⟨hcore.position, hcore.pending, hcore.visits, by rintro ⟨⟩, by rintro _ _ ⟨⟩,
          hcore.streak, hcore.ends⟩
      cases next with
      | none =>
        cases hs
        exact ⟨hidle, .inr (.inl hdead), fun _ => .inr (.inr (.inl hstreak)),
          fun hr => absurd hdead hr⟩
      | some start =>
        cases hs
        exact hidle.begin rfl hdead _ _
    · cases hs

theorem Good.step {l : Label} (h : Good calm s.place s.runner)
    (hcalm : calm → s.held = true → s.failStreak = 0) (hs : Scanner.step s l = some s') :
    Good calm s'.place s'.runner := by
  cases l with
  | call c =>
    simp only [Scanner.step] at hs
    split at hs
    · next hidle =>
      cases hs
      exact h.call hidle hcalm c
    · cases hs
  | broker e => exact h.callerStep hs
  | runner e => exact h.ran hcalm (ran_of_runnerStep hs)
  | keys ms =>
    cases hs
    exact h
  | paused slots =>
    cases hs
    exact h
  | txRoute m =>
    cases hs
    exact h

/-! ## order and coverage -/

/-- The scan is held while visits are failing. -/
def holdsStreak (s : State) (_ : Label) : Bool := s.held && decide (s.failStreak ≠ 0)

/-- **The scan covers its list.**  In every run, a scan that runs has entries and
a current one; since the last hold or change of the list the visits go round the
list, and any round of them visits every entry once.  In a run that is never held
while visits are failing, a scan that gives up has ended with as many failed
visits of its list in a row as the list is long. -/
theorem scan_covers {s : State} (h : Reachable step (fun _ _ => True) init s) :
    (s.running = true → s.entries ≠ [] ∧ s.index < s.entries.length) ∧
    s.visits.IsChain (fun i j => i = (j + 1) % s.entries.length) ∧
    (∀ k i, k + s.entries.length ≤ s.visits.length → i < s.entries.length →
      ((s.visits.drop k).take s.entries.length).count i = 1) ∧
    (Reachable step (fun s l => holdsStreak s l = false) init s →
      ∀ e ∈ s.ends, e.reason = .noReachableEntries →
        e.length ≤ e.outcomes.length ∧ ∀ r ∈ e.outcomes.take e.length, r = .failed) := by
  have hgood : Good False s.place s.runner := by
    apply h.invariant (P := fun s => Good False s.place s.runner) .init
    intro s l s' hgood _ hs
    exact hgood.step nofun hs
  refine ⟨fun hrun => ?_, hgood.core.visits.chain, ?_, ?_⟩
  · have hpos : s.index < s.entries.length := hgood.core.position hrun
    exact ⟨List.length_pos_iff.mp (Nat.lt_of_le_of_lt (Nat.zero_le _) hpos), hpos⟩
  · intro k i hk hi
    apply (hgood.core.visits.window k s.entries.length).count_eq_one _ hi
    show ((s.visits.drop k).take s.entries.length).length = s.entries.length
    rw [List.length_take, List.length_drop]
    omega
  · intro hsteady
    have hgood : Good True s.place s.runner := by
      apply hsteady.invariant (P := fun s => Good True s.place s.runner) .init
      intro s l s' hgood hl hs
      refine hgood.step (fun _ hheld => ?_) hs
      simpa [holdsStreak, hheld] using hl
    exact hgood.core.ends trivial

/-- Two entries on two modules. -/
def pair : List Entry := [⟨"a", 1, "fm"⟩, ⟨"b", 2, "fm"⟩]

/-- The scan starts its first visit. -/
def starting : List Label := [.call (.start "scan" pair), .runner .go]

/-- From the start of a visit to the result of the apply. -/
def applying (r : Applied) : List Label :=
  [.runner .go, .runner .go, .runner .go, .runner (.applied r)]

/-- A visit without a carrier. -/
def silent : List Label := applying .ok ++ [.runner .go, .runner (.read .no true)]

/-- Three visits on the way round, and a scan of which both entries fail. -/
theorem scan_covers_sample : (∃ s : State, s.visits = [1, 0, 1, 0] ∧ s.entries = pair ∧
      ((s.visits.drop 1).take s.entries.length).count 1 = 1) ∧
    ∃ s : State, s.running = false ∧ ∃ e ∈ s.ends, e.reason = .noReachableEntries ∧
      e.length = 2 ∧ ∀ r ∈ e.outcomes.take e.length, r = .failed := by
  refine ⟨?_, ?_⟩
  · obtain ⟨s, hreach, hvisits, hentries⟩ := exists_reachable step init
      (starting ++ silent ++ silent ++ silent)
      (P := fun s => s.visits = [1, 0, 1, 0] ∧ s.entries = pair) (by decide)
    obtain ⟨-, -, hround, -⟩ := scan_covers hreach
    refine ⟨s, hvisits, hentries, hround 1 1 ?_ ?_⟩ <;> rw [hentries]
    · rw [hvisits]
      decide
    · decide
  · obtain ⟨s, hreach, hrun, hends⟩ := exists_avoiding step holdsStreak init
      (starting ++ applying .failed ++ applying .failed)
      (P := fun s => s.running = false ∧
        s.ends = [⟨.noReachableEntries, 2, [.failed, .failed]⟩]) (by decide)
    obtain ⟨-, -, -, hstreak⟩ := scan_covers (hreach.mono fun _ _ _ => trivial)
    have hmem : ⟨.noReachableEntries, 2, [.failed, .failed]⟩ ∈ s.ends := by simp [hends]
    exact ⟨s, hrun, _, hmem, rfl, rfl, (hstreak hreach _ hmem rfl).2⟩

/-- The first entry fails.  The second one has a carrier, the operator holds
there and skips on, and the first one fails again. -/
def skippedPass : List Label :=
  starting ++ applying .failed ++ applying .ok ++
    [.runner .go, .runner (.read .yes false), .runner .go, .runner (.routed true), .runner .go,
      .runner .go,
      .call (.control "scan" .hold), .broker .go, .broker .go, .runner .go, .runner .go,
      .call (.control "scan" .skip), .runner .go] ++ applying .failed

/-- **A scan gives up although an entry was reached.**  The held visit leaves the
count at one, so that the second failure of the same entry ends the scan. -/
theorem gives_up_between_holds : ∃ s : State, run step init skippedPass = some s ∧
      Reachable step (fun _ _ => True) init s ∧
      s.ends = [⟨.noReachableEntries, pair.length, [.failed, .aborted, .failed]⟩] := by
  have h : (run step init skippedPass).map State.ends =
      some [⟨.noReachableEntries, pair.length, [.failed, .aborted, .failed]⟩] := by
    decide
  obtain ⟨s, hs, hends⟩ := Option.map_eq_some_iff.mp h
  exact ⟨s, hs, reachable_of_run hs, hends⟩

end StationManager.Agent.Scanner
