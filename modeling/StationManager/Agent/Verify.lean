import Mathlib.Algebra.Order.Archimedean.Basic
import Mathlib.Tactic.Linarith
import StationManager.Agent.ModuleOtaCleanup

/-!
# StationManager.Agent.Verify

The poll loop of `_verify` in time.  A round reads the module and then the clock;
a round that decides nothing sleeps until the next deadline, five seconds at most,
and the clock advances by at least that.

`Window.round` says what each round comes to, given all readings.  The loop ends
(`round_ends`), and a round that confirms has a full confirm window behind it
(`round_confirmed`).  `verifyLoop_eq` says that the program makes these rounds.
-/

namespace StationManager.Agent.ModuleOta

/-! ## rounds -/

/-- The results of the reads, and the time after each. -/
structure Readings where
  probe : Nat → Option Identity
  clock : Nat → Rat

/-- The readings after the first. -/
def Readings.tail (r : Readings) : Readings := ⟨fun n => r.probe (n + 1), fun n => r.clock (n + 1)⟩

/-- What a verification starts from. -/
structure Window where
  target : String
  settleUntil : Rat
  deadline : Rat
  confirm : Rat

/-- `wake` -/
def wake (deadline now : Rat) : Option Rat → Rat
  | none => pollUntil deadline none
  | some c => if now < c then c else pollUntil deadline (some c)

/-- The time that the loop sleeps: `min(VERIFY_POLL_S, remaining)`, or the former if
nothing remains. -/
def nap (deadline now : Rat) (confirmUntil : Option Rat) : Rat :=
  let remaining := wake deadline now confirmUntil - now
  if remaining > 0 then (if remaining < verifyPollS then remaining else verifyPollS)
  else verifyPollS

namespace Window

/-- The poll of a reading. -/
def pollAt (v : Window) (r : Readings) (n : Nat) (confirmUntil : Option Rat) : Poll :=
  poll v.target v.settleUntil v.deadline v.confirm (r.clock n) (r.probe n) confirmUntil

/-- Round `n`, if the loop comes to it. -/
def round (v : Window) (r : Readings) (confirmUntil : Option Rat) : Nat → Option Poll
  | 0 => some (v.pollAt r 0 confirmUntil)
  | n + 1 => match v.round r confirmUntil n with
      | some (.again c) => some (v.pollAt r (n + 1) c)
      | _ => none

/-- A round that decides nothing is followed by a sleep. -/
def Advances (v : Window) (r : Readings) : Prop :=
  ∀ n c, v.round r none n = some (.again c) → r.clock n + nap v.deadline (r.clock n) c ≤ r.clock (n + 1)

/-- The target, read when reads are trusted. -/
def Trusted (v : Window) (r : Readings) (n : Nat) : Prop :=
  v.settleUntil ≤ r.clock n ∧ ∃ identity, r.probe n = some identity ∧ identity.version = v.target

/-- Up to round `n` no other version has been read when reads are trusted. -/
def Steady (v : Window) (r : Readings) (n : Nat) : Prop :=
  ∀ j, j ≤ n → ∀ identity, r.probe j = some identity → v.settleUntil ≤ r.clock j →
    identity.version = v.target

end Window

def Poll.undecided : Poll → Bool
  | .again _ => true
  | _ => false

/-- Go on after an undecided poll, or act on a decision. -/
def Poll.elim {α : Type} (p : Poll) (again : Option Rat → α) (decided : Poll → α) : α :=
  match p with
  | .again c => again c
  | p => decided p

/-! ## one poll -/

/-- What a poll can come to. -/
inductive Polled (v : Window) (r : Readings) (n : Nat) (confirmUntil : Option Rat) : Poll → Prop
  | wrong (identity : Identity) : r.probe n = some identity → v.settleUntil ≤ r.clock n →
      identity.version ≠ v.target → Polled v r n confirmUntil (.wrong identity.version)
  | confirmed : v.Trusted r n → confirmUntil.getD (r.clock n + v.confirm) ≤ r.clock n →
      Polled v r n confirmUntil (.confirmed v.target)
  /-- nothing was read that is trusted -/
  | blind : (r.probe n = none ∨ r.clock n < v.settleUntil) →
      Polled v r n confirmUntil (pollEnd v.deadline (r.clock n) confirmUntil)
  /-- the window is open -/
  | early : v.Trusted r n → r.clock n < confirmUntil.getD (r.clock n + v.confirm) →
      Polled v r n confirmUntil
        (pollEnd v.deadline (r.clock n) (some (confirmUntil.getD (r.clock n + v.confirm))))

theorem polled (v : Window) (r : Readings) (n : Nat) (confirmUntil : Option Rat) :
    Polled v r n confirmUntil (v.pollAt r n confirmUntil) := by
  unfold Window.pollAt poll
  cases hp : r.probe n with
  | none => exact .blind (.inl hp)
  | some identity =>
    simp only
    split
    · next hs => exact .blind (.inr hs)
    · next hs =>
      have hs' : v.settleUntil ≤ r.clock n := not_lt.mp hs
      split
      · next hv => exact .wrong identity hp hs' hv
      · next hv =>
        have hv' : identity.version = v.target := not_not.mp hv
        have htrusted : v.Trusted r n := ⟨hs', identity, hp, hv'⟩
        split
        · next hc =>
          rw [hv']
          exact .confirmed htrusted hc
        · next hc => exact .early htrusted (not_le.mp hc)

theorem pollEnd_again {deadline now : Rat} {c c' : Option Rat}
    (h : pollEnd deadline now c = .again c') : c' = c ∧ now < pollUntil deadline c := by
  unfold pollEnd at h
  split at h
  · cases h
  · next hlt =>
    cases h
    exact ⟨rfl, not_le.mp hlt⟩

theorem pollEnd_cases (deadline now : Rat) (c : Option Rat) :
    pollEnd deadline now c = .again c ∨ pollEnd deadline now c = .timedOut c := by
  unfold pollEnd
  split
  · exact .inr rfl
  · exact .inl rfl

/-! ## undecided rounds -/

namespace Window

variable {v : Window} {r : Readings}

/-- What an undecided round leaves: no other version so far, and an end of the confirm
window only if a trusted read has opened it. -/
structure Quiet (v : Window) (r : Readings) (n : Nat) (c : Option Rat) : Prop where
  steady : v.Steady r n
  opened : ∀ x, c = some x → ∃ i, i ≤ n ∧ v.Trusted r i ∧ x = r.clock i + v.confirm

/-- What is known before round `n`, in which the window's end is `c`. -/
structure Before (v : Window) (r : Readings) (n : Nat) (c : Option Rat) : Prop where
  steady : ∀ j, j < n → ∀ identity, r.probe j = some identity → v.settleUntil ≤ r.clock j →
    identity.version = v.target
  opened : ∀ x, c = some x → ∃ i, i < n ∧ v.Trusted r i ∧ x = r.clock i + v.confirm

variable {n : Nat} {c : Option Rat}

theorem Quiet.before (h : v.Quiet r n c) : v.Before r (n + 1) c where
  steady j hj := h.steady j (Nat.le_of_lt_succ hj)
  opened x hx := by
    obtain ⟨i, hi, htrusted, hxi⟩ := h.opened x hx
    exact ⟨i, Nat.lt_succ_of_le hi, htrusted, hxi⟩

theorem before_zero : v.Before r 0 none :=
  ⟨fun _ hj => absurd hj (Nat.not_lt_zero _), fun _ hx => by cases hx⟩

/-- A round that reads no other version. -/
theorem Before.steady_of (h : v.Before r n c)
    (hn : ∀ identity, r.probe n = some identity → v.settleUntil ≤ r.clock n →
      identity.version = v.target) : v.Steady r n := by
  intro j hj
  rcases Nat.lt_or_eq_of_le hj with hj | rfl
  · exact h.steady j hj
  · exact hn

theorem Trusted.version (h : v.Trusted r n) {identity : Identity} (hp : r.probe n = some identity) :
    identity.version = v.target := by
  obtain ⟨-, identity', hp', hv⟩ := h
  rw [hp] at hp'
  cases hp'
  exact hv

/-- **Round step.** -/
theorem Before.quiet {c' : Option Rat} (h : v.Before r n c) (hagain : v.pollAt r n c = .again c') :
    v.Quiet r n c' ∧ r.clock n < pollUntil v.deadline c' ∧ (c' = c ∨ c = none) := by
  have hpolled := polled v r n c
  rw [hagain] at hpolled
  generalize hq : Poll.again c' = q at hpolled
  cases hpolled with
  | wrong | confirmed => cases hq
  | blind hblind =>
    obtain ⟨rfl, hend⟩ := pollEnd_again hq.symm
    refine ⟨⟨h.steady_of fun identity hp hs => ?_, fun x hx => ?_⟩, hend, .inl rfl⟩
    · rcases hblind with hnone | hlt
      · rw [hp] at hnone
        cases hnone
      · exact absurd hs (not_le.mpr hlt)
    · obtain ⟨i, hi, htrusted, hxi⟩ := h.opened x hx
      exact ⟨i, Nat.le_of_lt hi, htrusted, hxi⟩
  | early htrusted hlt =>
    obtain ⟨rfl, hend⟩ := pollEnd_again hq.symm
    refine ⟨⟨h.steady_of fun identity hp _ => htrusted.version hp, fun x hx => ?_⟩, hend, ?_⟩
    · cases c with
      | none => exact ⟨n, Nat.le_refl n, htrusted, (Option.some.inj hx).symm⟩
      | some y =>
        cases hx
        obtain ⟨i, hi, htrusted', hxi⟩ := h.opened y rfl
        exact ⟨i, Nat.le_of_lt hi, htrusted', hxi⟩
    · cases c with
      | none => exact .inr rfl
      | some y => exact .inl rfl

/-- A round is polled with what the round before has left. -/
theorem round_before {p : Poll} (h : v.round r none n = some p) :
    ∃ c, p = v.pollAt r n c ∧ v.Before r n c := by
  induction n generalizing p with
  | zero =>
    cases h
    exact ⟨none, rfl, before_zero⟩
  | succ n ih =>
    simp only [round] at h
    split at h
    · next c hround =>
      cases h
      obtain ⟨c', hp, hbefore⟩ := ih hround
      exact ⟨c, rfl, (hbefore.quiet hp.symm).1.before⟩
    · cases h

/-- **A confirmed round has a full window behind it.**  If the round itself opened the
window, the window was empty. -/
theorem round_confirmed {version : String} (h : v.round r none n = some (.confirmed version)) :
    version = v.target ∧ v.Trusted r n ∧ v.Steady r n ∧
      ∃ i, i ≤ n ∧ (i = n → v.confirm ≤ 0) ∧ v.Trusted r i ∧ r.clock i + v.confirm ≤ r.clock n := by
  obtain ⟨c, hp, hbefore⟩ := round_before h
  have hpolled := polled v r n c
  rw [← hp] at hpolled
  generalize hq : Poll.confirmed version = q at hpolled
  cases hpolled with
  | wrong => cases hq
  | blind =>
    rcases pollEnd_cases v.deadline (r.clock n) c with he | he
    · rw [he] at hq
      cases hq
    · rw [he] at hq
      cases hq
  | early =>
    rcases pollEnd_cases v.deadline (r.clock n)
        (some (c.getD (r.clock n + v.confirm))) with he | he
    · rw [he] at hq
      cases hq
    · rw [he] at hq
      cases hq
  | confirmed htrusted hend =>
    cases hq
    refine ⟨rfl, htrusted, hbefore.steady_of fun _ hp _ => htrusted.version hp, ?_⟩
    cases c with
    | none =>
      simp only [Option.getD_none] at hend
      exact ⟨n, Nat.le_refl n, fun _ => by linarith, htrusted, hend⟩
    | some x =>
      obtain ⟨i, hi, htrusted', hx⟩ := hbefore.opened x rfl
      rw [Option.getD_some, hx] at hend
      exact ⟨i, Nat.le_of_lt hi, fun hin => absurd hi (hin ▸ Nat.lt_irrefl i), htrusted', hend⟩

/-- The rounds before a round were undecided. -/
theorem round_again {j : Nat} {p : Poll} (h : v.round r none n = some p) (hj : j < n) :
    ∃ c, v.round r none j = some (.again c) := by
  induction n generalizing p with
  | zero => exact absurd hj (Nat.not_lt_zero _)
  | succ n ih =>
    simp only [round] at h
    split at h
    · next c hround =>
      rcases Nat.lt_or_eq_of_le (Nat.le_of_lt_succ hj) with hj | rfl
      · exact ih hround hj
      · exact ⟨c, hround⟩
    · cases h

/-! ## the end -/

/-- Whoever sleeps towards `b`, at most five seconds at a time, reaches it. -/
theorem reaches {f : Nat → Rat} {b : Rat} (hstep : ∀ k, f k < b →
    f k + (if b - f k < verifyPollS then b - f k else verifyPollS) ≤ f (k + 1)) : ∃ k, b ≤ f k := by
  by_contra hnever
  have hbelow : ∀ k, f k < b := fun k => not_le.mp fun h => hnever ⟨k, h⟩
  have hfar : ∀ k : Nat, f 0 + 5 * k ≤ f k := by
    intro k
    induction k with
    | zero => simp
    | succ k ih =>
      have hk := hstep k (hbelow k)
      have hnext := hbelow (k + 1)
      push_cast
      split at hk
      · linarith
      · simp only [verifyPollS] at hk
        linarith
  obtain ⟨k, hk⟩ := exists_nat_gt (b - f 0)
  have hat := hfar k
  have hlt := hbelow k
  have hpos : (0 : Rat) ≤ k := Nat.cast_nonneg k
  linarith

/-- A sleep while the wake-up time is ahead. -/
theorem nap_of_lt {deadline now b : Rat} (hw : wake deadline now c = b) (h : now < b) :
    nap deadline now c = if b - now < verifyPollS then b - now else verifyPollS := by
  unfold nap
  simp only [hw]
  rw [if_pos (sub_pos.mpr h)]

theorem nap_nonneg (deadline now : Rat) (c : Option Rat) : 0 ≤ nap deadline now c := by
  have hpoll : (0 : Rat) ≤ verifyPollS := by
    simp only [verifyPollS]
    norm_num
  unfold nap
  simp only
  split
  · next hpos =>
    split
    · exact le_of_lt hpos
    · exact hpoll
  · exact hpoll

/-- **The loop ends**: some round decides. -/
theorem round_ends (hclock : v.Advances r) :
    ∃ n p, v.round r none n = some p ∧ p.undecided = false := by
  by_contra hnever
  -- every round is undecided
  have hall : ∀ n, ∃ c, v.round r none n = some (.again c) := by
    intro n
    induction n with
    | zero =>
      cases hp : v.pollAt r 0 none with
      | again c => exact ⟨c, by rw [round, hp]⟩
      | _ => exact absurd ⟨0, _, rfl, by rw [hp]; rfl⟩ hnever
    | succ n ih =>
      obtain ⟨c, hc⟩ := ih
      have hround : v.round r none (n + 1) = some (v.pollAt r (n + 1) c) := by simp only [round, hc]
      cases hp : v.pollAt r (n + 1) c with
      | again c' => exact ⟨c', by rw [hround, hp]⟩
      | _ => exact absurd ⟨n + 1, _, hround, by rw [hp]; rfl⟩ hnever
  choose c hc using hall
  have hquiet : ∀ n, r.clock n < pollUntil v.deadline (c n) ∧
      (c (n + 1) = c n ∨ c n = none) := by
    intro n
    have hnow : r.clock n < pollUntil v.deadline (c n) := by
      obtain ⟨c', hp, hbefore⟩ := round_before (hc n)
      exact (hbefore.quiet hp.symm).2.1
    refine ⟨hnow, ?_⟩
    have hnext := hc (n + 1)
    simp only [round, hc n, Option.some.injEq] at hnext
    obtain ⟨c', hp, hbefore⟩ := round_before (hc n)
    exact ((hbefore.quiet hp.symm).1.before.quiet hnext).2.2
  have hsleep : ∀ n, r.clock n + nap v.deadline (r.clock n) (c n) ≤ r.clock (n + 1) := fun n =>
    hclock n (c n) (hc n)
  have hmono : Monotone r.clock := monotone_nat_of_le_succ fun n => by
    have hn := hsleep n
    have hpos := nap_nonneg v.deadline (r.clock n) (c n)
    linarith
  by_cases hopen : ∃ m x, c m = some x
  · -- the window is opened once, so its end stays
    obtain ⟨m, x, hm⟩ := hopen
    have hsame : ∀ k, c (m + k) = some x := by
      intro k
      induction k with
      | zero => exact hm
      | succ k ih =>
        rcases (hquiet (m + k)).2 with h | h
        · exact h.trans ih
        · rw [ih] at h
          cases h
    -- its end is reached, and after it the end of the grace
    obtain ⟨k, hk⟩ := reaches (f := fun k => r.clock (m + k)) (b := x) fun k hlt => by
      have hs := hsleep (m + k)
      rw [hsame k, nap_of_lt (by simp only [wake]; exact if_pos hlt) hlt] at hs
      exact hs
    have hafter : ∀ j, x ≤ r.clock (m + (k + j)) := fun j =>
      le_trans hk (hmono (Nat.add_le_add_left (Nat.le_add_right k j) m))
    obtain ⟨j, hj⟩ := reaches (f := fun j => r.clock (m + (k + j)))
      (b := pollUntil v.deadline (some x)) fun j hlt => by
        have hs := hsleep (m + (k + j))
        rw [hsame, nap_of_lt (by simp only [wake]; exact if_neg (not_lt.mpr (hafter j))) hlt] at hs
        exact hs
    have hlt := (hquiet (m + (k + j))).1
    rw [hsame] at hlt
    exact absurd hj (not_le.mpr hlt)
  · have hnone : ∀ n, c n = none := fun n => by
      cases hn : c n with
      | none => rfl
      | some x => exact absurd ⟨n, x, hn⟩ hopen
    obtain ⟨k, hk⟩ := reaches (f := r.clock) (b := pollUntil v.deadline none) fun k hlt => by
      have hs := hsleep k
      rw [hnone k, nap_of_lt rfl hlt] at hs
      exact hs
    have hlt := (hquiet k).1
    rw [hnone k] at hlt
    exact absurd hk (not_le.mpr hlt)

/-- The rounds after the first. -/
theorem round_succ (v : Window) (r : Readings) (c : Option Rat) (n : Nat) :
    v.round r c (n + 1) = (v.pollAt r 0 c).elim (fun c' => v.round r.tail c' n) fun _ => none := by
  induction n with
  | zero =>
    simp only [round]
    cases v.pollAt r 0 c with
    | again c' => rfl
    | _ => rfl
  | succ n ih =>
    rw [round, ih]
    cases v.pollAt r 0 c with
    | again c' => rfl
    | _ => rfl

end Window

/-! ## the program -/

section program

variable (w : World)

/-- What the loop does with a decision. -/
def conclude (m : Marker) (backend : Option String) : Poll → M Result
  | .wrong version =>
    reportRolledBack w m backend
      ("module came back with version " ++ reprStr version ++ " instead of " ++
        reprStr m.targetVersion)
  | .confirmed version => do
    afterVerify w backend
    commit w m.convergenceId version
  | .timedOut confirmUntil =>
    reportRolledBack w m backend (timedOutMessage m.targetVersion confirmUntil)
  | .again _ => Prog.diverge

/-- The readings of a loop that starts after `q` questions. -/
def readings (reads : Nat → Option Identity) (q : Nat) : Readings :=
  ⟨fun n => reads (q + 2 * n), fun n => w.clock (q + 2 * n + 1)⟩

/-- The window of `_verify`. -/
def window (m : Marker) (backend : Option String) (started : Rat) : Window where
  target := m.targetVersion
  settleUntil := started + (backend.map w.settle).getD settleS
  deadline := started + verifyTimeoutS
  confirm := (backend.map w.confirm).getD confirmS

variable {w} {reads : Nat → Option Identity}

theorem readings_tail (q : Nat) : (readings w reads q).tail = readings w reads (q + 2) := by
  simp only [Readings.tail, readings, Readings.mk.injEq]
  constructor
  · funext n
    congr 1
    omega
  · funext n
    congr 1
    omega

/-- One turn of the loop: two questions, and the poll of their answers. -/
theorem verifyLoop_succ (hreads : ∀ n, w.readIdentity n = .ok (reads n)) (m : Marker)
    (backend : Option String) (v : Window) (hv : v.target = m.targetVersion) (fuel : Nat)
    (c : Option Rat) (s : State) :
    verifyLoop w m backend v.settleUntil v.deadline v.confirm (fuel + 1) c s =
      (v.pollAt (readings w reads s.asked) 0 c).elim
        (verifyLoop w m backend v.settleUntil v.deadline v.confirm fuel) (conclude w m backend)
        { s with asked := s.asked + 2 } := by
  have hpoll : v.pollAt (readings w reads s.asked) 0 c =
      poll m.targetVersion v.settleUntil v.deadline v.confirm (w.clock (s.asked + 1))
        (reads s.asked) c := by
    rw [Window.pollAt, hv]
    rfl
  rw [hpoll]
  simp only [verifyLoop, bind, Prog.andThen, ask, query, Prog.answer, hreads]
  cases poll m.targetVersion v.settleUntil v.deadline v.confirm (w.clock (s.asked + 1))
    (reads s.asked) c with
  | _ => rfl

/-- The loop makes the rounds up to the one that decides, and acts on it. -/
theorem verifyLoop_eq (hreads : ∀ n, w.readIdentity n = .ok (reads n)) (m : Marker)
    (backend : Option String) (v : Window) (hv : v.target = m.targetVersion) {n : Nat}
    {c : Option Rat} {s : State} {p : Poll}
    (hround : v.round (readings w reads s.asked) c n = some p) (hp : p.undecided = false)
    {fuel : Nat} (hfuel : n < fuel) :
    verifyLoop w m backend v.settleUntil v.deadline v.confirm fuel c s =
      conclude w m backend p { s with asked := s.asked + 2 * (n + 1) } := by
  induction n generalizing c s fuel with
  | zero =>
    obtain ⟨fuel, rfl⟩ := Nat.exists_eq_succ_of_ne_zero (Nat.pos_iff_ne_zero.mp hfuel)
    cases hround
    rw [verifyLoop_succ hreads m backend v hv]
    cases hpoll : v.pollAt (readings w reads s.asked) 0 c with
    | again =>
      rw [hpoll] at hp
      cases hp
    | _ => rfl
  | succ n ih =>
    obtain ⟨fuel, rfl⟩ := Nat.exists_eq_succ_of_ne_zero (Nat.ne_of_gt (Nat.zero_lt_of_lt hfuel))
    rw [Window.round_succ] at hround
    rw [verifyLoop_succ hreads m backend v hv]
    cases hpoll : v.pollAt (readings w reads s.asked) 0 c with
    | again c' =>
      rw [hpoll, Poll.elim, readings_tail] at hround
      rw [Poll.elim]
      rw [ih hround (Nat.lt_of_succ_lt_succ hfuel)]
      simp only [Nat.mul_add, Nat.add_assoc, Nat.add_comm]
    | _ =>
      rw [hpoll] at hround
      cases hround

/-- `after_verify` returns or raises, and does nothing that is reported. -/
theorem afterVerify_run (backend : Option String) (s : State) :
    (∃ s', afterVerify w backend s = some (.ok (), s') ∧ s'.acts = s.acts) ∨
      ∃ e q s', afterVerify w backend s = some (.error e, s') ∧ w.afterVerify q = .error e ∧
        s'.acts = s.acts := by
  unfold afterVerify
  split
  · cases h : w.afterVerify s.asked with
    | ok u => exact .inl ⟨{ s with asked := s.asked + 1 }, by simp [ask, Prog.answer, h], rfl⟩
    | error e =>
      exact .inr ⟨e, s.asked, { s with asked := s.asked + 1 }, by simp [ask, Prog.answer, h], h,
        rfl⟩
  · exact .inl ⟨s, rfl, rfl⟩

/-- A report is made, whatever comes of its request. -/
theorem status_run (conv : Int) (st : Status) (message : String) (s : State) :
    ∃ s', status w conv st message s = some (.ok (), s') ∧
      s'.acts = s.acts ++ [.status conv st message] := by
  simp only [status, act, bind, Prog.andThen, Prog.change, Prog.tryCatch, ask, Prog.answer]
  cases w.request s.asked with
  | ok resp => exact ⟨_, rfl, rfl⟩
  | error e => exact ⟨_, rfl, rfl⟩

theorem commit_run (conv : Int) (version : String) (s : State) :
    ∃ r s', commit w conv version s = some (.ok r, s') ∧
      s'.acts = s.acts ++ [.commit conv version] := by
  simp only [commit, act, bind, Prog.andThen, Prog.change, Prog.tryCatch, ask, Prog.answer]
  cases w.request s.asked with
  | ok resp => exact ⟨_, _, rfl, rfl⟩
  | error e => exact ⟨_, _, rfl, rfl⟩

/-- How a verification ends: its result and what it has reported. -/
inductive Concluded (w : World) (m : Marker) : Poll → Except Exn Result → List Act → Prop
  | committed (version : String) (r : Result) :
      Concluded w m (.confirmed version) (.ok r) [.commit m.convergenceId version]
  | rolledBack (p : Poll) (message : String) : (∀ version, p ≠ .confirmed version) →
      Concluded w m p (.ok .rolledBack) [.status m.convergenceId .rolledBack message]
  /-- the exception of `after_verify` goes on -/
  | raised (p : Poll) (e : Exn) (q : Nat) : w.afterVerify q = .error e →
      Concluded w m p (.error e) []

theorem reportRolledBack_concluded (m : Marker) (backend : Option String) (message : String)
    (p : Poll) (hp : ∀ version, p ≠ .confirmed version) (s : State) :
    ∃ r s' acts, reportRolledBack w m backend message s = some (r, s') ∧
      s'.acts = s.acts ++ acts ∧ Concluded w m p r acts := by
  simp only [reportRolledBack, bind, Prog.andThen]
  rcases afterVerify_run (w := w) backend s with ⟨s₁, hrun, hacts⟩ | ⟨e, q, s₁, hrun, he, hacts⟩
  · obtain ⟨s₂, hstatus, hacts₂⟩ := status_run (w := w) m.convergenceId .rolledBack message s₁
    simp only [hrun, hstatus]
    exact ⟨_, s₂, _, rfl, by rw [hacts₂, hacts], .rolledBack p message hp⟩
  · simp only [hrun]
    exact ⟨_, s₁, [], rfl, by rw [hacts, List.append_nil], .raised p e q he⟩

theorem conclude_concluded (m : Marker) (backend : Option String) (p : Poll)
    (hp : p.undecided = false) (s : State) :
    ∃ r s' acts, conclude w m backend p s = some (r, s') ∧ s'.acts = s.acts ++ acts ∧
      Concluded w m p r acts := by
  cases p with
  | wrong version => exact reportRolledBack_concluded m backend _ _ (by simp) s
  | timedOut c => exact reportRolledBack_concluded m backend _ _ (by simp) s
  | again c => cases hp
  | confirmed version =>
    simp only [conclude, bind, Prog.andThen]
    rcases afterVerify_run (w := w) backend s with ⟨s₁, hrun, hacts⟩ | ⟨e, q, s₁, hrun, he, hacts⟩
    · obtain ⟨r, s₂, hcommit, hacts₂⟩ := commit_run (w := w) m.convergenceId version s₁
      simp only [hrun, hcommit]
      exact ⟨_, s₂, _, rfl, by rw [hacts₂, hacts], .committed version r⟩
    · simp only [hrun]
      exact ⟨_, s₁, [], rfl, by rw [hacts, List.append_nil], .raised _ e q he⟩

/-- A commit is the act of a confirmed round only. -/
theorem Concluded.commit_mem {m : Marker} {p : Poll} {r : Except Exn Result} {acts : List Act}
    (h : Concluded w m p r acts) {conv : Int} {version : String}
    (hmem : .commit conv version ∈ acts) : p = .confirmed version := by
  cases h with
  | committed v r =>
    cases List.mem_singleton.mp hmem
    rfl
  | rolledBack => simp at hmem
  | raised => cases hmem

/-- **A full confirm window before a commit.**  For any results of the reads and any clock
that advances by at least the slept time, `_verify` ends, after `n + 1` reads say.  If it
commits, then it commits the target, no other version was read since the module had
settled, and of two reads of the target the first came after that and the last `confirm_s`
or more after the first; they are one read only if `confirm_s` is not positive.  If a read
after the settle time gives another version, then it commits nothing and reports
`rolled_back`, unless `after_verify` raises. -/
theorem full_confirm_window (w : World) (reads : Nat → Option Identity)
    (hreads : ∀ n, w.readIdentity n = .ok (reads n)) (m : Marker) (backend : Option String)
    (started : Rat) (s : State)
    (hclock : (window w m backend started).Advances (readings w reads s.asked)) : ∃ n r s' acts,
      (∀ fuel, n < fuel → verify w fuel m backend started s = some (r, s')) ∧
      s'.acts = s.acts ++ acts ∧ (∀ conv version, .commit conv version ∈ acts →
        version = m.targetVersion ∧
        (window w m backend started).Steady (readings w reads s.asked) n ∧
        ∃ i, i ≤ n ∧ (i = n → (window w m backend started).confirm ≤ 0) ∧
          (window w m backend started).Trusted (readings w reads s.asked) i ∧
          (window w m backend started).Trusted (readings w reads s.asked) n ∧
          (readings w reads s.asked).clock i + (window w m backend started).confirm ≤
            (readings w reads s.asked).clock n) ∧
      (¬(window w m backend started).Steady (readings w reads s.asked) n →
        (∀ conv version, .commit conv version ∉ acts) ∧ ((r = .ok .rolledBack ∧ ∃ message,
            acts = [.status m.convergenceId .rolledBack message]) ∨
          ∃ e q, r = .error e ∧ w.afterVerify q = .error e)) := by
  obtain ⟨n, p, hround, hp⟩ := Window.round_ends hclock
  obtain ⟨r, s', acts, hrun, hacts, hend⟩ := conclude_concluded (w := w) m backend p hp
    { s with asked := s.asked + 2 * (n + 1) }
  refine ⟨n, r, s', acts, fun fuel hfuel => ?_, hacts, fun conv version hmem => ?_, fun hwrong => ?_⟩
  · exact (verifyLoop_eq hreads m backend _ rfl hround hp hfuel).trans hrun
  · rw [hend.commit_mem hmem] at hround
    obtain ⟨hversion, htrusted, hsteady, i, hi, hone, htrusted', hlate⟩ :=
      Window.round_confirmed hround
    exact ⟨hversion, hsteady, i, hi, hone, htrusted', htrusted, hlate⟩
  · have hnot : ∀ version, p ≠ .confirmed version := by
      rintro version rfl
      exact hwrong (Window.round_confirmed hround).2.2.1
    refine ⟨fun conv version hmem => hnot version (hend.commit_mem hmem), ?_⟩
    cases hend with
    | committed version => exact absurd rfl (hnot version)
    | rolledBack _ message => exact .inl ⟨rfl, message, rfl⟩
    | raised _ e q he => exact .inr ⟨e, q, rfl, he⟩

end program

theorem nap_le (deadline now : Rat) (c : Option Rat) : nap deadline now c ≤ 5 := by
  have hpoll : verifyPollS = 5 := rfl
  unfold nap
  simp only [hpoll]
  split
  · split
    · next h => exact le_of_lt h
    · exact le_refl _
  · exact le_refl _

/-- A module that comes back with the target, read every hundred seconds. -/
def comesBack : World :=
  { bench with
    settle := fun _ => 45
    confirm := fun _ => 40
    readIdentity := fun _ => .ok (some ⟨some "fm-1", "", "2.0"⟩)
    clock := fun n => 50 * n }

/-- The second read commits, and lies a full window after the first. -/
theorem full_confirm_window_dfu :
    (verify comesBack 2 benchMarker (some "dfu") 0 (fresh .absent)).map
        (fun p => (p.1.toOption, p.2.acts)) = some (some .success, [.commit 7 "2.0"]) ∧
      ∃ n r s' acts, (∀ fuel, n < fuel →
          verify comesBack fuel benchMarker (some "dfu") 0 (fresh .absent) = some (r, s')) ∧
        s'.acts = acts ∧ (.commit 7 "2.0" ∈ acts → ∃ i, i < n ∧
          (readings comesBack (fun _ => some ⟨some "fm-1", "", "2.0"⟩) 0).clock i + 40 ≤
            (readings comesBack (fun _ => some ⟨some "fm-1", "", "2.0"⟩) 0).clock n) := by
  have hclock : (window comesBack benchMarker (some "dfu") 0).Advances
      (readings comesBack (fun _ => some ⟨some "fm-1", "", "2.0"⟩) (fresh .absent).asked) := by
    intro n c _
    have hnap := nap_le (window comesBack benchMarker (some "dfu") 0).deadline
      ((readings comesBack (fun _ => some ⟨some "fm-1", "", "2.0"⟩) (fresh .absent).asked).clock n) c
    have hnow : ∀ k, (readings comesBack (fun _ => some ⟨some "fm-1", "", "2.0"⟩)
        (fresh .absent).asked).clock k = 50 * ((0 + 2 * k + 1 : Nat) : Rat) := fun _ => rfl
    rw [hnow] at hnap ⊢
    rw [hnow]
    push_cast at hnap ⊢
    linarith
  obtain ⟨n, r, s', acts, hrun, hacts, hcommit, -⟩ := full_confirm_window comesBack
    (fun _ => some ⟨some "fm-1", "", "2.0"⟩) (fun _ => rfl) benchMarker (some "dfu") 0
    (fresh .absent) hclock
  refine ⟨by decide +kernel, n, r, s', acts, hrun, hacts, fun hmem => ?_⟩
  obtain ⟨-, -, i, hi, hone, -, -, hlate⟩ := hcommit 7 "2.0" hmem
  have hconfirm : (window comesBack benchMarker (some "dfu") 0).confirm = 40 := rfl
  rw [hconfirm] at hone hlate
  refine ⟨i, Nat.lt_of_le_of_ne hi fun hin => ?_, hlate⟩
  have hpos := hone hin
  norm_num at hpos

/-- A simulated module that comes back with the target. -/
def simulated : World :=
  { bench with readIdentity := fun _ => .ok (some ⟨some "fm-1", "", "2.0"⟩) }

/-- Without a confirm window (the backend of simulated modules has none) one read of the
target commits. -/
theorem committed_on_one_read : (window simulated benchMarker (some "sim") 0).Advances
        (readings simulated (fun _ => some ⟨some "fm-1", "", "2.0"⟩) (fresh .absent).asked) ∧
      (verify simulated 1 benchMarker (some "sim") 0 (fresh .absent)).map
        (fun p => (p.1.toOption, p.2.acts)) = some (some .success, [.commit 7 "2.0"]) := by
  have hfirst : ((window simulated benchMarker (some "sim") 0).round
      (readings simulated (fun _ => some ⟨some "fm-1", "", "2.0"⟩) (fresh .absent).asked) none
        0).map Poll.undecided = some false := by
    decide +kernel
  refine ⟨fun n c hround => ?_, by decide +kernel⟩
  cases n with
  | zero =>
    rw [hround] at hfirst
    cases hfirst
  | succ n =>
    obtain ⟨c', hagain⟩ := Window.round_again hround (Nat.succ_pos n)
    rw [hagain] at hfirst
    cases hfirst

end StationManager.Agent.ModuleOta
