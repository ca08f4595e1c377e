import StationManager.Lib.Table

/-!
# StationManager.Lib.Transition

Transition systems given by a partial step function.  A label carries every
choice of the environment, so one step is a function and a run is a list of
labels; `none` means that the label is not enabled (a guard fails, a lock is
held).

* `run` replays a list of labels; `Reachable` collects the states of all runs
  whose steps meet a side condition, and `Reachable.invariant` is the one
  induction the safety results go through.
* `Pool` interleaves processes over a shared state: each step advances one
  process by one atomic action.  `Pool.invariant_step` is the rule for such
  systems: an invariant of the shared state together with one assertion per
  process, each kept by the process itself and by the steps of the others.
-/

namespace StationManager

/-! ## runs -/

/-- Replay a list of labels. -/
def run (step : σ → ι → Option σ) : σ → List ι → Option σ
  | s, [] => some s
  | s, i :: is => (step s i).bind fun s' => run step s' is

/-- The states of all runs from `s₀` whose every step `i`, taken in state `s`,
meets the condition `ok s i`. -/
inductive Reachable (step : σ → ι → Option σ) (ok : σ → ι → Prop) (s₀ : σ) : σ → Prop
  | init : Reachable step ok s₀ s₀
  | step {s s' : σ} {i : ι} :
      Reachable step ok s₀ s → ok s i → step s i = some s' → Reachable step ok s₀ s'

/-- What holds initially and is kept by every admitted step holds in every
reachable state. -/
theorem Reachable.invariant {step : σ → ι → Option σ} {ok : σ → ι → Prop} {s₀ s : σ}
    {P : σ → Prop} (h : Reachable step ok s₀ s) (h₀ : P s₀)
    (hstep : ∀ s i s', P s → ok s i → step s i = some s' → P s') : P s := by
  induction h with
  | init => exact h₀
  | step _ hok hs ih => exact hstep _ _ _ ih hok hs

/-- A weaker condition admits more runs. -/
theorem Reachable.mono {step : σ → ι → Option σ} {ok ok' : σ → ι → Prop} {s₀ s : σ}
    (h : Reachable step ok s₀ s) (himp : ∀ s i, ok s i → ok' s i) : Reachable step ok' s₀ s := by
  induction h with
  | init => exact .init
  | step _ hok hs ih => exact ih.step (himp _ _ hok) hs

/-- Refuse the steps that `bad` names. -/
def avoiding (step : σ → ι → Option σ) (bad : σ → ι → Bool) (s : σ) (i : ι) : Option σ :=
  if bad s i then none else step s i

/-- A replay that takes no bad step ends in a state reachable without one. -/
theorem Reachable.of_run {step : σ → ι → Option σ} {bad : σ → ι → Bool} {s₀ s t : σ}
    {is : List ι} (hs : Reachable step (fun s i => bad s i = false) s₀ s)
    (h : run (avoiding step bad) s is = some t) :
    Reachable step (fun s i => bad s i = false) s₀ t := by
  induction is generalizing s with
  | nil =>
    cases h
    exact hs
  | cons i is ih =>
    simp only [run] at h
    cases hi : avoiding step bad s i with
    | none =>
      rw [hi] at h
      cases h
    | some u =>
      rw [hi] at h
      unfold avoiding at hi
      split at hi
      · cases hi
      · next hbad => exact ih (hs.step (Bool.eq_false_iff.mpr hbad) hi) h

/-- A replay without side condition ends in a reachable state. -/
theorem reachable_of_run {step : σ → ι → Option σ} {s t : σ} {is : List ι}
    (h : run step s is = some t) : Reachable step (fun _ _ => True) s t := by
  have havoid : run (avoiding step fun _ _ => false) s is = some t := h
  exact (Reachable.of_run .init havoid).mono fun _ _ _ => trivial

/-- What a replay finds at its end is found in a reachable state. -/
theorem exists_reachable (step : σ → ι → Option σ) (s₀ : σ) (is : List ι) {P : σ → Prop}
    [DecidablePred P] (h : (run step s₀ is).any (fun s => P s) = true) :
    ∃ s, Reachable step (fun _ _ => True) s₀ s ∧ P s := by
  obtain ⟨s, hs, hP⟩ := (Option.any_eq_true ..).mp h
  exact ⟨s, reachable_of_run hs, of_decide_eq_true hP⟩

/-- What a replay that takes no bad step finds at its end. -/
theorem exists_avoiding (step : σ → ι → Option σ) (bad : σ → ι → Bool) (s₀ : σ) (is : List ι)
    {P : σ → Prop} [DecidablePred P]
    (h : (run (avoiding step bad) s₀ is).any (fun s => P s) = true) :
    ∃ s, Reachable step (fun s i => bad s i = false) s₀ s ∧ P s := by
  obtain ⟨s, hs, hP⟩ := (Option.any_eq_true ..).mp h
  exact ⟨s, .of_run .init hs, of_decide_eq_true hP⟩

/-- What a replay finds at its end whose every step `ok` admits. -/
theorem exists_admitted (step : σ → ι → Option σ) (ok : σ → ι → Bool) (s₀ : σ) (is : List ι)
    {P : σ → Prop} [DecidablePred P]
    (h : (run (avoiding step fun s i => !ok s i) s₀ is).any (fun s => P s) = true) :
    ∃ s, Reachable step (fun s i => ok s i = true) s₀ s ∧ P s := by
  obtain ⟨s, hs, hP⟩ := exists_avoiding step _ s₀ is h
  exact ⟨s, hs.mono fun _ _ hok => by simpa using hok, hP⟩

/-! ## interleaved processes -/

/-- Processes over a shared state: a process that has not finished has its
local state in `procs`. -/
structure Pool (σ : Type u) (π : Type v) where
  shared : σ
  procs : Table Nat π

/-- What a scheduler can do: start a process for a request, or advance one by
one action. -/
inductive Sched (ρ : Type u) (ε : Type v)
  | spawn (i : Nat) (r : ρ)
  | advance (i : Nat) (e : ε)

namespace Pool

/-- One step of the pool.  `start s r` is the first local state of a process
for request `r`, `none` if the request is refused.  `act i s p e` is one
atomic action of process `i` in local state `p` under the environment's choice
`e`: the new shared state and the new local state, `none` once the process has
finished. -/
def step (start : σ → ρ → Option π) (act : Nat → σ → π → ε → Option (σ × Option π))
    (c : Pool σ π) : Sched ρ ε → Option (Pool σ π)
  | .spawn i r => match c.procs.get? i, start c.shared r with
      | none, some p => some { c with procs := c.procs.insert i p }
      | _, _ => none
  | .advance i e => match c.procs.get? i with
      | none => none
      | some p => match act i c.shared p e with
          | none => none
          | some (s', none) => some ⟨s', c.procs.erase i⟩
          | some (s', some p') => some ⟨s', c.procs.modify i fun _ => p'⟩

/-- No process is in progress. -/
def Quiescent (c : Pool σ π) : Prop := c.procs.entries = []

theorem Quiescent.get? {c : Pool σ π} (h : c.Quiescent) (i : Nat) : c.procs.get? i = none := by
  rw [Table.get?, show c.procs.entries = [] from h]
  rfl

/-- What a step of the pool is: a process has been started, or process `i` has
acted; the other processes stand where they stood. -/
inductive Stepped (start : σ → ρ → Option π) (act : Nat → σ → π → ε → Option (σ × Option π))
    (c c' : Pool σ π) : Sched ρ ε → Prop
  | spawn (i : Nat) (r : ρ) (p : π) : start c.shared r = some p → c.procs.get? i = none →
      c'.shared = c.shared → (∀ j, c'.procs.get? j = if j = i then some p else c.procs.get? j) →
      Stepped start act c c' (.spawn i r)
  | advance (i : Nat) (e : ε) (p : π) (q : Option π) : c.procs.get? i = some p →
      act i c.shared p e = some (c'.shared, q) →
      (∀ j, c'.procs.get? j = if j = i then q else c.procs.get? j) →
      Stepped start act c c' (.advance i e)

/-- A process that acts was in progress, and ends or goes on. -/
theorem acted_of_step {start : σ → ρ → Option π}
    {act : Nat → σ → π → ε → Option (σ × Option π)} {c c' : Pool σ π} {i : Nat} {e : ε}
    (h : step start act c (.advance i e) = some c') :
    ∃ p q, c.procs.get? i = some p ∧ act i c.shared p e = some (c'.shared, q) ∧
      c'.procs = q.elim (c.procs.erase i) fun q => c.procs.modify i fun _ => q := by
  simp only [step] at h
  cases hp : c.procs.get? i with
  | none =>
    rw [hp] at h
    cases h
  | some p =>
    simp only [hp] at h
    split at h <;> cases h
    · next ha => exact ⟨p, none, rfl, ha, rfl⟩
    · next q ha => exact ⟨p, some q, rfl, ha, rfl⟩

theorem stepped_of_step {start : σ → ρ → Option π}
    {act : Nat → σ → π → ε → Option (σ × Option π)} {c c' : Pool σ π} {l : Sched ρ ε}
    (h : step start act c l = some c') : Stepped start act c c' l := by
  cases l with
  | spawn i r =>
    simp only [step] at h
    split at h
    · next p hfree hstart =>
      cases h
      refine .spawn i r p hstart hfree rfl fun j => ?_
      rw [Table.get?_insert, hfree]
      rfl
    · cases h
  | advance i e =>
    obtain ⟨p, q, hp, ha, hprocs⟩ := acted_of_step h
    refine .advance i e p q hp ha fun j => ?_
    rw [hprocs]
    cases q with
    | none => exact Table.get?_erase ..
    | some q =>
      rw [Option.elim_some, Table.get?_modify]
      split
      · next hji =>
        rw [hji, hp]
        rfl
      · rfl

/-- The sum of a measure over the processes in progress. -/
def total (f : π → Nat) (c : Pool σ π) : Nat := c.procs.total f

/-- A step, with what it does to such a sum: a started process adds to it, a process
that acts replaces its part. -/
theorem total_of_step {start : σ → ρ → Option π}
    {act : Nat → σ → π → ε → Option (σ × Option π)} {c c' : Pool σ π} {l : Sched ρ ε}
    (f : π → Nat) (h : step start act c l = some c') :
    (∃ r p, start c.shared r = some p ∧ c'.shared = c.shared ∧ c'.total f = c.total f + f p) ∨
    ∃ i e p q, c.procs.get? i = some p ∧ act i c.shared p e = some (c'.shared, q) ∧
      c'.total f + f p = c.total f + (q.map f).getD 0 := by
  cases l with
  | spawn i r =>
    simp only [step] at h
    split at h
    · next p hfree hstart =>
      cases h
      exact .inl ⟨r, p, hstart, rfl, Table.total_insert _ p f hfree⟩
    · cases h
  | advance i e =>
    obtain ⟨p, q, hp, ha, hprocs⟩ := acted_of_step h
    refine .inr ⟨i, e, p, q, hp, ha, ?_⟩
    rw [total, hprocs]
    cases q with
    | none => exact Table.total_erase _ f hp
    | some q => exact Table.total_modify _ _ f hp

/-- The assertion of a pool: `I` of the shared state and `A i p` of every
process `i` in local state `p`. -/
def Holds (I : σ → Prop) (A : Nat → π → σ → Prop) (c : Pool σ π) : Prop :=
  I c.shared ∧ ∀ i p, c.procs.get? i = some p → A i p c.shared

/-- **Invariant rule for interleaved processes.**  It is enough that a started
process meets its assertion, that a step of process `i` keeps the shared
invariant and its own assertion, and that it keeps the assertions of the
other processes. -/
theorem invariant_step {start : σ → ρ → Option π} {act : Nat → σ → π → ε → Option (σ × Option π)}
    {I : σ → Prop} {A : Nat → π → σ → Prop} (ok : Pool σ π → Sched ρ ε → Prop)
    (hspawn : ∀ c i r p, Holds I A c → ok c (.spawn i r) → start c.shared r = some p →
      A i p c.shared)
    (hown : ∀ c i p e s' p', Holds I A c → ok c (.advance i e) → c.procs.get? i = some p →
      act i c.shared p e = some (s', p') → I s' ∧ ∀ q, p' = some q → A i q s')
    (hother : ∀ c i p e s' p' j q, Holds I A c → ok c (.advance i e) → c.procs.get? i = some p →
      act i c.shared p e = some (s', p') → j ≠ i → c.procs.get? j = some q → A j q s')
    {c c' : Pool σ π} {l : Sched ρ ε} (hc : Holds I A c) (hok : ok c l)
    (h : step start act c l = some c') : Holds I A c' := by
  cases stepped_of_step h with
  | spawn i r p hstart _ hshared hprocs =>
    refine ⟨by rw [hshared]; exact hc.1, ?_⟩
    intro j q hj
    rw [hprocs] at hj
    rw [hshared]
    split at hj
    · next hji =>
      subst hji
      cases hj
      exact hspawn c j r p hc hok hstart
    · exact hc.2 j q hj
  | advance i e p p' hp hact hprocs =>
    obtain ⟨hI, hA⟩ := hown c i p e _ p' hc hok hp hact
    refine ⟨hI, ?_⟩
    intro j q hj
    rw [hprocs] at hj
    split at hj
    · next hji =>
      subst hji
      exact hA q hj
    · next hji => exact hother c i p e _ p' j q hc hok hp hact hji hj

end Pool

end StationManager
