import StationManager.Agent.Broker

/-!
# StationManager.Agent.Guard

When a keyed transmitter counts as guarded, and what keeps it so.  `Inv` says
that every module whose last PTT line keyed it has an entry in `_ptt` with a
sleeping timer, an un-key that has yet to be written, or the handler in the
middle of keying it.  What one call on the control device can do is said once,
in `advance_cases`; the timers are armed and dropped by `Inv.arm` and
`Inv.disarm`.
-/

namespace StationManager.Agent.Broker

open Telemetry (Addr)

/-! ## lines -/

theorem keyed_cons_self {l : Line} {b : Bool} (wire : List Line) (h : l.ptt? = some b) :
    keyed (l :: wire) l.addr = b := by
  simp [keyed, h]

variable {a b : Addr} {failsafe : Bool} {e : Entry} {line : Line} {phase : Phase} {s s' : State}

/-- Only a `ptt true` line keys. -/
theorem keyed_of_cons {l : Line} {wire : List Line} (h : keyed (l :: wire) a = true)
    (hl : l.addr = a → l.ptt? ≠ some true) : keyed wire a = true := by
  simp only [keyed] at h
  split at h
  · next ha =>
    cases hp : l.ptt? with
    | none => simpa [hp] using h
    | some b =>
      simp only [hp] at h
      subst h
      exact absurd hp (hl ha)
  · exact h

@[simp] theorem ptt?_unkeyLine (a : Addr) : (unkeyLine a "ptt").ptt? = some false := by
  simp [unkeyLine, Line.ptt?]

/-! ## a call -/

/-- **What happens to a call.**  It gets the lock, its line is written, or it
returns; a success is the reply to a line. -/
theorem advance_cases {e : Event} {p : Progress}
    (h : s.advance line failsafe phase e = some (s', p)) : (∃ locks, s' = { s with locks } ∧
      (phase = .queued ∧ p = .at .running ∨
        ∃ o, p = .done o ∧ (o = .ok → phase = .written) ∧
          (e = .finish o ∨ phase = .queued ∧ failsafe = false))) ∨
      phase = .running ∧ p = .at .written ∧ s' = { s with wire := line :: s.wire } := by
  cases phase with
  | queued =>
    cases e with
    | enter =>
      simp only [State.advance] at h
      split at h
      · cases h
      · split at h
        · next hp =>
          cases h
          simp only [Bool.and_eq_true, Bool.not_eq_true'] at hp
          exact .inl ⟨_, rfl, .inr ⟨_, rfl, nofun, .inr ⟨rfl, hp.1⟩⟩⟩
        · cases h
          exact .inl ⟨_, rfl, .inl ⟨rfl, rfl⟩⟩
    | write => cases h
    | finish o => cases h
  | running =>
    cases e with
    | enter => cases h
    | write =>
      cases h
      exact .inr ⟨rfl, rfl, rfl⟩
    | finish o =>
      cases o with
      | ok => cases h
      | error code =>
        cases h
        exact .inl ⟨_, rfl, .inr ⟨_, rfl, nofun, .inl rfl⟩⟩
  | written =>
    cases e with
    | enter => cases h
    | write => cases h
    | finish o =>
      cases h
      exact .inl ⟨_, rfl, .inr ⟨_, rfl, fun _ => rfl, .inl rfl⟩⟩

/-- A call that goes on. -/
theorem advance_at {phase' : Phase} {e : Event}
    (h : s.advance line failsafe phase e = some (s', .at phase')) :
    (∃ locks, s' = { s with locks } ∧ phase = .queued ∧ phase' = .running) ∨
      s' = { s with wire := line :: s.wire } ∧ phase = .running ∧ phase' = .written := by
  obtain ⟨locks, rfl, ⟨rfl, hp⟩ | ⟨o, hp, -⟩⟩ | ⟨rfl, hp, rfl⟩ := advance_cases h
  · cases hp
    exact .inl ⟨locks, rfl, rfl, rfl⟩
  · cases hp
  · cases hp
    exact .inr ⟨rfl, rfl, rfl⟩

/-- A call that returns. -/
theorem advance_done {e : Event} {o : Outcome}
    (h : s.advance line failsafe phase e = some (s', .done o)) :
    ∃ locks, s' = { s with locks } ∧ (o = .ok → phase = .written) ∧
      (e = .finish o ∨ phase = .queued ∧ failsafe = false) := by
  obtain ⟨locks, rfl, ⟨-, hp⟩ | ⟨o, hp, hrest⟩⟩ | ⟨-, hp, -⟩ := advance_cases h
  · cases hp
  · cases hp
    exact ⟨locks, rfl, hrest⟩
  · cases hp

/-! ## the guard -/

/-- What the handler itself guards: the module it is keying, from the line to
the reply, and the module whose un-key it has yet to write. -/
def Handler.shields : Handler → Addr → Prop
  | .command job phase, a => job.ptt = some true ∧ job.line.addr = a ∧ phase = .written
  | .unkey b _ _ phase, a => b = a ∧ phase ≠ .written
  | _, _ => False

/-- An un-key that a dead-man task has yet to write. -/
def State.UnkeyTask (s : State) (a : Addr) : Prop :=
  ∃ t phase, s.tasks.get? t = some (.unkey a "ptt" phase) ∧ phase ≠ .written

def State.Guarded (s : State) (a : Addr) : Prop :=
  (s.ptt.get? a).isSome = true ∨ s.UnkeyTask a ∨ s.handler.shields a

/-- The job's line does what the job says. -/
structure JobOk (job : Job) : Prop where
  line : ∀ b, job.ptt = some b → job.line.ptt? = some b
  quiet : job.ptt = none → job.line.ptt? ≠ some true

/-- What is known where the handler stands. -/
def State.HandlerOk (s : State) : Handler → Prop
  | .idle | .holdingPreset .. => True
  | .holding job => JobOk job
  | .command job phase => JobOk job ∧ (job.ptt.isSome = true → job.line.addr ∈ s.inflight) ∧
      (job.ptt = some false → phase = .written → keyed s.wire job.line.addr = false)
  | .preset _ line _ => line.ptt? = none
  | .disconnect todo => ∀ a e, s.ptt.get? a = some e → ∃ e', (a, e') ∈ todo
  | .unkey _ cap todo _ => cap = "ptt" ∧ ∀ a e, s.ptt.get? a = some e → ∃ e', (a, e') ∈ todo
  | .closing => ∀ a, s.ptt.get? a = none

def TaskOk : Task → Prop
  | .sleeping _ cap | .unkey _ cap _ => cap = "ptt"
  | .orphan _ => False

/-- The invariant. -/
structure Inv (s : State) : Prop where
  entries : ∀ a e, s.ptt.get? a = some e →
    e.cap = "ptt" ∧ s.tasks.get? e.task = some (.sleeping a "ptt")
  tasks : ∀ t task, s.tasks.get? t = some task → t < s.next ∧ TaskOk task
  guarded : ∀ a, keyed s.wire a = true → s.Guarded a
  handler : s.HandlerOk s.handler

theorem Inv.init : Inv init where
  entries := nofun
  tasks := nofun
  guarded := nofun
  handler := trivial

/-- Fields that no timer, line or handler depends on. -/
theorem Inv.congr (h : Inv s) (hptt : s'.ptt = s.ptt) (htasks : s'.tasks = s.tasks)
    (hnext : s'.next = s.next) (hwire : s'.wire = s.wire) (hinflight : s'.inflight = s.inflight)
    (hhandler : s'.handler = s.handler) : Inv s' := by
  obtain ⟨_, _, _, _, _, _, _, _, _, _, _, _, _⟩ := s
  obtain ⟨_, _, _, _, _, _, _, _, _, _, _, _, _⟩ := s'
  cases hptt
  cases htasks
  cases hnext
  cases hwire
  cases hinflight
  cases hhandler
  exact ⟨h.entries, h.tasks, h.guarded, h.handler⟩

/-- The handler moves on; what it guarded is guarded otherwise. -/
theorem Inv.moved (h : Inv s) (hptt : s'.ptt = s.ptt) (htasks : s'.tasks = s.tasks)
    (hnext : s'.next = s.next) (hwire : s'.wire = s.wire) (hok : s'.HandlerOk s'.handler)
    (hguard : ∀ a, s.handler.shields a → keyed s.wire a = true →
      s'.handler.shields a ∨ (s.ptt.get? a).isSome = true) : Inv s' where
  entries := by
    rw [hptt, htasks]
    exact h.entries
  tasks := by
    rw [htasks, hnext]
    exact h.tasks
  guarded a ha := by
    rw [hwire] at ha
    obtain hg | ⟨t, phase, ht⟩ | hg := h.guarded a ha
    · exact .inl (by rwa [hptt])
    · exact .inr (.inl ⟨t, phase, by rwa [htasks]⟩)
    · obtain hg | hg := hguard a hg ha
      · exact .inr (.inr hg)
      · exact .inl (by rwa [hptt])
  handler := hok

/-! ## timers -/

/-- The timer of an entry sleeps, so cancelling it drops the task. -/
theorem Inv.cancel (h : Inv s) (he : s.ptt.get? a = some e) :
    s.cancel e.task = { s with tasks := s.tasks.erase e.task } := by
  simp only [State.cancel, (h.entries a e he).2]

/-- Entries of different modules have different tasks. -/
theorem Inv.task_ne {e' : Entry} (h : Inv s) (he : s.ptt.get? a = some e)
    (he' : s.ptt.get? b = some e') (hab : b ≠ a) : e'.task ≠ e.task := by
  intro heq
  have ha := (h.entries a e he).2
  have hb := (h.entries b e' he').2
  rw [heq, ha] at hb
  cases hb
  exact hab rfl

/-- An un-key task is not the timer of an entry. -/
theorem Inv.unkey_ne {t : Nat} {cap : String} (h : Inv s) (he : s.ptt.get? a = some e)
    (ht : s.tasks.get? t = some (.unkey b cap phase)) : t ≠ e.task := by
  intro heq
  rw [heq, (h.entries a e he).2] at ht
  cases ht

/-- The entry of a module and its timer are dropped. -/
def State.drop (s : State) (a : Addr) (e : Entry) : State :=
  { s with ptt := s.ptt.erase a, tasks := s.tasks.erase e.task }

theorem Inv.disarm_eq (h : Inv s) (a : Addr) : s.ptt.get? a = none ∧ s.disarm a = s ∨
      ∃ e, s.ptt.get? a = some e ∧ s.disarm a = s.drop a e := by
  cases he : s.ptt.get? a with
  | none => exact .inl ⟨rfl, by simp [State.disarm, he]⟩
  | some e =>
    refine .inr ⟨e, rfl, ?_⟩
    simp only [State.disarm, he, State.cancel, (h.entries a e he).2, State.drop]

/-- Without the entry of `a`, everything but the guard of `a` is left. -/
theorem Inv.drop_entries (h : Inv s) (he : s.ptt.get? a = some e) (b : Addr) (e' : Entry)
    (hb : (s.drop a e).ptt.get? b = some e') :
    e'.cap = "ptt" ∧ (s.drop a e).tasks.get? e'.task = some (.sleeping b "ptt") ∧ b ≠ a := by
  simp only [State.drop, Table.get?_erase] at hb ⊢
  split at hb
  · cases hb
  · next hba =>
    rw [if_neg (h.task_ne he hb hba)]
    exact ⟨(h.entries b e' hb).1, (h.entries b e' hb).2, hba⟩

theorem Inv.drop_tasks (h : Inv s) (t : Nat) (task : Task)
    (ht : (s.drop a e).tasks.get? t = some task) : t < s.next ∧ TaskOk task := by
  simp only [State.drop, Table.get?_erase] at ht
  split at ht
  · cases ht
  · exact h.tasks t task ht

theorem Inv.drop_guarded (h : Inv s) (he : s.ptt.get? a = some e) (hb : keyed s.wire b = true)
    (hba : b ≠ a) : (s.drop a e).Guarded b := by
  obtain hg | ⟨t, phase, ht, hphase⟩ | hg := h.guarded b hb
  · refine .inl ?_
    simp only [State.drop, Table.get?_erase, if_neg hba]
    exact hg
  · refine .inr (.inl ⟨t, phase, ?_, hphase⟩)
    simp only [State.drop, Table.get?_erase, if_neg (h.unkey_ne he ht)]
    exact ht
  · exact .inr (.inr hg)

/-- An un-keyed module may lose its timer. -/
theorem Inv.disarm (h : Inv s) (ha : keyed s.wire a = false) (hh : (s.disarm a).HandlerOk s.handler) :
    Inv (s.disarm a) := by
  obtain ⟨-, heq⟩ | ⟨e, he, heq⟩ := h.disarm_eq a
  · rw [heq]
    exact h
  · rw [heq] at hh ⊢
    refine ⟨?_, h.drop_tasks, ?_, hh⟩
    · intro b e' hb
      obtain ⟨hcap, ht, -⟩ := h.drop_entries he b e' hb
      exact ⟨hcap, ht⟩
    · intro b hb
      apply h.drop_guarded he hb
      rintro rfl
      rw [show keyed s.wire b = true from hb] at ha
      cases ha

/-- A new timer. -/
theorem Inv.insert {next : Nat} (hnext : s.next = next)
    (hentries : ∀ b e, s.ptt.get? b = some e → e.cap = "ptt" ∧
      s.tasks.get? e.task = some (.sleeping b "ptt") ∧ b ≠ a)
    (htasks : ∀ t task, s.tasks.get? t = some task → t < s.next ∧ TaskOk task)
    (hguarded : ∀ b, keyed s.wire b = true → b ≠ a → s.Guarded b) (hs : s' = { s with
      tasks := s.tasks.insert next (.sleeping a "ptt")
      ptt := s.ptt.insert a ⟨"ptt", next⟩
      next := next + 1 }) (hh : s'.HandlerOk s'.handler) : Inv s' := by
  subst hs hnext
  have hnone : s.ptt.get? a = none := by
    cases he : s.ptt.get? a with
    | none => rfl
    | some e => exact absurd rfl (hentries a e he).2.2
  have hfresh : s.tasks.get? s.next = none := by
    cases ht : s.tasks.get? s.next with
    | none => rfl
    | some task => exact absurd (htasks _ task ht).1 (Nat.lt_irrefl _)
  refine ⟨?_, ?_, ?_, hh⟩
  · intro b e hb
    simp only [Table.get?_insert] at hb ⊢
    split at hb
    · next hba =>
      rw [hnone] at hb
      cases hb
      simp [hba, hfresh]
    · obtain ⟨hcap, ht, -⟩ := hentries b e hb
      have hne : e.task ≠ s.next := Nat.ne_of_lt (htasks _ _ ht).1
      exact ⟨hcap, by rw [if_neg hne]; exact ht⟩
  · intro t task ht
    simp only [Table.get?_insert] at ht
    show t < s.next + 1 ∧ _
    split at ht
    · next heq =>
      rw [hfresh] at ht
      cases ht
      exact ⟨by omega, rfl⟩
    · have := htasks t task ht
      exact ⟨by omega, this.2⟩
  · intro b hb
    by_cases hba : b = a
    · exact .inl (by simp [Table.get?_insert, hba])
    · obtain hg | ⟨t, phase, ht, hphase⟩ | hg := hguarded b hb hba
      · exact .inl (by simpa [Table.get?_insert, hba] using hg)
      · refine .inr (.inl ⟨t, phase, ?_, hphase⟩)
        have hne : t ≠ s.next := Nat.ne_of_lt (htasks _ _ ht).1
        simp only [Table.get?_insert, if_neg hne]
        exact ht
      · exact .inr (.inr hg)

/-- **A timer is armed.** -/
theorem Inv.arm (h : Inv s) (hh : (s.arm a "ptt").HandlerOk (s.arm a "ptt").handler) :
    Inv (s.arm a "ptt") := by
  obtain ⟨hnone, heq⟩ | ⟨e, he, heq⟩ := h.disarm_eq a
  · refine Inv.insert rfl ?_ h.tasks (fun b hb _ => h.guarded b hb) (by rw [State.arm, heq]) hh
    intro b e hb
    obtain ⟨hcap, ht⟩ := h.entries b e hb
    refine ⟨hcap, ht, ?_⟩
    rintro rfl
    rw [hnone] at hb
    cases hb
  · exact Inv.insert (s := s.drop a e) rfl (h.drop_entries he) h.drop_tasks
      (fun b hb hba => h.drop_guarded he hb hba) (by rw [State.arm, heq]) hh

@[simp] theorem cancel_frame (s : State) (t : Nat) : (s.cancel t).ptt = s.ptt ∧
    (s.cancel t).wire = s.wire ∧ (s.cancel t).handler = s.handler ∧
      (s.cancel t).inflight = s.inflight := by
  simp only [State.cancel]
  split <;> exact ⟨rfl, rfl, rfl, rfl⟩

theorem disarm_frame (s : State) (a : Addr) : (s.disarm a).wire = s.wire ∧
    (s.disarm a).handler = s.handler ∧ (s.disarm a).inflight = s.inflight := by
  simp only [State.disarm]
  split
  · exact ⟨rfl, rfl, rfl⟩
  · exact (cancel_frame _ _).2

end StationManager.Agent.Broker
