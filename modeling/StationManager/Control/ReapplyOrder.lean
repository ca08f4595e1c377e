import StationManager.Control.Reapply

/-!
# StationManager.Control.ReapplyOrder

Does a re-apply undo an operator?  A set is protected by the `touched` mark
until the next inventory clears it; from then on only the persisted row speaks
for it.  The row is written by another consumer when the result comes back, so
an inventory in between finds the old value (`operator_undone`).

`Protected` is the invariant of the runs in which no drift check is premature:
whatever re-apply could send, be it a row, a computed frame or a frame in the
send loop, is `Fresh`, that is, at least as new as every set of its key that
the agent has not refused, unless the key is marked.
-/

namespace StationManager.Control.Reapply

/-! ## the invariant -/

/-- A value of this version is not older than any set of the key that the
agent has not refused, or the key is marked. -/
def Fresh (sets : Table Nat OperatorSet) (touched : List Key) (k : Key) (version : Nat) : Prop :=
  ∀ n s, sets.get? n = some s → s.key = k → s.status ≠ .refused → n ≤ version ∨ k ∈ touched

/-- What a suspended task holds: its generation is not from the future, and
its frames are fresh if it can still send them. -/
def TaskOk (sets : Table Nat OperatorSet) (touched : List Key) (gen : Nat) : Task → Prop
  | .idle | .applying .. | .applied _ => True
  | .querying _ g | .retryQuery g => g ≤ gen
  | .computed g frames =>
    g ≤ gen ∧ ∀ fs, frames = some fs → ∀ f ∈ fs, Fresh sets touched f.key f.version
  | .retryComputed g frames =>
    g ≤ gen ∧ (gen = g → ∀ fs, frames = some fs → ∀ f ∈ fs, Fresh sets touched f.key f.version)
  | .sending fs => ∀ f ∈ fs, Fresh sets touched f.key f.version

/-- The stages of a retry. -/
def Task.isRetry : Task → Bool
  | .idle | .retryQuery _ | .retryComputed .. | .sending _ => true
  | _ => false

/-- A re-apply sent after a set that was not refused is not older. -/
def NotOlder (sets : Table Nat OperatorSet) : Sent → Sent → Prop
  | .operator n, .reapply f => ∀ s, sets.get? n = some s → s.key = f.key →
      s.status ≠ .refused → n ≤ f.version
  | _, _ => True

structure Protected (c : Conn) : Prop where
  numbered : ∀ n s, c.sets.get? n = some s → n < c.next
  sentNumbered : ∀ n, Sent.operator n ∈ c.sent → n < c.next
  guarded : ∀ n s, c.sets.get? n = some s → s.status.isOpen = true → s.key ∈ c.touched
  rows : ∀ k row, c.rows.get? k = some row → Fresh c.sets c.touched k row.version
  pending : ∀ g, c.pending = some g → g ≤ c.gen
  main : TaskOk c.sets c.touched c.gen c.main
  sweep : TaskOk c.sets c.touched c.gen c.sweep
  sweepRetries : c.sweep.isRetry = true
  ordered : c.sent.Pairwise (NotOlder c.sets)

/-- Every set of `sets'` that is not refused was there before, or is marked. -/
def Extends (sets sets' : Table Nat OperatorSet) (touched' : List Key) : Prop :=
  ∀ n s', sets'.get? n = some s' → s'.status ≠ .refused →
    (∃ s, sets.get? n = some s ∧ s.key = s'.key ∧ s.status ≠ .refused) ∨ s'.key ∈ touched'

variable {c c' : Conn} {touched : List Key} {gen : Nat} {sets sets' : Table Nat OperatorSet}
  {now : Time} {w : Which}

theorem Fresh.mono {touched' : List Key} {k : Key} {version : Nat}
    (h : Fresh sets touched k version) (hsets : Extends sets sets' touched')
    (htouched : touched ⊆ touched') : Fresh sets' touched' k version := by
  intro n s' hs' hkey hstatus
  obtain ⟨s, hs, hsame, hopen⟩ | hmark := hsets n s' hs' hstatus
  · exact (h n s hs (hsame.trans hkey) hopen).imp_right fun hk => htouched hk
  · exact .inr (hkey ▸ hmark)

theorem TaskOk.mono {touched' : List Key} {t : Task} (h : TaskOk sets touched gen t)
    (hsets : Extends sets sets' touched') (htouched : touched ⊆ touched') :
    TaskOk sets' touched' gen t := by
  cases t with
  | computed g frames => exact ⟨h.1, fun fs hfs f hf => (h.2 fs hfs f hf).mono hsets htouched⟩
  | retryComputed g frames =>
    exact ⟨h.1, fun hg fs hfs f hf => (h.2 hg fs hfs f hf).mono hsets htouched⟩
  | sending fs => exact fun f hf => (h f hf).mono hsets htouched
  | _ => exact h

/-! ## the frames of a query -/

/-- A drift frame carries the row of its key. -/
theorem mem_reapplyFrames {rows : Table Key Row} {modules : List Reported} {f : Frame}
    (h : f ∈ reapplyFrames rows modules) :
    ∃ row, rows.get? f.key = some row ∧ row.version = f.version := by
  simp only [reapplyFrames, List.mem_flatMap] at h
  obtain ⟨r, -, hf⟩ := h
  split at hf
  · cases hf
  · obtain ⟨⟨k, row⟩, hentry, hsome⟩ := List.mem_filterMap.mp hf
    simp only at hsome
    split at hsome
    · next hcond =>
      cases hsome
      have hkey : Frame.key ⟨r.slot, r.module, k.capability, row.value, row.version⟩ = k := by
        obtain ⟨hslot, hmodule⟩ := Prod.mk.inj hcond.1
        cases k
        simp_all [Frame.key]
      exact ⟨row, by rw [hkey]; exact (rows.mem_entries_iff k row).mp hentry, rfl⟩
    · cases hsome

theorem query_fresh (hc : Protected c) {modules : List Reported} {fs : List Frame}
    (h : c.query now modules = some fs) : ∀ f ∈ fs, Fresh c.sets c.touched f.key f.version := by
  intro f hf
  unfold Conn.query at h
  split at h
  · cases h
  · cases h
    obtain ⟨row, hrow, hversion⟩ := mem_reapplyFrames hf
    rw [← hversion]
    exact hc.rows f.key row hrow

@[simp] theorem wire_key (c : Conn) (f : Frame) : (c.wire f).key = f.key := by
  unfold Conn.wire Frame.key
  simp only [Key.mk.injEq, and_true]
  cases h : c.wireSlots.reverse.find? fun s => s.text = f.slot.text with
  | none => rfl
  | some slot => simpa using List.find?_some h

/-! ## one step -/

/-- Suspend a task at another await. -/
theorem Protected.setTask (hc : Protected c) {t : Task} (ht : TaskOk c.sets c.touched c.gen t)
    (hretry : w = .sweep → t.isRetry = true) : Protected (c.setTask w t) := by
  cases w with
  | main => exact { hc with main := ht }
  | sweep => exact { hc with sweep := ht, sweepRetries := hretry rfl }

theorem Protected.task (hc : Protected c) (w : Which) :
    TaskOk c.sets c.touched c.gen (c.task w) := by
  cases w with
  | main => exact hc.main
  | sweep => exact hc.sweep

theorem Protected.beginRetry (hc : Protected c) (w : Which) : Protected (c.beginRetry w) := by
  unfold Conn.beginRetry
  cases hpending : c.pending with
  | none => exact hc
  | some g =>
    have hcleared : Protected { c with pending := none } := { hc with pending := nofun }
    exact hcleared.setTask (hc.pending g hpending) fun _ => rfl

theorem Protected.setPending (hc : Protected c) {pending : Option Nat}
    (h : ∀ g, pending = some g → g ≤ c.gen) : Protected { c with pending } :=
  { hc with pending := h }

theorem NotOlder.mono {a b : Sent} (h : NotOlder sets a b)
    (hsets : ∀ n, a = .operator n → ∀ s', sets'.get? n = some s' → s'.status ≠ .refused →
      ∃ s, sets.get? n = some s ∧ s.key = s'.key ∧ s.status ≠ .refused) : NotOlder sets' a b := by
  cases a with
  | operator n =>
    cases b with
    | operator m => trivial
    | reapply f =>
      intro s' hs' hkey hstatus
      obtain ⟨s, hs, hsame, hopen⟩ := hsets n rfl s' hs' hstatus
      exact h s hs (hsame.trans hkey) hopen
  | reapply f => trivial

/-- Sets are added under a mark, and none becomes unrefused. -/
theorem Protected.setSets {next : Nat} (hc : Protected c)
    (hold : ∀ n s', sets.get? n = some s' → s'.status ≠ .refused → n < c.next →
      ∃ s, c.sets.get? n = some s ∧ s.key = s'.key ∧ s.status ≠ .refused)
    (hnew : ∀ n s', sets.get? n = some s' → c.next ≤ n → n < next ∧ s'.key ∈ touched)
    (hguarded : ∀ n s', sets.get? n = some s' → s'.status.isOpen = true → s'.key ∈ touched)
    (htouched : c.touched ⊆ touched) (hnext : c.next ≤ next) :
    Protected { c with sets, touched, next } := by
  have hext : Extends c.sets sets touched := by
    intro n s' hs' hstatus
    obtain hlt | hge := Nat.lt_or_ge n c.next
    · exact .inl (hold n s' hs' hstatus hlt)
    · exact .inr (hnew n s' hs' hge).2
  constructor
  case numbered =>
    intro n s' hs'
    obtain hlt | hge := Nat.lt_or_ge n c.next
    · exact Nat.lt_of_lt_of_le hlt hnext
    · exact (hnew n s' hs' hge).1
  case sentNumbered => exact fun n hn => Nat.lt_of_lt_of_le (hc.sentNumbered n hn) hnext
  case guarded => exact hguarded
  case rows => exact fun k row hrow => (hc.rows k row hrow).mono hext htouched
  case pending => exact hc.pending
  case main => exact hc.main.mono hext htouched
  case sweep => exact hc.sweep.mono hext htouched
  case sweepRetries => exact hc.sweepRetries
  case ordered =>
    refine hc.ordered.imp_of_mem ?_
    rintro a b ha _ hab
    refine hab.mono ?_
    rintro n rfl s' hs' hstatus
    exact hold n s' hs' hstatus (hc.sentNumbered n ha)

theorem Protected.operatorSet (hc : Protected c) (key : Key) (value : Scalar) : Protected { c with
      touched := key :: c.touched, sets := c.sets.insert c.next ⟨key, value, .inFlight⟩,
      next := c.next + 1, sent := c.sent ++ [.operator c.next] } := by
  have hget : ∀ n, (c.sets.insert c.next ⟨key, value, .inFlight⟩).get? n =
      if n = c.next then some ⟨key, value, .inFlight⟩ else c.sets.get? n := by
    intro n
    have hnone : c.sets.get? c.next = none := by
      cases h : c.sets.get? c.next with
      | none => rfl
      | some s => exact absurd (hc.numbered c.next s h) (Nat.lt_irrefl _)
    rw [Table.get?_insert, hnone]
    rfl
  have hc' : Protected { c with
      touched := key :: c.touched, sets := c.sets.insert c.next ⟨key, value, .inFlight⟩,
      next := c.next + 1 } := by
    refine hc.setSets ?_ ?_ ?_ (List.subset_cons_self key c.touched) (Nat.le_succ _)
    · intro n s hs hstatus hlt
      rw [hget, if_neg (Nat.ne_of_lt hlt)] at hs
      exact ⟨s, hs, rfl, hstatus⟩
    · intro n s hs hge
      rw [hget] at hs
      split at hs
      · next hn =>
        cases hs
        exact ⟨hn ▸ Nat.lt_succ_self _, List.mem_cons_self⟩
      · exact absurd (hc.numbered n s hs) (Nat.not_lt.mpr hge)
    · intro n s hs hopen
      rw [hget] at hs
      split at hs
      · cases hs
        exact List.mem_cons_self
      · exact List.mem_cons_of_mem key (hc.guarded n s hs hopen)
  refine { hc' with sentNumbered := ?_, ordered := ?_ }
  · intro n hn
    obtain hn | hn := List.mem_append.mp hn
    · exact hc'.sentNumbered n hn
    · cases List.mem_singleton.mp hn
      exact Nat.lt_succ_self _
  · refine List.pairwise_append.mpr ⟨hc'.ordered, List.pairwise_singleton _ _, ?_⟩
    intro a _ b hb
    cases List.mem_singleton.mp hb
    cases a <;> trivial

/-- The status of a set moves on: an open set is answered, and nothing becomes
unrefused. -/
theorem Protected.setStatus (hc : Protected c) {n : Nat} {s : OperatorSet}
    (hs : c.sets.get? n = some s) (hopen : s.status.isOpen = true) (status : Status) :
    Protected (c.setStatus n status) := by
  have hget : ∀ m, (c.sets.modify n fun s => { s with status }).get? m =
      if m = n then some { s with status } else c.sets.get? m := by
    intro m
    simp only [Table.get?_modify]
    split
    · next hm =>
      rw [hm, hs]
      rfl
    · rfl
  have hnot : s.status ≠ .refused := by
    intro h
    rw [h] at hopen
    cases hopen
  refine hc.setSets ?_ ?_ ?_ (List.Subset.refl _) (Nat.le_refl _)
  · intro m s' hs' hstatus _
    rw [hget] at hs'
    split at hs'
    · next hm =>
      cases hs'
      exact ⟨s, hm ▸ hs, rfl, hnot⟩
    · exact ⟨s', hs', rfl, hstatus⟩
  · intro m s' hs' hge
    rw [hget] at hs'
    split at hs'
    · next hm => exact absurd (hc.numbered m s (hm ▸ hs)) (Nat.not_lt.mpr hge)
    · exact absurd (hc.numbered m s' hs') (Nat.not_lt.mpr hge)
  · intro m s' hs' hopen'
    rw [hget] at hs'
    split at hs'
    · next hm =>
      cases hs'
      exact hc.guarded m s (hm ▸ hs) hopen
    · exact hc.guarded m s' hs' hopen'

/-- Persisting the value of an accepted set: its key is still marked. -/
theorem Protected.persist (hc : Protected c) {n : Nat} {key : Key} {value : Scalar}
    (hs : c.sets.get? n = some ⟨key, value, .accepted⟩) : Protected { c.setStatus n .persisted with
      rows := (c.rows.insert key ⟨value, n⟩).modify key fun _ => ⟨value, n⟩ } := by
  have hc' := hc.setStatus hs rfl .persisted
  have hmark : key ∈ c.touched := hc.guarded n _ hs rfl
  refine { hc' with rows := ?_ }
  intro k row hrow
  simp only [Table.get?_modify, Table.get?_insert] at hrow
  split at hrow
  · next hk => exact fun _ _ _ _ _ => .inr (hk ▸ hmark)
  · exact hc'.rows k row hrow

/-- The drift check starts: the marks are cleared, so every set has to be
settled by now. -/
theorem Protected.clear (hc : Protected c) (wireSlots : List Slot) (reported : List Reported)
    (hsettled : c.unsettled = false) (hsweep : c.sweep.isSending = false) : Protected { c with
      gen := c.gen + 1, touched := [], wireSlots, main := .querying reported (c.gen + 1) } := by
  have hentry : ∀ n s, c.sets.get? n = some s → s.status.isOpen = false ∧
      (s.status.isAccepted = true → upToDate c.rows n s.key = true) := by
    intro n s hs
    have hmem := (c.sets.mem_entries_iff n s).mpr hs
    have hnot := List.any_eq_false.mp hsettled (n, s) hmem
    grind
  constructor
  case numbered => exact hc.numbered
  case sentNumbered => exact hc.sentNumbered
  case guarded =>
    intro n s hs hopen
    rw [(hentry n s hs).1] at hopen
    cases hopen
  case rows =>
    intro k row hrow n s hs hkey hstatus
    obtain ⟨hopen, hdate⟩ := hentry n s hs
    have haccepted : s.status.isAccepted = true := by
      cases hst : s.status <;> simp_all [Status.isOpen, Status.isAccepted]
    have hrow' := hdate haccepted
    rw [upToDate, hkey, hrow] at hrow'
    exact .inl (by simpa using hrow')
  case pending =>
    intro g hg
    have hle := hc.pending g hg
    simp only
    omega
  case main => exact Nat.le_refl _
  case sweep =>
    have hok := hc.sweep
    have hretry := hc.sweepRetries
    cases ht : c.sweep with
    | retryQuery g =>
      rw [ht] at hok
      exact Nat.le_succ_of_le hok
    | retryComputed g frames =>
      rw [ht] at hok
      have hle : g ≤ c.gen := hok.1
      exact ⟨Nat.le_succ_of_le hle, fun hg => absurd hg (by simp only; omega)⟩
    | sending fs =>
      rw [ht] at hsweep
      cases fs with
      | nil => exact fun f hf => by cases hf
      | cons f fs => cases hsweep
    | idle => trivial
    | _ =>
      rw [ht] at hretry
      cases hretry
  case sweepRetries => exact hc.sweepRetries
  case ordered => exact hc.ordered

/-- Sending a frame whose key is not marked. -/
theorem Protected.send (hc : Protected c) {f : Frame}
    (hfresh : Fresh c.sets c.touched f.key f.version) (hmark : f.key ∉ c.touched) :
    Protected { c with sent := c.sent ++ [.reapply f] } := by
  refine { hc with sentNumbered := ?_, ordered := ?_ }
  · intro n hn
    simp only [List.mem_append, List.mem_singleton, reduceCtorEq, or_false] at hn
    exact hc.sentNumbered n hn
  · rw [List.pairwise_append]
    refine ⟨hc.ordered, List.pairwise_singleton _ _, ?_⟩
    intro a _ b hb
    rw [List.mem_singleton] at hb
    subst hb
    cases a with
    | operator n =>
      intro s hs hkey hstatus
      exact (hfresh n s hs hkey hstatus).resolve_right hmark
    | reapply g => trivial

theorem moveSettings_nil (rows : Table Key Row) : (moveSettings rows []).get? = rows.get? := by
  funext k
  simp [moveSettings, Table.get?, Table.filter, Table.insertAll]

/-- A retry goes on to send what it has computed, unless an inventory has come
since. -/
theorem Protected.resumeRetry (hc : Protected c) {frames : Option (List Frame)}
    (ht : c.task w = .retryComputed gen frames) (h : c.resume w now = some c') : Protected c' := by
  have htask := hc.task w
  rw [ht] at htask
  simp only [Conn.resume, ht] at h
  split at h
  · cases h
    exact hc.setTask trivial fun _ => rfl
  · next hgen =>
    have hgen' : c.gen = gen := by simpa using hgen
    cases frames with
    | none =>
      cases h
      refine (hc.setPending fun g hg => ?_).setTask trivial fun _ => rfl
      cases hg
      exact htask.1
    | some fs =>
      cases h
      refine hc.setTask ?_ fun _ => rfl
      intro f hf
      obtain ⟨g, hg, rfl⟩ := List.mem_map.mp hf
      rw [wire_key]
      exact htask.2 hgen' fs rfl g hg

/-- The send loop skips the marked keys. -/
theorem Protected.resumeSending (hc : Protected c) {fs : List Frame} (ht : c.task w = .sending fs)
    (h : c.resume w now = some c') : Protected c' := by
  have htask := hc.task w
  rw [ht] at htask
  cases fs with
  | nil =>
    simp only [Conn.resume, ht] at h
    cases h
    exact hc.setTask trivial fun _ => rfl
  | cons f fs =>
    have hrest : TaskOk c.sets c.touched c.gen (.sending fs) :=
      fun g hg => htask g (List.mem_cons_of_mem f hg)
    simp only [Conn.resume, ht] at h
    split at h
    · cases h
      exact hc.setTask hrest fun _ => rfl
    · next hmark =>
      cases h
      exact (hc.send (htask f List.mem_cons_self) hmark).setTask hrest fun _ => rfl

/-- The frames of a drift check are sent, or kept for a retry. -/
theorem Protected.resumeComputed (hc : Protected c) {frames : Option (List Frame)}
    (ht : c.task w = .computed gen frames) (h : c.resume w now = some c') : Protected c' := by
  have htask := hc.task w
  rw [ht] at htask
  cases frames with
  | none =>
    simp only [Conn.resume, ht] at h
    cases h
    refine (hc.setPending fun g hg => ?_).setTask trivial fun _ => rfl
    split at hg
    · cases hg
      exact htask.1
    · exact hc.pending g hg
  | some fs =>
    simp only [Conn.resume, ht] at h
    cases h
    refine (hc.setPending fun g hg => ?_).setTask (htask.2 fs rfl) fun _ => rfl
    split at hg
    · cases hg
    · exact hc.pending g hg

/-- Resuming a task. -/
theorem Protected.resume (hc : Protected c) (hok : premature c (.exec w now) = false)
    (h : c.resume w now = some c') : Protected c' := by
  have htask := hc.task w
  have hretry : w = .sweep → (c.task w).isRetry = true := by
    intro hw
    subst hw
    exact hc.sweepRetries
  simp only [premature] at hok
  cases ht : c.task w with
  | idle =>
    simp only [Conn.resume, ht] at h
    cases h
  | applying reported moves =>
    simp only [Conn.resume, ht, decide_eq_false_iff_not, ne_eq, not_not] at h hok
    cases h
    have hc' : Protected
        { c with
          modules := applyInventory c.modules reported, rows := moveSettings c.rows moves } := by
      refine { hc with rows := ?_ }
      intro k row hrow
      rw [hok, moveSettings_nil] at hrow
      exact hc.rows k row hrow
    exact hc'.setTask trivial fun hw => by rw [ht] at hretry; cases hretry hw
  | applied reported =>
    simp only [Conn.resume, ht, Bool.or_eq_false_iff] at h hok
    cases h
    cases w with
    | main => exact hc.clear _ reported hok.1.1 hok.2
    | sweep =>
      rw [ht] at hretry
      cases hretry rfl
  | querying reported gen =>
    simp only [Conn.resume, ht] at h htask
    cases h
    refine hc.setTask ⟨htask, fun fs hfs => query_fresh hc hfs⟩ fun hw => ?_
    rw [ht] at hretry
    cases hretry hw
  | computed gen frames => exact hc.resumeComputed ht h
  | retryQuery gen =>
    simp only [Conn.resume, ht] at h htask
    cases h
    exact hc.setTask ⟨htask, fun _ fs hfs => query_fresh hc hfs⟩ fun _ => rfl
  | retryComputed gen frames => exact hc.resumeRetry ht h
  | sending fs => exact hc.resumeSending ht h

theorem step_protected {l : Label} (hc : Protected c) (hok : premature c l = false)
    (h : step c l = some c') : Protected c' := by
  cases l with
  | operatorSet key value =>
    simp only [step] at h
    split at h
    · cases h
      exact hc.operatorSet key value
    · cases h
  | result n ok =>
    simp only [step] at h
    split at h
    · next hs =>
      cases h
      exact (hc.setStatus hs rfl _).beginRetry .main
    · cases h
  | state place values =>
    simp only [step] at h
    split at h
    · cases h
      have hc' : Protected { c with modules := applyState c.modules place values } := { hc with }
      exact hc'.beginRetry .main
    · cases h
  | inventory reported moves =>
    simp only [step] at h
    split at h
    · cases h
      exact { hc with main := trivial }
    · cases h
  | sweepTick =>
    simp only [step] at h
    split at h
    · cases h
      exact hc.beginRetry .sweep
    · cases h
  | persist n allowed =>
    simp only [step] at h
    split at h
    · next hs =>
      split at h
      · cases h
        exact hc.persist hs
      · cases h
        exact hc.setStatus hs rfl .dropped
    · cases h
  | setGate gate =>
    cases h
    exact { hc with }
  | exec w now => exact hc.resume hok h

/-! ## runs -/

/-- A connection that has just been opened: no set and no frame has been sent,
and the persisted rows are older than any set to come. -/
structure Opened (c : Conn) : Prop where
  sets : c.sets = Table.empty
  sent : c.sent = []
  touched : c.touched = []
  pending : c.pending = none
  main : c.main = .idle
  sweep : c.sweep = .idle
  rows : ∀ k row, c.rows.get? k = some row → row.version < c.next

theorem Opened.protected (h : Opened c) : Protected c := by
  have hnone : ∀ n, c.sets.get? n = none := by
    intro n
    rw [h.sets]
    rfl
  constructor
  case ordered =>
    rw [h.sent]
    exact List.Pairwise.nil
  all_goals simp [hnone, h.sent, h.pending, h.main, h.sweep, Fresh, TaskOk, Task.isRetry]

/-- **Re-apply never undoes an operator.**  From an opened connection on, let
no drift check start while an operator's set sent before it is not settled or
a retry is in its send loop, and no inventory move calibration between slots.
Then no re-apply frame that is sent after an operator's set which the agent
has accepted carries an older persisted value of that key. -/
theorem reapply_not_older (c₀ c : Conn) (h₀ : Opened c₀)
    (h : Reachable step (fun c l => premature c l = false) c₀ c)
    (before between after : List Sent) (n : Nat) (s : OperatorSet) (f : Frame)
    (hsent : c.sent = before ++ .operator n :: (between ++ .reapply f :: after))
    (hset : c.sets.get? n = some s) (haccepted : s.status.isAccepted = true)
    (hkey : s.key = f.key) : n ≤ f.version := by
  have hc := h.invariant h₀.protected fun c l c' hc hok hstep => step_protected hc hok hstep
  have hpair := hc.ordered
  rw [hsent, List.pairwise_append, List.pairwise_cons] at hpair
  have hold := hpair.2.1.1 (.reapply f) (by simp)
  refine hold s hset hkey ?_
  intro hrefused
  rw [hrefused] at haccepted
  cases haccepted

/-! ## a filter setting -/

namespace Sample

def hpf : Cap := ⟨"filter_hpf", "setting", "bool", false, none, none, none⟩

def key : Key := ⟨"slot0", "fm1", "filter_hpf"⟩

/-- The module as an inventory reports it, with the filter on or off. -/
def report (on : Bool) : Reported :=
  ⟨.str "slot0", "fm1", false, some "fm_transceiver", [hpf], [("filter_hpf", .bool on)]⟩

/-- The filter is persisted as off. -/
def opened : Conn where
  gate := {}
  rows := Table.empty.insert key ⟨.bool false, 0⟩
  modules := Table.empty.insert ("slot0", "fm1")
    ⟨"fm_transceiver", [hpf], [("filter_hpf", .bool false)], true, false⟩
  sets := Table.empty
  next := 1
  gen := 0
  pending := none
  touched := []
  wireSlots := []
  sent := []
  main := .idle
  sweep := .idle

theorem opened_opened : Opened opened where
  sets := rfl
  sent := rfl
  touched := rfl
  pending := rfl
  main := rfl
  sweep := rfl
  rows k row h := by
    have hmem := (opened.rows.mem_entries_iff k row).mpr h
    have hrow : row = ⟨.bool false, 0⟩ := by
      simp [opened, Table.insert, Table.empty] at hmem
      exact hmem.2
    rw [hrow]
    decide

/-- An operator switches the filter on, and the agent accepts. -/
def switched : List Label := [.operatorSet key (.bool true), .result 1 true]

/-- An inventory up to the first frame of its re-apply. -/
def inventory (on : Bool) : List Label :=
  [.inventory [report on] [], .exec .main 5, .exec .main 5, .exec .main 5, .exec .main 5,
    .exec .main 5]

def frame (on : Bool) (version : Nat) : Frame :=
  ⟨.str "slot0", "fm1", "filter_hpf", .bool on, version⟩

end Sample

/-- The value is persisted before the module reboots and reports the filter as
off: the re-apply switches it on again. -/
theorem reapply_not_older_sample : ∃ c s f,
    Reachable step (fun c l => premature c l = false) Sample.opened c ∧
    c.sent = [.operator 1, .reapply f] ∧ c.sets.get? 1 = some s ∧
    s.status.isAccepted = true ∧ f.value = .bool true ∧ 1 ≤ f.version := by
  obtain ⟨c, hreach, hsent, hset⟩ := exists_avoiding step premature Sample.opened
    (Sample.switched ++ [.persist 1 true] ++ Sample.inventory false)
    (P := fun c => c.sent = [.operator 1, .reapply (Sample.frame true 1)] ∧
      c.sets.get? 1 = some ⟨Sample.key, .bool true, .persisted⟩) (by decide)
  exact ⟨c, _, _, hreach, hsent, hset, rfl, rfl,
    reapply_not_older Sample.opened c Sample.opened_opened hreach [] [] [] 1 _ _ hsent hset rfl
      rfl⟩

/-- The inventory is checked after the result and before the browser's
consumer has persisted it: the filter is switched off again. -/
theorem operator_undone : ∃ c s, Reachable step (fun _ _ => True) Sample.opened c ∧
    c.sent = [.operator 1, .reapply (Sample.frame false 0)] ∧ c.sets.get? 1 = some s ∧
    s.status.isAccepted = true ∧ s.value = .bool true ∧ s.key = (Sample.frame false 0).key := by
  obtain ⟨c, hreach, hsent, hset⟩ := exists_reachable step Sample.opened
    (Sample.switched ++ Sample.inventory true)
    (P := fun c => c.sent = [.operator 1, .reapply (Sample.frame false 0)] ∧
      c.sets.get? 1 = some ⟨Sample.key, .bool true, .accepted⟩) (by decide)
  exact ⟨c, _, hreach, hsent, hset, rfl, rfl, rfl⟩

end StationManager.Control.Reapply
