import StationManager.Audio.Uplink

/-!
# StationManager.Audio.TxGuard

A started transmit bridge is guarded: it is the engine's current one and both timers
sleep, or its stop has been handed to the thread.

Timers and a hot-plug refresh clear the engine's references while the dispatcher is
suspended.  They cannot do so while a start is in the thread: no timer sleeps then, and
the refresh waits for the lock that the start holds.
-/

namespace StationManager.Audio.Uplink

open Uplink.Engine

/-! ## timers and their references -/

/-- The sleeping timers are those that the engine refers to. -/
structure Timed (s : Engine) : Prop where
  fresh : ∀ i timer, s.timers.get? i = some timer → i < s.nextTask
  deadMan : ∀ i, s.timers.get? i = some .deadMan ↔ s.deadMan = some i
  token : s.deadManToken = s.deadMan
  tot : ∀ i, s.timers.get? i = some .tot ↔ s.tot = some i

/-- Both timers of the transmitter sleep. -/
def Armed (s : Engine) : Prop :=
  (∃ i, s.deadMan = some i ∧ s.deadManToken = some i ∧ s.timers.get? i = some .deadMan) ∧
    ∃ i, s.tot = some i ∧ s.timers.get? i = some .tot

variable {s s' : Engine}

/-- Only the timer behind the reference is gone. -/
theorem get?_cancelTimer (timers : Table TaskId Timer) (ref : Option TaskId) (i : TaskId) :
    (cancelTimer timers ref).get? i = if ref = some i then none else timers.get? i := by
  cases ref with
  | none => simp [cancelTimer]
  | some j => simp [cancelTimer, Table.get?_erase, eq_comm]

/-- Timers that are referred to are armed. -/
theorem Timed.armed (h : Timed s) (hdeadMan : s.deadMan ≠ none) (htot : s.tot ≠ none) :
    Armed s := by
  obtain ⟨i, hi⟩ := Option.ne_none_iff_exists'.mp hdeadMan
  obtain ⟨j, hj⟩ := Option.ne_none_iff_exists'.mp htot
  exact ⟨⟨i, hi, h.token.trans hi, (h.deadMan i).mpr hi⟩, j, hj, (h.tot j).mpr hj⟩

/-- The timer of a kind is the one that `ref` names. -/
def Refers (timers : Table TaskId Timer) (kind : Timer) (ref : Option TaskId) : Prop :=
  ∀ i, timers.get? i = some kind ↔ ref = some i

section
variable {timers : Table TaskId Timer} {kind other : Timer} {ref ref' : Option TaskId}
  {i n : TaskId}

/-- Nobody refers to a cancelled timer. -/
theorem Refers.cancel (h : Refers timers kind ref) : Refers (cancelTimer timers ref) kind none := by
  intro i
  rw [get?_cancelTimer]
  split
  · simp
  · next hne => simpa [h i] using hne

/-- Cancelling one kind of timer leaves the other. -/
theorem Refers.cancel_other (h : Refers timers kind ref) (h' : Refers timers other ref')
    (hne : other ≠ kind) : Refers (cancelTimer timers ref') kind ref := by
  intro i
  rw [get?_cancelTimer, ← h i]
  split
  · next hi => simp [(h' i).mpr hi, hne]
  · rfl

/-- A new timer is the one referred to. -/
theorem Refers.insert (h : Refers timers kind none) (hfree : timers.get? n = none) :
    Refers (timers.insert n kind) kind (some n) := by
  intro i
  rw [Table.get?_insert, hfree, Option.some.injEq]
  split
  · next heq => simp [heq]
  · next hne => simpa [Ne.symm hne] using (h i).not.mpr (by simp)

/-- A new timer of one kind leaves the other. -/
theorem Refers.insert_other (h : Refers timers kind ref) (hfree : timers.get? n = none)
    (hne : other ≠ kind) : Refers (timers.insert n other) kind ref := by
  intro i
  rw [Table.get?_insert, hfree, ← h i]
  split
  · next heq => simp [heq, hfree, hne]
  · rfl

theorem get?_of_cancelTimer {timer : Timer} (h : (cancelTimer timers ref).get? i = some timer) :
    timers.get? i = some timer := by
  rw [get?_cancelTimer] at h
  split at h
  · cases h
  · exact h

end

theorem Timed.disarmDeadMan (h : Timed s) : Timed s.disarmDeadMan where
  fresh i timer hi := h.fresh i timer (get?_of_cancelTimer hi)
  deadMan := Refers.cancel h.deadMan
  token := rfl
  tot := Refers.cancel_other h.tot h.deadMan (by simp)

theorem Timed.disarmTot (h : Timed s) : Timed s.disarmTot where
  fresh i timer hi := h.fresh i timer (get?_of_cancelTimer hi)
  deadMan := Refers.cancel_other h.deadMan h.tot (by simp)
  token := h.token
  tot := Refers.cancel h.tot

/-- The next task is no timer yet. -/
theorem Timed.next_free (h : Timed s) : s.timers.get? s.nextTask = none := by
  cases hget : s.timers.get? s.nextTask with
  | none => rfl
  | some t => exact absurd (h.fresh _ t hget) (Nat.lt_irrefl _)

/-- A new timer is named by the task counter. -/
theorem Timed.fresh_insert (h : Timed s) {new timer : Timer} {i : TaskId}
    (hi : (s.timers.insert s.nextTask new).get? i = some timer) : i < s.nextTask + 1 := by
  rw [Table.get?_insert] at hi
  split at hi
  · next heq => exact heq ▸ Nat.lt_succ_self _
  · exact Nat.lt_succ_of_lt (h.fresh i timer hi)

theorem Timed.armDeadMan (h : Timed s) : Timed s.armDeadMan where
  fresh _ _ := h.disarmDeadMan.fresh_insert
  deadMan := Refers.insert h.disarmDeadMan.deadMan h.disarmDeadMan.next_free
  token := rfl
  tot := Refers.insert_other h.disarmDeadMan.tot h.disarmDeadMan.next_free (by simp)

theorem Timed.armTot (h : Timed s) : Timed s.armTot where
  fresh _ _ := h.disarmTot.fresh_insert
  deadMan := Refers.insert_other h.disarmTot.deadMan h.disarmTot.next_free (by simp)
  token := h.token
  tot := Refers.insert h.disarmTot.tot h.disarmTot.next_free

/-- Only the timers, their references and the task counter matter. -/
theorem Timed.congr (h : Timed s) (htimers : s'.timers = s.timers) (hd : s'.deadMan = s.deadMan)
    (ht : s'.deadManToken = s.deadManToken) (htot : s'.tot = s.tot)
    (hnext : s.nextTask ≤ s'.nextTask) : Timed s' where
  fresh i timer hi := Nat.lt_of_lt_of_le (h.fresh i timer (htimers ▸ hi)) hnext
  deadMan i := by rw [htimers, hd, h.deadMan i]
  token := by rw [ht, hd, h.token]
  tot i := by rw [htimers, htot, h.tot i]

/-! ## who holds the lock of the transmitter -/

/-- The dispatcher is in a part of the code that the lock encloses. -/
def Serve.holdsTx : Serve → Bool
  | .resolveTx .. | .startTx _ | .failTx _ => true
  | .stopTx _ .close | .sendOff .close => false
  | .stopTx .. | .sendOff _ => true
  | _ => false

/-- The old bridge has been torn down and the new one not yet made. -/
def Serve.rerouting : Serve → Bool
  | .stopTx _ (.startTx ..) | .sendOff (.startTx ..) => true
  | _ => false

/-- A refresh is in a part of the code that the lock encloses. -/
def Task.holdsTx : Task → Bool
  | .stopTx _ (some _) | .sendOff (some _) => true
  | _ => false

/-- Whoever is in the enclosed part holds the lock, and a reroute has torn the old bridge down. -/
structure Locked (s : Engine) : Prop where
  server : s.serve.holdsTx = true → s.txLock = some .server
  task : s.tasks.All fun i task => task.holdsTx = true → s.txLock = some (.task i)
  rerouting : s.serve.rerouting = true → s.tx = none

/-- The dispatcher goes on without touching the lock. -/
theorem Locked.serve (h : Locked s) (hlock : s'.txLock = s.txLock)
    (htasks : s'.tasks = s.tasks) (hserve : s'.serve.holdsTx = true → s.serve.holdsTx = true)
    (hrerouting : s'.serve.rerouting = true → s'.tx = none) : Locked s' where
  server hheld := by rw [hlock, h.server (hserve hheld)]
  task := by
    rw [htasks, hlock]
    exact h.task
  rerouting := hrerouting

/-- The dispatcher takes the free lock. -/
theorem Locked.acquire (h : Locked s) (hfree : s.txLock = none) (hlock : s'.txLock = some .server)
    (htasks : s'.tasks = s.tasks) (hrerouting : s'.serve.rerouting = true → s'.tx = none) :
    Locked s' where
  server _ := hlock
  task := by
    rw [htasks]
    exact h.task.imp fun i task _ hi hholds => absurd (hi hholds) (by simp [hfree])
  rerouting := hrerouting

/-- The dispatcher gives the lock back. -/
theorem Locked.release (h : Locked s) (hheld : s.serve.holdsTx = true)
    (htasks : s'.tasks = s.tasks) (hserve : s'.serve = .idle) : Locked s' where
  server := by simp [hserve, Serve.holdsTx]
  task := by
    rw [htasks]
    exact h.task.imp fun i task _ hi hholds => absurd (hi hholds) (by simp [h.server hheld])
  rerouting := by simp [hserve, Serve.rerouting]

/-- The dispatcher tears the transmitter down while it holds the lock. -/
theorem locked_serveTeardownTx (h : Locked s) (k : AfterTx)
    (hheld : k ≠ .close → s.txLock = some .server) : Locked (s.serveTeardownTx k) := by
  have htask : ∀ {s' : Engine}, s'.tasks = s.tasks → s'.txLock = s.txLock →
      s'.tasks.All fun i task => task.holdsTx = true → s'.txLock = some (.task i) := by
    intro s' htasks hlock
    rw [htasks, hlock]
    exact h.task
  unfold serveTeardownTx
  split
  · cases k with
    | micOff =>
      refine ⟨by simp [afterTx, Serve.holdsTx], ?_, by simp [afterTx, Serve.rerouting]⟩
      exact h.task.imp fun i task _ hi hholds => absurd (hi hholds) (by simp [hheld])
    | startTx slot module =>
      exact ⟨fun _ => hheld (by simp), htask rfl rfl, by simp [afterTx, makeTx, Serve.rerouting]⟩
    | close =>
      exact ⟨by simp [afterTx, Serve.holdsTx], htask rfl rfl, by simp [afterTx, Serve.rerouting]⟩
  · refine ⟨fun hholds => hheld fun hk => ?_, htask rfl rfl, fun _ => rfl⟩
    simp [hk, Serve.holdsTx] at hholds

/-- What a message makes of an idle dispatcher. -/
inductive Dispatched (s : Engine) : Engine → Prop
  | ignored : Dispatched s s
  | petted : s.tx ≠ none → Dispatched s s.armDeadMan
  | micOff : Dispatched s { s with micActive := false, serve := .micOffLock }
  | micOn (slot : Slot) (module : String) :
      Dispatched s { s with micActive := true, serve := .diagLock (.micOn slot module) }
  | refused : Dispatched s { s with serve := .reply }
  | resolves (slot : Slot) (ref : Nat) : s.micActive = false → s.tx = none → s.diag = none →
      Dispatched s { s with serve := .resolveDiag slot ref }
  | runs : s.micActive = false → s.tx = none → s.diag = none →
      Dispatched s { s with serve := .runC }
  | closes : Dispatched s { s with closed := true, serve := .closeRx }

/-- Every message is dispatched in one of these ways. -/
theorem dispatched (s : Engine) (m : Message) : Dispatched s (s.dispatch m) := by
  cases m with
  | micState active slot module =>
    cases active with
    | false => exact .micOff
    | true => cases slot with
        | none => exact .ignored
        | some slot => exact .micOn slot module
  | media ref isMic =>
    simp only [dispatch, onMediaFrame]
    split
    · exact .ignored
    · split
      · exact .ignored
      · next hmic => exact .petted fun htx => hmic (.inl htx)
  | diagCommand anchor slot ref =>
    simp only [dispatch, onDiagCommand]
    split
    · exact .refused
    · split
      · exact .refused
      · next slot hfree =>
        -- the checks of the command
        simp only [not_or, not_not, Bool.not_eq_true] at hfree
        obtain ⟨-, htx, hmic, hdiag⟩ := hfree
        split
        · exact .resolves slot ref hmic htx hdiag
        · exact .runs hmic htx hdiag
  | other => exact .ignored
  | closed => exact .closes

theorem locked_dispatch (h : Locked s) (hidle : s.serve = .idle) (hd : Dispatched s s') :
    Locked s' := by
  cases hd with
  | ignored => exact h
  | petted =>
    exact h.serve rfl rfl (by simp [armDeadMan, disarmDeadMan, hidle])
      (by simp [armDeadMan, disarmDeadMan, hidle, Serve.rerouting])
  | _ => exact h.serve rfl rfl (by simp [Serve.holdsTx]) (by simp [Serve.rerouting])

variable {e : Answer} {task : Task} {i : TaskId} {timer : Timer}

/-- The dispatcher, from any of its awaits. -/
theorem locked_resumeServe (h : Locked s) (hs : s.resumeServe e = some s') : Locked s' := by
  have hplain : ∀ {s' : Engine}, s'.txLock = s.txLock → s'.tasks = s.tasks →
      s'.serve.holdsTx = false → s'.serve.rerouting = false → Locked s' :=
    fun hlock htasks hholds hroute => h.serve hlock htasks (by simp [hholds]) (by simp [hroute])
  cases hserve : s.serve with
  | idle =>
    simp only [resumeServe, hserve, Option.some.injEq] at hs
    exact locked_dispatch h hserve (hs ▸ dispatched s e.message)
  | micOffLock =>
    simp only [resumeServe, hserve] at hs
    split at hs
    · next hfree =>
      cases hs
      have h' : Locked { s with txLock := some .server } :=
        h.acquire hfree rfl rfl (by simp [hserve, Serve.rerouting])
      exact locked_serveTeardownTx h' .micOff fun _ => rfl
    · cases hs
  | micOnLock slot module =>
    simp only [resumeServe, hserve] at hs
    split at hs
    · next hfree =>
      cases hs
      unfold startTx
      split
      · exact hplain rfl rfl rfl rfl
      · exact h.acquire hfree rfl rfl (by simp [Serve.rerouting])
    · cases hs
  | resolveTx slot module =>
    have hheld : s.serve.holdsTx = true := by simp [hserve, Serve.holdsTx]
    simp only [resumeServe, hserve] at hs
    split at hs
    · cases hs
      split
      · exact h.serve rfl rfl (fun _ => hheld) (by simp [makeTx, Serve.rerouting])
      · exact locked_serveTeardownTx h _ fun _ => h.server hheld
    · cases hs
      exact h.release hheld rfl rfl
  | stopTx b k =>
    simp only [resumeServe, hserve, Option.some.injEq] at hs
    subst hs
    refine h.serve rfl rfl (fun hk => ?_) fun hk => h.rerouting ?_
    · cases k <;> simp_all [Serve.holdsTx]
    · cases k <;> simp_all [Serve.rerouting]
  | sendOff k =>
    simp only [resumeServe, hserve, Option.some.injEq] at hs
    subst hs
    cases k with
    | micOff => exact h.release (by simp [hserve, Serve.holdsTx]) rfl rfl
    | startTx slot module =>
      exact h.serve rfl rfl (fun _ => by simp [hserve, Serve.holdsTx])
        (by simp [afterTx, makeTx, Serve.rerouting])
    | close => exact hplain rfl rfl rfl rfl
  | startTx b =>
    have hheld : s.serve.holdsTx = true := by simp [hserve, Serve.holdsTx]
    simp only [resumeServe, hserve] at hs
    split at hs <;> cases hs
    · exact h.release hheld rfl rfl
    · exact h.serve rfl rfl (fun _ => hheld) (by simp [Serve.rerouting])
  | failTx b =>
    simp only [resumeServe, hserve, Option.some.injEq] at hs
    subst hs
    exact h.release (by simp [hserve, Serve.holdsTx]) rfl rfl
  | diagLock k =>
    simp only [resumeServe, hserve] at hs
    split at hs
    · split at hs <;> cases hs
      · cases k <;> exact hplain rfl rfl rfl rfl
      · exact hplain rfl rfl rfl rfl
    · cases hs
  | stopDiag b task k =>
    simp only [resumeServe, hserve, Option.some.injEq] at hs
    subst hs
    cases k <;> exact hplain rfl rfl rfl rfl
  | resolveDiag slot ref =>
    simp only [resumeServe, hserve] at hs
    split at hs <;> cases hs <;> exact hplain rfl rfl rfl rfl
  | startDiag b slot ref =>
    simp only [resumeServe, hserve] at hs
    split at hs <;> cases hs
    · refine ⟨by simp [Serve.holdsTx], ?_, by simp [Serve.rerouting]⟩
      exact h.task.insert (by simp [Task.holdsTx])
    · exact hplain rfl rfl rfl rfl
  | failDiag | runC | reply =>
    simp only [resumeServe, hserve, Option.some.injEq] at hs
    exact hs ▸ hplain rfl rfl rfl rfl
  | closeRx =>
    simp only [resumeServe, hserve, Option.some.injEq] at hs
    exact hs ▸ locked_serveTeardownTx h _ (by simp)
  | closed => simp [resumeServe, hserve] at hs

/-- A suspension concerns its own task. -/
theorem get?_suspend (i j : TaskId) (next : Option Task) : (s.suspend i next).tasks.get? j =
      if j = i then (s.tasks.get? i).bind fun _ => next else s.tasks.get? j := by
  cases next with
  | none => simp [suspend, Table.get?_erase]
  | some task =>
    simp only [suspend, Table.get?_modify]
    split
    · next hji => cases hget : s.tasks.get? j <;> simp_all
    · rfl

/-- A background task moves on, and the lock with it. -/
theorem Locked.suspend {t : Engine} {next : Option Task} (h : Locked s) (hserve : t.serve = s.serve)
    (htasks : t.tasks = s.tasks) (htx : t.tx = s.tx ∨ t.tx = none)
    (hlock : t.txLock = s.txLock ∨ t.txLock = none ∧ s.txLock = some (.task i) ∨
      s.txLock = none ∧ t.txLock = some (.task i))
    (hown : ∀ task, next = some task → task.holdsTx = true → t.txLock = some (.task i)) :
    Locked (t.suspend i next) where
  server hheld := by
    have hserver := h.server (hserve ▸ hheld)
    rcases hlock with heq | ⟨-, htask⟩ | ⟨hfree, -⟩
    · exact heq.trans hserver
    · simp [hserver] at htask
    · simp [hserver] at hfree
  task j task hj hholds := by
    rw [get?_suspend, htasks] at hj
    by_cases hji : j = i
    · subst hji
      rw [if_pos rfl, Option.bind_eq_some_iff] at hj
      obtain ⟨_, -, hnext⟩ := hj
      exact hown task hnext hholds
    · rw [if_neg hji] at hj
      have htask := h.task j task hj hholds
      rcases hlock with heq | ⟨-, hi⟩ | ⟨hfree, -⟩
      · exact heq.trans htask
      · simp [htask, hji] at hi
      · simp [htask] at hfree
  rerouting hroute := by
    rcases htx with htx | htx
    · exact htx.trans (h.rerouting (hserve ▸ hroute))
    · exact htx

/-- A background task, from any of its awaits. -/
theorem locked_resumeTask (h : Locked s) (hi : s.tasks.get? i = some task)
    (hs : s.resumeTask i task = some s') : Locked s' := by
  cases task with
  | refreshRx r =>
    cases hs
    exact h.suspend rfl rfl (.inl rfl) (.inl rfl) (by simp [Task.holdsTx])
  | txLock r =>
    simp only [resumeTask] at hs
    split at hs
    · next hfree =>
      have hdiag : Locked (s.refreshDiag i r) := by
        refine h.suspend rfl rfl (.inl rfl) (.inl rfl) fun task htask => ?_
        obtain ⟨diag, -, rfl⟩ := Option.map_eq_some_iff.mp htask
        simp [Task.holdsTx]
      cases hs
      unfold refreshTx
      split
      · exact hdiag
      · split
        · exact h.suspend rfl rfl (.inr rfl) (.inr (.inr ⟨hfree, rfl⟩)) fun _ _ _ => rfl
        · exact hdiag
    · cases hs
  | stopTx b r =>
    cases hs
    refine h.suspend rfl rfl (.inl rfl) (.inl rfl) fun task htask hholds => ?_
    cases r with
    | none =>
      cases htask
      simp [Task.holdsTx] at hholds
    | some r => exact h.task i _ hi (by simp [Task.holdsTx])
  | sendOff r =>
    cases hs
    cases r with
    | none =>
      have hend : Locked (s.suspend i none) := h.suspend rfl rfl (.inl rfl) (.inl rfl) (by simp)
      exact hend
    | some r =>
      have hlock := h.task i _ hi (by simp [Task.holdsTx])
      refine h.suspend rfl rfl (.inl rfl) (.inr (.inl ⟨rfl, hlock⟩)) fun task htask => ?_
      obtain ⟨diag, -, rfl⟩ := Option.map_eq_some_iff.mp htask
      simp [Task.holdsTx]
  | measure b =>
    cases hs
    exact h.suspend rfl rfl (.inl rfl) (.inl rfl) (by simp [Task.holdsTx])
  | diagLock k =>
    have hafter : ∀ task, taskAfterDiag none k = some task → task.holdsTx = false := by
      intro task htask
      cases k with
      | refresh diag => simp [taskAfterDiag] at htask
      | measurement c =>
        cases c <;> cases htask
        rfl
    simp only [resumeTask] at hs
    split at hs
    · split at hs <;> cases hs
      · exact h.suspend rfl rfl (.inl rfl) (.inl rfl) fun task htask => by
          simp [hafter task htask]
      · exact h.suspend rfl rfl (.inl rfl) (.inl rfl) (by simp [Task.holdsTx])
    · cases hs
  | stopDiag b t k =>
    cases hs
    refine h.suspend rfl rfl (.inl rfl) (.inl rfl) fun task htask => ?_
    cases k with
    | refresh diag =>
      simp only [taskAfterDiag] at htask
      split at htask <;> cases htask
      simp [Task.holdsTx]
    | measurement c =>
      cases c <;> cases htask
      simp [Task.holdsTx]
  | emit =>
    cases hs
    exact h.suspend rfl rfl (.inl rfl) (.inl rfl) (by simp)

/-- A task that ends by its cancellation lets go of the lock. -/
theorem locked_throwTask (h : Locked s) : Locked (s.throwTask i task) := by
  have hend : Locked (({ s with
      cancelled := s.cancelled.filter (· ≠ i)
      txLock := release s.txLock i
      diagLock := release s.diagLock i }).suspend i none) := by
    refine h.suspend rfl rfl (.inl rfl) ?_ (by simp)
    by_cases hheld : s.txLock = some (.task i)
    · exact .inr (.inl ⟨by simp [release, hheld], hheld⟩)
    · exact .inl (by simp [release, hheld])
  have hmeasure : Locked (({ s with cancelled := s.cancelled.filter (· ≠ i) }).suspend i
      (some (.diagLock (.measurement true)))) :=
    h.suspend rfl rfl (.inl rfl) (.inl rfl) (by simp [Task.holdsTx])
  cases task with
  | measure b => exact hmeasure
  | _ => exact hend

theorem locked_fire (h : Locked s) : Locked (s.fire i timer) := by
  have hsame : ∀ {s' : Engine}, s'.serve = s.serve → s'.txLock = s.txLock → s'.tx = s.tx →
      s'.tasks = s.tasks → Locked (s'.timerTeardown i) := by
    intro s' hserve hlock htx htasks
    refine ⟨fun hheld => hlock.trans (h.server (hserve ▸ hheld)), ?_, fun _ => rfl⟩
    have hlock' : (s'.timerTeardown i).txLock = s.txLock := hlock
    rw [hlock', timerTeardown, htx, htasks]
    split
    · exact h.task
    · exact h.task.insert (by simp [Task.holdsTx])
  cases timer with
  | deadMan =>
    simp only [fire]
    split
    · exact hsame rfl rfl rfl rfl
    · exact ⟨h.server, h.task, h.rerouting⟩
  | tot => exact hsame rfl rfl rfl rfl

/-- A task is thrown its cancellation, or goes on. -/
theorem task_of_step (hs : step s (.task i) = some s') : ∃ task, s.tasks.get? i = some task ∧
    (i ∈ s.cancelled ∧ s' = s.throwTask i task ∨
      i ∉ s.cancelled ∧ s.resumeTask i task = some s') := by
  cases hi : s.tasks.get? i with
  | none => simp [step, hi] at hs
  | some task =>
    simp only [step, hi] at hs
    split at hs
    · next hcancelled =>
      cases hs
      exact ⟨task, rfl, .inl ⟨hcancelled, rfl⟩⟩
    · next hlive => exact ⟨task, rfl, .inr ⟨hlive, hs⟩⟩

/-- **Every step keeps the lock in order.** -/
theorem locked_step {l : Label} (h : Locked s) (hs : step s l = some s') : Locked s' := by
  cases l with
  | serve e => exact locked_resumeServe h hs
  | task i =>
    obtain ⟨task, hi, ⟨-, rfl⟩ | ⟨-, hs⟩⟩ := task_of_step hs
    · exact locked_throwTask h
    · exact locked_resumeTask h hi hs
  | fire i =>
    obtain ⟨timer, -, rfl⟩ := Option.map_eq_some_iff.mp hs
    exact locked_fire h
  | refresh r =>
    simp only [step] at hs
    split at hs <;> cases hs
    exact ⟨h.server, h.task.insert (by simp [Task.holdsTx]), h.rerouting⟩

/-! ## the guard -/

/-- What the guard reads of a bridge. -/
structure Stage where
  kind : Kind
  started : Bool := false
  stopRequested : Bool := false
deriving DecidableEq, Repr

def Bridge.stage (x : Bridge) : Stage where
  kind := x.kind
  started := x.started
  stopRequested := x.stopRequested

/-- The transmit bridge whose start the dispatcher awaits. -/
def Serve.starting : Serve → Option BridgeId
  | .startTx b => some b
  | _ => none

/-- The same for a diagnostic. -/
def Serve.startingDiag : Serve → Option BridgeId
  | .startDiag b _ _ => some b
  | _ => none

/-- The engine as the guard sees it: the bridges, which of them it refers to, which one is
being started, and whether the timers are armed. -/
structure View where
  tx : Option BridgeId
  deadMan : Bool
  tot : Bool
  stage : BridgeId → Option Stage
  nextBridge : BridgeId
  diag : Option BridgeId
  starting : Option BridgeId
  startingDiag : Option BridgeId

namespace View

/-- The guard: what is current has its timers, and what has started is current or stopped. -/
structure Guarded (v : View) : Prop where
  /-- a current bridge that is not being started has both timers -/
  armed : v.tx ≠ none → v.starting = none → v.deadMan = true ∧ v.tot = true
  off : v.tx = none ∨ v.starting ≠ none → v.deadMan = false ∧ v.tot = false
  /-- a bridge that is being started is the current one, and nobody is after it -/
  inFlight : ∀ b, v.starting = some b → v.tx = some b ∧ v.stage b = some { kind := .tx }
  started : ∀ b x, v.stage b = some x → x.kind = .tx → x.started = true →
    x.stopRequested = true ∨ v.tx = some b
  fresh : ∀ b, v.nextBridge ≤ b → v.stage b = none
  diag : ∀ b, v.diag = some b ∨ v.startingDiag = some b → (v.stage b).map Stage.kind = some .diag

/-- Change the stage of one bridge. -/
def onStage (v : View) (b : Option BridgeId) (f : Stage → Stage) : View :=
  { v with stage := fun c => if b = some c then (v.stage c).map f else v.stage c }

def requestStop (v : View) (b : Option BridgeId) : View :=
  v.onStage b fun x => { x with stopRequested := true }

def markStarted (v : View) (b : BridgeId) : View :=
  v.onStage (some b) fun x => { x with started := true }

def newBridge (v : View) (kind : Kind) : View :=
  { v with
    nextBridge := v.nextBridge + 1
    stage := fun c => if c = v.nextBridge then some { kind } else v.stage c }

variable {v : View}

variable {b : Option BridgeId}

theorem onStage_fresh {f : Stage → Stage} (h : ∀ c, v.nextBridge ≤ c → v.stage c = none) :
    ∀ c, v.nextBridge ≤ c → (v.onStage b f).stage c = none := by
  intro c hc
  simp [onStage, h c hc]

/-- A bridge keeps its kind. -/
theorem kind_onStage {f : Stage → Stage} (hf : ∀ x, (f x).kind = x.kind) (c : BridgeId) :
    ((v.onStage b f).stage c).map Stage.kind = (v.stage c).map Stage.kind := by
  have hkind : Stage.kind ∘ f = Stage.kind := funext hf
  simp only [onStage]
  split
  · rw [Option.map_map, hkind]
  · rfl

/-- A started bridge that nobody has stopped is the current one, and was not stopped now. -/
theorem Guarded.current (h : v.Guarded) {c : BridgeId} {x : Stage}
    (hx : (v.requestStop b).stage c = some x) (hkind : x.kind = .tx) (hstarted : x.started = true) :
    x.stopRequested = true ∨ v.tx = some c ∧ b ≠ some c := by
  simp only [View.requestStop, onStage] at hx
  split at hx
  · obtain ⟨y, -, rfl⟩ := Option.map_eq_some_iff.mp hx
    exact .inl rfl
  · next hne => exact (h.started c x hx hkind hstarted).imp id fun htx => ⟨htx, hne⟩

/-- The bridge of a diagnostic is not a transmitter, stopped or not. -/
theorem Guarded.kinds (h : v.Guarded) {c : BridgeId}
    (hc : v.diag = some c ∨ v.startingDiag = some c) :
    ((v.requestStop b).stage c).map Stage.kind = some .diag := by
  rw [View.requestStop, kind_onStage (by simp)]
  exact h.diag c hc

theorem Guarded.requestStop (h : v.Guarded) (hb : ∀ c, b = some c → v.starting ≠ some c) :
    (v.requestStop b).Guarded where
  armed := h.armed
  off := h.off
  inFlight c hc := by
    obtain ⟨htx, hstage⟩ := h.inFlight c hc
    have hne : b ≠ some c := fun hbc => hb c hbc hc
    exact ⟨htx, by simpa [View.requestStop, onStage, hne] using hstage⟩
  started c x hx hkind hstarted := (h.current hx hkind hstarted).imp id And.left
  fresh := onStage_fresh h.fresh
  diag _ hc := h.kinds hc

/-- Nobody refers to the transmitter any more, and its stop is requested. -/
theorem Guarded.teardown (h : v.Guarded) (hstarting : v.starting = none) :
    ({ v.requestStop v.tx with tx := none, deadMan := false, tot := false }).Guarded where
  armed := by simp
  off := by simp
  inFlight c hc := by simp [View.requestStop, onStage, hstarting] at hc
  started c x hx hkind hstarted :=
    (h.current hx hkind hstarted).imp id fun ⟨htx, hne⟩ => absurd htx hne
  fresh := onStage_fresh h.fresh
  diag _ hc := h.kinds hc

/-- The dispatcher turns to something other than a start. -/
theorem Guarded.leave (h : v.Guarded) (hstarting : v.starting = none) :
    ({ v with starting := none, startingDiag := none }).Guarded where
  armed htx _ := h.armed htx hstarting
  off hoff := h.off (.inl (by simpa using hoff))
  inFlight := by simp
  started := h.started
  fresh := h.fresh
  diag c hc := h.diag c (.inl (by simpa using hc))

/-- A new transmitter is made while there is none. -/
theorem Guarded.makeTx (h : v.Guarded) (htx : v.tx = none) :
    ({ v.newBridge .tx with
      tx := some v.nextBridge
      starting := some v.nextBridge
      startingDiag := none }).Guarded where
  armed := by simp
  off _ := h.off (.inl htx)
  inFlight c hc := by
    cases hc
    simp [View.newBridge]
  started c x hx hkind hstarted := by
    simp only [View.newBridge] at hx
    split at hx
    · cases hx
      simp at hstarted
    · exact .inl ((h.started c x hx hkind hstarted).resolve_right (by simp [htx]))
  fresh c hc := by
    have hle : v.nextBridge < c := hc
    simp [View.newBridge, h.fresh c (Nat.le_of_lt hle), Nat.ne_of_gt hle]
  diag c hc := by
    have hdiag := h.diag c (.inl (by simpa [View.newBridge] using hc))
    have hold : c ≠ v.nextBridge := by
      rintro rfl
      simp [h.fresh] at hdiag
    simpa [View.newBridge, hold] using hdiag

/-- The start has returned, and both timers are armed. -/
theorem Guarded.startedTx {b : BridgeId} (h : v.Guarded) (hb : v.starting = some b) :
    ({ v.markStarted b with
      deadMan := true
      tot := true
      starting := none
      startingDiag := none }).Guarded where
  armed := by simp
  off hoff := by simp [View.markStarted, onStage, (h.inFlight b hb).1] at hoff
  inFlight := by simp
  started c x hx hkind hstarted := by
    simp only [View.markStarted, onStage, Option.some.injEq] at hx
    split at hx
    · next hbc => exact .inr (hbc ▸ (h.inFlight b hb).1)
    · exact h.started c x hx hkind hstarted
  fresh := onStage_fresh h.fresh
  diag c hc := by
    rw [View.markStarted, kind_onStage (by simp)]
    exact h.diag c (.inl (by simpa [View.markStarted, onStage] using hc))

/-- The start has failed: the bridge is stopped and not current. -/
theorem Guarded.failedTx {b : BridgeId} (h : v.Guarded) (hb : v.starting = some b) :
    ({ v.requestStop (some b) with
      tx := none
      starting := none
      startingDiag := none }).Guarded where
  armed := by simp
  off _ := h.off (.inr (by simp [hb]))
  inFlight := by simp
  started c x hx hkind hstarted := by
    refine (h.current hx hkind hstarted).imp id fun ⟨htx, hne⟩ => ?_
    rw [(h.inFlight b hb).1] at htx
    exact absurd htx hne
  fresh := onStage_fresh h.fresh
  diag _ hc := h.kinds (.inl (by simpa [View.requestStop, onStage] using hc))

/-- A frame of the mic arrives. -/
theorem Guarded.pet (h : v.Guarded) (htx : v.tx ≠ none) (hstarting : v.starting = none) :
    ({ v with deadMan := true }).Guarded where
  armed _ _ := ⟨rfl, (h.armed htx hstarting).2⟩
  off hoff := by simp_all
  inFlight := h.inFlight
  started := h.started
  fresh := h.fresh
  diag := h.diag

/-- A diagnostic is cleared, which cannot be the transmitter that is being started. -/
theorem Guarded.clearDiag (h : v.Guarded) :
    ({ v.requestStop v.diag with diag := none }).Guarded := by
  have hstop : (v.requestStop v.diag).Guarded := h.requestStop fun c hc hstarting => by
    have hdiag := h.diag c (.inl hc)
    simp [(h.inFlight c hstarting).2] at hdiag
  exact ⟨hstop.armed, hstop.off, hstop.inFlight, hstop.started, hstop.fresh,
    fun c hc => hstop.diag c (.inr (by simpa using hc))⟩

/-- A bridge for a diagnostic is made. -/
theorem Guarded.newDiag (h : v.Guarded) (hstarting : v.starting = none) :
    ({ v.newBridge .diag with
      starting := none
      startingDiag := some v.nextBridge }).Guarded where
  armed htx _ := h.armed htx hstarting
  off hoff := h.off (.inl (by simpa [View.newBridge] using hoff))
  inFlight := by simp
  started c x hx hkind hstarted := by
    simp only [View.newBridge] at hx
    split at hx
    · cases hx
      simp at hkind
    · exact h.started c x hx hkind hstarted
  fresh c hc := by
    have hle : v.nextBridge < c := hc
    simp [View.newBridge, h.fresh c (Nat.le_of_lt hle), Nat.ne_of_gt hle]
  diag c hc := by
    by_cases hold : c = v.nextBridge
    · simp [View.newBridge, hold]
    · have hdiag := h.diag c (.inl (by simpa [View.newBridge, Ne.symm hold] using hc))
      simpa [View.newBridge, hold] using hdiag

/-- The bridge of a diagnostic is current; its start concerns no transmitter. -/
theorem Guarded.startedDiag {b : BridgeId} (h : v.Guarded) (hb : v.startingDiag = some b)
    (hstarting : v.starting = none) :
    ({ v.markStarted b with diag := some b, starting := none, startingDiag := none }).Guarded where
  armed htx _ := h.armed htx hstarting
  off hoff := h.off (.inl (by simpa [View.markStarted, onStage] using hoff))
  inFlight := by simp
  started c x hx hkind hstarted := by
    have hdiag := h.diag b (.inr hb)
    simp only [View.markStarted, onStage, Option.some.injEq] at hx
    split at hx
    · next hbc =>
      subst hbc
      obtain ⟨y, hy, rfl⟩ := Option.map_eq_some_iff.mp hx
      rw [hy] at hdiag
      simp_all
    · exact h.started c x hx hkind hstarted
  fresh := onStage_fresh h.fresh
  diag c hc := by
    rw [View.markStarted, kind_onStage (by simp)]
    exact h.diag c (.inr (by simpa [hb] using hc))

end View

def Engine.view (s : Engine) : View where
  tx := s.tx.map Tx.bridge
  deadMan := s.deadMan.isSome
  tot := s.tot.isSome
  stage b := (s.bridges.get? b).map Bridge.stage
  nextBridge := s.nextBridge
  diag := s.diag.map Diag.bridge
  starting := s.serve.starting
  startingDiag := s.serve.startingDiag

theorem view_requestStop (s : Engine) (b : Option BridgeId) :
    (s.requestStop b).view = s.view.requestStop b := by
  have hstage : (s.requestStop b).view.stage = (s.view.requestStop b).stage := by
    funext c
    cases b with
    | none => simp [view, Engine.requestStop, View.requestStop, View.onStage]
    | some b =>
      simp only [view, Engine.requestStop, View.requestStop, View.onStage, Table.get?_modify,
        Option.some.injEq, eq_comm (a := b)]
      split
      · cases s.bridges.get? c <;> rfl
      · rfl
  simpa [view, Engine.requestStop, View.requestStop, View.onStage] using hstage

theorem view_markStarted (s : Engine) (b : BridgeId) :
    (s.markStarted b).view = s.view.markStarted b := by
  have hstage : (s.markStarted b).view.stage = (s.view.markStarted b).stage := by
    funext c
    simp only [view, Engine.markStarted, View.markStarted, View.onStage, Table.get?_modify,
      Option.some.injEq, eq_comm (a := b)]
    split
    · cases s.bridges.get? c <;> rfl
    · rfl
  simpa [view, Engine.markStarted, View.markStarted, View.onStage] using hstage

/-- The guard does not look at whether a stop has returned. -/
theorem view_markStopped (s : Engine) (b : BridgeId) : (s.markStopped b).view = s.view := by
  have hstage : (s.markStopped b).view.stage = s.view.stage := by
    funext c
    simp only [view, markStopped, Table.get?_modify]
    split
    · cases s.bridges.get? c <;> rfl
    · rfl
  simpa [view, markStopped] using hstage

theorem view_newBridge (h : s.view.Guarded) (kind : Kind) :
    (s.newBridge kind).view = s.view.newBridge kind := by
  have hfresh : s.bridges.get? s.nextBridge = none := by
    simpa [view] using h.fresh s.nextBridge (Nat.le_refl _)
  have hstage : (s.newBridge kind).view.stage = (s.view.newBridge kind).stage := by
    funext c
    by_cases hc : c = s.nextBridge <;>
      simp [view, Engine.newBridge, View.newBridge, Table.get?_insert, hfresh, hc, Bridge.stage]
  simpa [view, Engine.newBridge, View.newBridge] using hstage

theorem view_teardownTx (s : Engine) : s.teardownTx.view =
    { s.view.requestStop s.view.tx with tx := none, deadMan := false, tot := false } := by
  rw [← view_requestStop]
  rfl

/-! ## the guard of a state -/

/-- The timers and their references. -/
def Engine.clock (s : Engine) :
    Table TaskId Timer × Option TaskId × Option TaskId × Option TaskId × TaskId :=
  (s.timers, s.deadMan, s.deadManToken, s.tot, s.nextTask)

/-- The timers are in order, and the bridges are guarded. -/
structure Watched (s : Engine) : Prop where
  timed : Timed s
  guarded : s.view.Guarded

theorem Timed.of_clock (h : Timed s) (hclock : s'.clock = s.clock) : Timed s' := by
  simp only [clock, Prod.mk.injEq] at hclock
  obtain ⟨htimers, hdead, htoken, htot, hnext⟩ := hclock
  exact h.congr htimers hdead htoken htot (Nat.le_of_eq hnext.symm)

theorem Watched.congr (h : Watched s) (hclock : s'.clock = s.clock) (hview : s'.view = s.view) :
    Watched s' := ⟨h.timed.of_clock hclock, hview ▸ h.guarded⟩

/-- The dispatcher turns to something other than a start. -/
theorem Watched.leave (h : Watched s) (hstarting : s.view.starting = none)
    (hclock : s'.clock = s.clock)
    (hview : s'.view = { s.view with starting := none, startingDiag := none }) : Watched s' :=
  ⟨h.timed.of_clock hclock, hview ▸ h.guarded.leave hstarting⟩

theorem Watched.markStopped (h : Watched s) (b : BridgeId) : Watched (s.markStopped b) :=
  h.congr rfl (view_markStopped s b)

theorem Watched.teardownTx (h : Watched s) (hstarting : s.view.starting = none) :
    Watched s.teardownTx where
  timed := (h.timed.disarmDeadMan.disarmTot).of_clock rfl
  guarded := by
    rw [view_teardownTx]
    exact h.guarded.teardown hstarting

theorem Watched.makeTx (h : Watched s) (htx : s.tx = none) (slot : Slot) (module : String) :
    Watched (s.makeTx slot module) where
  timed := h.timed.of_clock rfl
  guarded := by
    have hmake := h.guarded.makeTx (by simp [view, htx])
    rw [← view_newBridge h.guarded] at hmake
    exact hmake

theorem Watched.clearDiag (h : Watched s) (owner : Owner) : Watched (s.clearDiag owner) where
  timed := h.timed.of_clock rfl
  guarded := by
    have hclear := h.guarded.clearDiag
    rw [← view_requestStop s s.view.diag] at hclear
    exact hclear

theorem Watched.armDeadMan (h : Watched s) (htx : s.tx ≠ none)
    (hstarting : s.view.starting = none) : Watched s.armDeadMan where
  timed := h.timed.armDeadMan
  guarded := h.guarded.pet (by simpa [view] using htx) hstarting

/-- The dispatcher goes on after the transmitter is torn down. -/
theorem watched_afterTx (h : Watched s) (hstarting : s.view.starting = none) (k : AfterTx)
    (htx : s.tx = none) : Watched (s.afterTx k) := by
  cases k with
  | micOff => exact h.leave hstarting rfl rfl
  | startTx slot module => exact h.makeTx htx slot module
  | close => exact h.leave hstarting rfl rfl

theorem watched_serveTeardownTx (h : Watched s) (hstarting : s.view.starting = none)
    (k : AfterTx) : Watched (s.serveTeardownTx k) := by
  unfold serveTeardownTx
  split
  · exact watched_afterTx (h.teardownTx hstarting) hstarting k rfl
  · exact (h.teardownTx hstarting).leave hstarting rfl rfl

theorem watched_dispatch (h : Watched s) (hidle : s.serve = .idle) (hd : Dispatched s s') :
    Watched s' := by
  have hstarting : s.view.starting = none := by simp [view, hidle, Serve.starting]
  cases hd with
  | ignored => exact h
  | petted htx => exact h.armDeadMan htx hstarting
  | _ => exact h.leave hstarting rfl rfl

theorem watched_afterDiag (h : Watched s) (hstarting : s.view.starting = none) (k : AfterDiag) :
    Watched (s.afterDiag k) := by
  cases k <;> exact h.leave hstarting rfl rfl

/-- The end of a start, either way. -/
theorem watched_startTx {b : BridgeId} (h : Watched s) (hserve : s.serve = .startTx b)
    (hs : s.resumeServe e = some s') : Watched s' := by
  have hb : s.view.starting = some b := by simp [view, hserve, Serve.starting]
  simp only [resumeServe, hserve] at hs
  split at hs <;> cases hs
  · have htimed : Timed (s.markStarted b) := h.timed.of_clock rfl
    have hstarted := h.guarded.startedTx hb
    rw [← view_markStarted s b] at hstarted
    exact ⟨htimed.armDeadMan.armTot.of_clock rfl, hstarted⟩
  · have hfailed := h.guarded.failedTx hb
    rw [← view_requestStop s (some b)] at hfailed
    exact ⟨h.timed.of_clock rfl, hfailed⟩

theorem watched_startDiag {b : BridgeId} {slot : Slot} {ref : Nat} (h : Watched s)
    (hserve : s.serve = .startDiag b slot ref) (hs : s.resumeServe e = some s') : Watched s' := by
  have hstarting : s.view.starting = none := by simp [view, hserve, Serve.starting]
  have hb : s.view.startingDiag = some b := by simp [view, hserve, Serve.startingDiag]
  simp only [resumeServe, hserve] at hs
  split at hs <;> cases hs
  · have hstarted := h.guarded.startedDiag hb hstarting
    rw [← view_markStarted s b] at hstarted
    exact ⟨h.timed.congr rfl rfl rfl rfl (Nat.le_succ _), hstarted⟩
  · have hstop := h.guarded.requestStop (b := some b) (by simp [hstarting])
    rw [← view_requestStop s (some b)] at hstop
    have hwatched : Watched (s.requestStop (some b)) := ⟨h.timed.of_clock rfl, hstop⟩
    exact hwatched.leave hstarting rfl rfl

/-- The dispatcher awaits a start of the transmitter, or not. -/
theorem starting_or (s : Engine) : (∃ b, s.serve = .startTx b) ∨ s.view.starting = none := by
  cases hserve : s.serve <;> simp [view, hserve, Serve.starting]

/-- The dispatcher, from any of its awaits.  A reroute needs the lock to know that the old
bridge is gone. -/
theorem watched_resumeServe (h : Watched s) (hlocked : Locked s) (hs : s.resumeServe e = some s') :
    Watched s' := by
  obtain ⟨b, hserve⟩ | hstarting := starting_or s
  · exact watched_startTx h hserve hs
  have hleave : ∀ {s' : Engine}, s'.clock = s.clock →
      s'.view = { s.view with starting := none, startingDiag := none } → Watched s' :=
    h.leave hstarting
  have hstopped : ∀ {b : BridgeId} {s' : Engine}, s'.clock = s.clock → s'.view =
      { (s.markStopped b).view with starting := none, startingDiag := none } → Watched s' :=
    (h.markStopped _).leave hstarting
  cases hserve : s.serve with
  | idle =>
    simp only [resumeServe, hserve, Option.some.injEq] at hs
    exact watched_dispatch h hserve (hs ▸ dispatched s e.message)
  | micOffLock =>
    simp only [resumeServe, hserve] at hs
    split at hs <;> cases hs
    have h' : Watched { s with txLock := some .server } := h.congr rfl rfl
    exact watched_serveTeardownTx h' hstarting .micOff
  | micOnLock slot module =>
    simp only [resumeServe, hserve] at hs
    split at hs <;> cases hs
    unfold startTx
    split <;> exact hleave rfl rfl
  | resolveTx slot module =>
    simp only [resumeServe, hserve] at hs
    split at hs <;> cases hs
    · split
      · next htx => exact h.makeTx htx slot module
      · exact watched_serveTeardownTx h hstarting _
    · exact hleave rfl rfl
  | sendOff k =>
    simp only [resumeServe, hserve, Option.some.injEq] at hs
    subst hs
    cases k with
    | startTx slot module =>
      exact h.makeTx (hlocked.rerouting (by simp [hserve, Serve.rerouting])) slot module
    | micOff => exact hleave rfl rfl
    | close => exact hleave rfl rfl
  | startTx b => simp [view, hserve, Serve.starting] at hstarting
  | diagLock k =>
    simp only [resumeServe, hserve] at hs
    split at hs
    · split at hs <;> cases hs
      · have h' : Watched ((s.clearDiag .server).leaveDiag .server s.diagTask) :=
          (h.clearDiag .server).congr rfl rfl
        exact watched_afterDiag h' hstarting k
      · exact (h.clearDiag .server).leave hstarting rfl rfl
    · cases hs
  | stopDiag b task k =>
    simp only [resumeServe, hserve, Option.some.injEq] at hs
    have h' : Watched ((s.markStopped b).leaveDiag .server task) :=
      (h.markStopped b).congr rfl rfl
    exact hs ▸ watched_afterDiag h' hstarting k
  | resolveDiag slot ref =>
    simp only [resumeServe, hserve] at hs
    split at hs <;> cases hs
    · have hnew := h.guarded.newDiag hstarting
      rw [← view_newBridge h.guarded] at hnew
      exact ⟨h.timed.of_clock rfl, hnew⟩
    · exact hleave rfl rfl
  | startDiag b slot ref => exact watched_startDiag h hserve hs
  | stopTx | failTx | failDiag =>
    simp only [resumeServe, hserve, Option.some.injEq] at hs
    exact hs ▸ hstopped rfl rfl
  | runC | reply =>
    simp only [resumeServe, hserve, Option.some.injEq] at hs
    exact hs ▸ hleave rfl rfl
  | closeRx =>
    simp only [resumeServe, hserve, Option.some.injEq] at hs
    exact hs ▸ watched_serveTeardownTx h hstarting _
  | closed => simp [resumeServe, hserve] at hs

/-- A background task.  A refresh that gets the lock finds no start in progress. -/
theorem watched_resumeTask (h : Watched s) (hlocked : Locked s)
    (hs : s.resumeTask i task = some s') :    Watched s' := by
  have hsuspend : ∀ {t : Engine} {next : Option Task}, Watched t → Watched (t.suspend i next) :=
    fun ht => ht.congr rfl rfl
  cases task with
  | txLock r =>
    simp only [resumeTask] at hs
    split at hs <;> cases hs
    next hfree =>
      have hstarting : s.view.starting = none := by
        refine (starting_or s).resolve_left fun ⟨b, hserve⟩ => ?_
        have hheld := hlocked.server (by simp [hserve, Serve.holdsTx])
        simp [hfree] at hheld
      unfold refreshTx
      split
      · exact h.congr rfl rfl
      · split
        · exact (h.teardownTx hstarting).congr rfl rfl
        · exact h.congr rfl rfl
  | stopTx b r =>
    cases hs
    exact hsuspend (h.markStopped b)
  | sendOff r =>
    cases hs
    cases r <;> exact h.congr rfl rfl
  | diagLock k =>
    simp only [resumeTask] at hs
    split at hs
    · split at hs <;> cases hs
      · exact hsuspend ((h.clearDiag (.task i)).congr rfl rfl)
      · exact hsuspend (h.clearDiag _)
    · cases hs
  | stopDiag b t k =>
    cases hs
    exact hsuspend ((h.markStopped b).congr rfl rfl)
  | refreshRx r | measure b | emit =>
    cases hs
    exact hsuspend h

/-- While a start is in its thread no timer sleeps. -/
theorem Watched.not_starting (h : Watched s) (hi : s.timers.get? i = some timer) :
    s.view.starting = none := by
  by_contra hstarting
  have hoff := h.guarded.off (.inr hstarting)
  cases timer with
  | deadMan => simp [view, (h.timed.deadMan i).mp hi] at hoff
  | tot => simp [view, (h.timed.tot i).mp hi] at hoff

/-- A timer that fires is the one referred to, so that the teardown finds its transmitter. -/
theorem watched_fire (h : Watched s) (hi : s.timers.get? i = some timer) :
    Watched (s.fire i timer) := by
  have htear : s.teardownTx.view.Guarded := (h.teardownTx (h.not_starting hi)).guarded
  rw [view_teardownTx] at htear
  cases timer with
  | deadMan =>
    have hdead := (h.timed.deadMan i).mp hi
    have htimed : Timed { s with
        timers := s.timers.erase i
        deadMan := none
        deadManToken := none } :=
      h.timed.disarmDeadMan.congr (by simp [Engine.disarmDeadMan, cancelTimer, hdead])
        rfl rfl rfl (Nat.le_refl _)
    rw [fire, if_pos (h.timed.token.trans hdead)]
    refine ⟨htimed.disarmDeadMan.disarmTot.of_clock rfl, ?_⟩
    have hview := view_teardownTx { s with
        timers := s.timers.erase i
        deadMan := none
        deadManToken := none }
    exact hview ▸ htear
  | tot =>
    have htot := (h.timed.tot i).mp hi
    have htimed : Timed { s with timers := s.timers.erase i, tot := none } :=
      h.timed.disarmTot.congr (by simp [Engine.disarmTot, cancelTimer, htot])
        rfl rfl rfl (Nat.le_refl _)
    refine ⟨htimed.disarmDeadMan.disarmTot.of_clock rfl, ?_⟩
    have hview := view_teardownTx { s with timers := s.timers.erase i, tot := none }
    exact hview ▸ htear

/-- **Every step keeps the guard.** -/
theorem watched_step {l : Label} (h : Watched s) (hlocked : Locked s) (hs : step s l = some s') :
    Watched s' := by
  cases l with
  | serve e => exact watched_resumeServe h hlocked hs
  | task i =>
    obtain ⟨task, -, ⟨-, rfl⟩ | ⟨-, hs⟩⟩ := task_of_step hs
    · cases task <;> exact h.congr rfl rfl
    · exact watched_resumeTask h hlocked hs
  | fire i =>
    obtain ⟨timer, hi, rfl⟩ := Option.map_eq_some_iff.mp hs
    exact watched_fire h hi
  | refresh r =>
    simp only [step] at hs
    split at hs <;> cases hs
    exact ⟨h.timed.congr rfl rfl rfl rfl (Nat.le_succ _), h.guarded⟩

theorem locked_init : Locked {} where
  server := by simp [Serve.holdsTx]
  task := Table.all_empty
  rerouting := by simp

theorem watched_init : Watched {} where
  timed := {
    fresh := Table.all_empty
    deadMan := by simp [Table.get?, Table.empty]
    token := rfl
    tot := by simp [Table.get?, Table.empty] }
  guarded := {
    armed := by simp [view]
    off := by simp [view]
    inFlight := by simp [view, Serve.starting]
    started := by simp [view, Table.get?, Table.empty]
    fresh := by simp [view, Table.get?, Table.empty]
    diag := by simp [view, Serve.startingDiag] }

/-- In every state of every run the locks and the timers are in order. -/
theorem watched_reachable (h : Reachable step (fun _ _ => True) {} s) : Locked s ∧ Watched s :=
  h.invariant (P := fun s => Locked s ∧ Watched s) ⟨locked_init, watched_init⟩
    fun _ _ _ hs _ hstep => ⟨locked_step hs.1 hstep, watched_step hs.2 hs.1 hstep⟩

/-- **A transmit bridge whose start has completed is stopped, or it is the current one and
both timers are armed.**  A stop is never handed out before the start has returned, where
it would not end the bridge. -/
theorem started_tx_guarded {b : BridgeId} {x : Bridge}
    (h : Reachable step (fun _ _ => True) {} s) (hx : s.bridges.get? b = some x)
    (hkind : x.kind = .tx) :
    (x.started = true → x.stopRequested = true ∨ s.tx.map Tx.bridge = some b ∧ Armed s) ∧
      (s.serve = .startTx b → x.started = false ∧ x.stopRequested = false) := by
  obtain ⟨-, hwatched⟩ := watched_reachable h
  have hguarded := hwatched.guarded
  have hstage : s.view.stage b = some x.stage := by simp [view, hx]
  -- a bridge that is being started is recorded as not yet started
  have hflight : s.view.starting = some b → x.started = false ∧ x.stopRequested = false := by
    intro hb
    have hnew := (hguarded.inFlight b hb).2
    simp_all [Bridge.stage]
  constructor
  · intro hstarted
    refine (hguarded.started b x.stage hstage hkind hstarted).imp id fun htx => ⟨htx, ?_⟩
    have htx : s.view.tx = some b := htx
    have hidle : s.view.starting = none := by
      refine Option.eq_none_iff_forall_ne_some.mpr fun c hc => ?_
      have hcb : c = b := by simpa [(hguarded.inFlight c hc).1] using htx
      simp [(hflight (hcb ▸ hc)).1] at hstarted
    have harmed := hguarded.armed (by simp [htx]) hidle
    exact hwatched.timed.armed (Option.isSome_iff_ne_none.mp harmed.1)
      (Option.isSome_iff_ne_none.mp harmed.2)
  · intro hserve
    exact hflight (by simp [view, hserve, Serve.starting])

namespace Sample

/-- The mic is keyed for a slot, and the bridge comes up. -/
def keyed (slot : Slot) : List Label :=
  .serve { message := .micState true (some slot) "fm" } :: List.replicate 4 (.serve {})

/-- Slot 1 is keyed, a refresh finds it gone, and slot 2 is keyed. -/
def rerouted : List Label :=
  keyed 1 ++ [.refresh ⟨[2], []⟩] ++ List.replicate 4 (.task 2) ++ keyed 2

end Sample

/-- Of the two bridges of the run the first is stopped and the second is guarded. -/
theorem started_tx_guarded_rerouted : ∃ s x y, Reachable step (fun _ _ => True) {} s ∧
    s.bridges.get? 0 = some x ∧ s.bridges.get? 1 = some y ∧ x.started = true ∧ y.started = true ∧
    x.stopRequested = true ∧ s.tx.map Tx.bridge = some 1 ∧ Armed s := by
  obtain ⟨s, hreach, hx, hy⟩ := exists_reachable step {} Sample.rerouted
    (P := fun s => s.bridges.get? 0 =
        some { kind := .tx, started := true, stopRequested := true, stopped := true } ∧
      s.bridges.get? 1 = some { kind := .tx, started := true }) (by decide +kernel)
  have hguarded := (started_tx_guarded hreach hy rfl).1 rfl
  exact ⟨s, _, _, hreach, hx, hy, rfl, rfl, rfl, hguarded.resolve_left (by simp)⟩

end StationManager.Audio.Uplink
