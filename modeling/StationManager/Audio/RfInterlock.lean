import StationManager.Audio.TxGuard

/-!
# StationManager.Audio.RfInterlock

A diagnostic and the transmitter exclude each other.

A bridge of a diagnostic that has not stopped is the engine's current one, or it is being
started, or whoever holds the lock of the diagnostics stops it.  A measurement that is
cancelled never holds that lock: it would let go of it before the bridge has stopped.
-/

namespace StationManager.Audio.Uplink

open Uplink.Engine

/-! ## who has the bridge of a diagnostic -/

/-- The bridge that the dispatcher starts or stops for a diagnostic. -/
def Serve.tracks : Serve → Option BridgeId
  | .stopDiag b _ _ | .startDiag b _ _ | .failDiag b => some b
  | _ => none

def Serve.holdsDiag : Serve → Bool
  | .stopDiag .. => true
  | _ => false

/-- The part of `on_mic_state` behind `_teardown_diag`. -/
def Serve.clear : Serve → Bool
  | .micOnLock .. | .resolveTx .. | .startTx _ | .failTx _ => true
  | .stopTx _ (.startTx ..) | .sendOff (.startTx ..) => true
  | _ => false

/-- The part of `on_diag_command` behind its checks. -/
def Serve.injecting : Serve → Bool
  | .resolveDiag .. | .startDiag .. | .failDiag _ | .runC => true
  | _ => false

/-- The bridge that a background task stops for a diagnostic. -/
def Task.tracks : Task → Option BridgeId
  | .stopDiag b _ _ => some b
  | _ => none

/-- The bridge belongs to a diagnostic and has not stopped. -/
def Engine.Sounding (s : Engine) (b : BridgeId) : Prop :=
  ∃ x, s.bridges.get? b = some x ∧ x.kind = .diag ∧ x.stopped = false

structure Interlocked (s : Engine) : Prop where
  server : s.serve.holdsDiag = true → s.diagLock = some .server ∧ s.diag = none
  task : s.tasks.All fun i task =>
    task.tracks ≠ none → s.diagLock = some (.task i) ∧ i ∉ s.cancelled
  sounding : ∀ b, s.Sounding b → s.diag.map Diag.bridge = some b ∨ s.serve.tracks = some b ∨
    ∃ i task, s.tasks.get? i = some task ∧ task.tracks = some b
  clear : s.serve.clear = true → ∀ b, ¬ s.Sounding b
  quiet : s.serve.injecting = true → s.micActive = false ∧ s.tx = none ∧ s.diag = none

variable {s s' : Engine}

/-! ## what happens to a bridge -/

variable {e : Answer} {b c : BridgeId} {t : Engine} {task : Task} {k : TaskAfterDiag} {i : TaskId}

theorem get?_newBridge {kind : Kind} {x : Bridge}
    (h : (s.newBridge kind).bridges.get? b = some x) :
    s.bridges.get? b = some x ∨ b = s.nextBridge ∧ x = { kind } := by
  simp only [newBridge, Table.get?_insert] at h
  split at h
  · next hb =>
    subst hb
    cases hold : s.bridges.get? s.nextBridge with
    | none =>
      rw [hold] at h
      cases h
      exact .inr ⟨rfl, rfl⟩
    | some y =>
      rw [hold] at h
      exact .inl h
  · exact .inl h

theorem sounding_newBridge {kind : Kind} (h : (s.newBridge kind).Sounding b) :
    s.Sounding b ∨ kind = .diag ∧ b = s.nextBridge := by
  obtain ⟨x, hx, hdiag, hrunning⟩ := h
  obtain hold | ⟨hb, rfl⟩ := get?_newBridge hx
  · exact .inl ⟨x, hold, hdiag, hrunning⟩
  · exact .inr ⟨hdiag, hb⟩

/-- What the step makes of the bridges: none of the old ones goes, and a new one is the
transmitter of `on_mic_state` or the bridge of `on_diag_command`. -/
def Made (s s' : Engine) : Prop :=
  ∀ b x, s.bridges.get? b = none → s'.bridges.get? b = some x →
    x.kind = .tx ∧ s.serve.clear = true ∧ s'.serve = .startTx b ∨
    x.kind = .diag ∧ s.serve.injecting = true ∧ ∃ slot ref, s'.serve = .startDiag b slot ref

/-- No bridge is made, and none that has stopped runs again. -/
def Tamed (s s' : Engine) : Prop :=
  ∀ b x', s'.bridges.get? b = some x' → ∃ x, s.bridges.get? b = some x ∧ x'.kind = x.kind ∧
    (x.stopped = true → x'.stopped = true)

theorem Tamed.of_bridges (h : s'.bridges = s.bridges) : Tamed s s' :=
  fun _ x hx => ⟨x, by rw [← h, hx], rfl, id⟩

theorem Tamed.none (h : Tamed s s') (hb : s.bridges.get? b = none) :
    s'.bridges.get? b = none := by
  refine Option.eq_none_iff_forall_ne_some.mpr fun x' hx' => ?_
  obtain ⟨x, hx, -⟩ := h b x' hx'
  simp [hb] at hx

theorem Tamed.made (h : Tamed s s') : Made s s' := by
  intro b x hnone hx
  simp [h.none hnone] at hx

theorem Tamed.sounding (h : Tamed s s') (hb : s'.Sounding b) : s.Sounding b := by
  obtain ⟨x', hx', hdiag, hrunning⟩ := hb
  obtain ⟨x, hx, hkind, hstopped⟩ := h b x' hx'
  refine ⟨x, hx, hkind ▸ hdiag, ?_⟩
  cases hstop : x.stopped with
  | false => rfl
  | true => simp [hstopped hstop] at hrunning

theorem tamed_modify (s : Engine) (c : BridgeId) {f : Bridge → Bridge}
    (hkind : ∀ x, (f x).kind = x.kind) (hstopped : ∀ x, x.stopped = true → (f x).stopped = true) :
    Tamed s { s with bridges := s.bridges.modify c f } := by
  intro b x' hx'
  simp only [Table.get?_modify] at hx'
  split at hx'
  · obtain ⟨x, hx, rfl⟩ := Option.map_eq_some_iff.mp hx'
    exact ⟨x, hx, hkind x, hstopped x⟩
  · exact ⟨x', hx', rfl, id⟩

theorem tamed_requestStop (s : Engine) (c : Option BridgeId) : Tamed s (s.requestStop c) := by
  cases c with
  | none => exact .of_bridges rfl
  | some c => exact tamed_modify s c (by simp) (by simp)

theorem tamed_markStarted (s : Engine) (c : BridgeId) : Tamed s (s.markStarted c) :=
  tamed_modify s c (by simp) (by simp)

theorem tamed_markStopped (s : Engine) (c : BridgeId) : Tamed s (s.markStopped c) :=
  tamed_modify s c (by simp) (by simp)

theorem ne_of_markStopped (h : (s.markStopped c).Sounding b) : b ≠ c := by
  rintro rfl
  obtain ⟨x, hx, -, hrunning⟩ := h
  obtain ⟨y, -, rfl⟩ := Option.map_eq_some_iff.mp (by simpa [markStopped] using hx)
  simp at hrunning

/-- A step keeps the interlock, and makes a bridge only where it may. -/
structure Kept (s s' : Engine) : Prop where
  interlocked : Interlocked s'
  made : Made s s'

/-- Nothing that matters has happened before the step. -/
theorem Kept.after (h : Kept t s') (htamed : Tamed s t) (hserve : t.serve = s.serve) :
    Kept s s' where
  interlocked := h.interlocked
  made b x hnone hx := by
    rw [← hserve]
    exact h.made b x (htamed.none hnone) hx

/-! ## the dispatcher -/

/-- The dispatcher goes on without the lock of the diagnostics. -/
theorem Interlocked.serve (h : Interlocked s)
    (hsame : (s'.tasks, s'.diagLock, s'.cancelled, s'.diag) =
      (s.tasks, s.diagLock, s.cancelled, s.diag))
    (htamed : Tamed s s') (htracks : ∀ b, s'.Sounding b → s.serve.tracks ≠ some b)
    (hserve : s'.serve.holdsDiag = false) (hclear : s'.serve.clear = true → s.serve.clear = true)
    (hquiet : s'.serve.injecting = true → s'.micActive = false ∧ s'.tx = none ∧ s'.diag = none) :
    Kept s s' := by
  simp only [Prod.mk.injEq] at hsame
  obtain ⟨htasks, hlock, hcancelled, hdiag⟩ := hsame
  refine ⟨?_, Tamed.made htamed⟩
  exact {
    server := by simp [hserve]
    task := by
      rw [htasks, hlock, hcancelled]
      exact h.task
    sounding := fun b hb => by
      rw [hdiag, htasks]
      exact (h.sounding b (htamed.sounding hb)).imp id fun hrest =>
        .inr (hrest.resolve_left (htracks b hb))
    clear := fun hc b hb => h.clear (hclear hc) b (htamed.sounding hb)
    quiet := hquiet }

/-- Nothing happens that concerns diagnostics: those who stop a bridge go on, and keep the
lock. -/
theorem Interlocked.congr (h : Interlocked s)
    (hsame : (s'.serve, s'.diag, s'.micActive) = (s.serve, s.diag, s.micActive))
    (htasks : ∀ i task, task.tracks ≠ none →
      (s'.tasks.get? i = some task ↔ s.tasks.get? i = some task))
    (hlock : ∀ owner, s.diagLock = some owner → s'.diagLock = some owner ∨
      ∃ i, owner = .task i ∧ ∀ task, s.tasks.get? i = some task → task.tracks = none)
    (hcancelled : ∀ i ∈ s'.cancelled, i ∈ s.cancelled) (htamed : Tamed s s')
    (htx : s'.tx = s.tx ∨ s'.tx = none) : Kept s s' := by
  simp only [Prod.mk.injEq] at hsame
  obtain ⟨hserve, hdiag, hmic⟩ := hsame
  refine ⟨?_, Tamed.made htamed⟩
  exact {
    server := fun hholds => by
      obtain ⟨hheld, hfree⟩ := h.server (hserve ▸ hholds)
      exact ⟨(hlock _ hheld).resolve_right (by simp), hdiag.trans hfree⟩
    task := fun i task hi htracks => by
      have hold := (htasks i task htracks).mp hi
      obtain ⟨hheld, hlive⟩ := h.task i task hold htracks
      refine ⟨(hlock _ hheld).resolve_right ?_, fun hmem => hlive (hcancelled i hmem)⟩
      rintro ⟨j, hij, hnone⟩
      cases hij
      exact htracks (hnone task hold)
    sounding := fun b hb => by
      rw [hdiag, hserve]
      refine (h.sounding b (htamed.sounding hb)).imp id fun hrest => hrest.imp id ?_
      rintro ⟨i, task, hi, htracks⟩
      exact ⟨i, task, (htasks i task (by simp [htracks])).mpr hi, htracks⟩
    clear := fun hc b hb => h.clear (hserve ▸ hc) b (htamed.sounding hb)
    quiet := fun hq => by
      obtain ⟨hinactive, hnone, hfree⟩ := h.quiet (hserve ▸ hq)
      exact ⟨hmic.trans hinactive, htx.elim (fun heq => heq.trans hnone) id, hdiag.trans hfree⟩ }

/-- The tasks stay as they are. -/
theorem Interlocked.keep (h : Interlocked s)
    (hsame : (s'.serve, s'.tasks, s'.diagLock, s'.cancelled, s'.diag, s'.micActive) =
      (s.serve, s.tasks, s.diagLock, s.cancelled, s.diag, s.micActive))
    (htamed : Tamed s s') (htx : s'.tx = s.tx ∨ s'.tx = none) : Kept s s' := by
  simp only [Prod.mk.injEq] at hsame
  obtain ⟨hserve, htasks, hlock, hcancelled, hdiag, hmic⟩ := hsame
  exact h.congr (by simp [hserve, hdiag, hmic]) (by simp [htasks]) (by simp +contextual [hlock])
    (by simp [hcancelled]) htamed htx

theorem tamed_teardownTx (s : Engine) : Tamed s s.teardownTx := tamed_requestStop s _

theorem Interlocked.teardownTx (h : Interlocked s) : Interlocked s.teardownTx := by
  have hkept : Kept s s.teardownTx := h.keep rfl (tamed_teardownTx s) (.inr rfl)
  exact hkept.interlocked

theorem kept_makeTx (h : Interlocked s) (hclear : s.serve.clear = true) (slot : Slot)
    (module : String) : Kept s (s.makeTx slot module) := by
  have hsilent : ∀ b, ¬ (s.makeTx slot module).Sounding b := by
    intro b hb
    have hold : s.Sounding b := (sounding_newBridge hb).resolve_right (by simp)
    exact h.clear hclear b hold
  refine ⟨⟨by simp [makeTx, Serve.holdsDiag], h.task, fun b hb => absurd hb (hsilent b),
    fun _ => hsilent, by simp [makeTx, Serve.injecting]⟩, fun b x hnone hx => ?_⟩
  obtain hold | ⟨rfl, rfl⟩ := get?_newBridge hx
  · simp [hnone] at hold
  · exact .inl ⟨rfl, hclear, rfl⟩

theorem kept_afterTx (h : Interlocked s) (htracks : s.serve.tracks = none) (k : AfterTx)
    (hclear : ∀ slot module, k = .startTx slot module → s.serve.clear = true) :
    Kept s (s.afterTx k) := by
  cases k with
  | startTx slot module => exact kept_makeTx h (hclear slot module rfl) slot module
  | micOff | close =>
    exact h.serve rfl (.of_bridges rfl) (by simp [htracks]) rfl (by simp [afterTx, Serve.clear])
      (by simp [afterTx, Serve.injecting])

theorem kept_serveTeardownTx (h : Interlocked s) (htracks : s.serve.tracks = none) (k : AfterTx)
    (hclear : ∀ slot module, k = .startTx slot module → s.serve.clear = true) :
    Kept s (s.serveTeardownTx k) := by
  unfold serveTeardownTx
  split
  · exact (kept_afterTx h.teardownTx htracks k hclear).after (tamed_teardownTx s) rfl
  · next tx _ =>
    have htracks' : s.teardownTx.serve.tracks = none := htracks
    refine Kept.after (h.teardownTx.serve rfl (.of_bridges rfl) (by simp [htracks']) rfl ?_
      (by simp [Serve.injecting])) (tamed_teardownTx s) rfl
    cases k with
    | startTx slot module => exact fun _ => hclear slot module rfl
    | micOff | close => simp [Serve.clear]

theorem kept_dispatch (h : Interlocked s) (hidle : s.serve = .idle) (hd : Dispatched s s') :
    Kept s s' := by
  have hgo : ∀ {s' : Engine}, (s'.tasks, s'.diagLock, s'.cancelled, s'.diag) =
      (s.tasks, s.diagLock, s.cancelled, s.diag) → s'.bridges = s.bridges →
      s'.serve.holdsDiag = false → s'.serve.clear = false →
      (s'.serve.injecting = true → s'.micActive = false ∧ s'.tx = none ∧ s'.diag = none) →
      Kept s s' :=
    fun hsame hbridges hholds hclear hquiet => h.serve hsame (.of_bridges hbridges)
      (by simp [hidle, Serve.tracks]) hholds (by simp [hclear]) hquiet
  cases hd with
  | ignored | petted => exact h.keep rfl (.of_bridges rfl) (.inl rfl)
  | resolves _ _ hmic htx hdiag | runs hmic htx hdiag =>
    exact hgo rfl rfl rfl rfl fun _ => ⟨hmic, htx, hdiag⟩
  | _ => exact hgo rfl rfl rfl rfl (by simp [Serve.injecting])

/-- Nobody stops the bridge of a diagnostic while the lock is free or the dispatcher's. -/
theorem Interlocked.no_stop (h : Interlocked s) (hlock : ∀ i, s.diagLock ≠ some (.task i))
    (hi : s.tasks.get? i = some task) : task.tracks = none := by
  by_contra htracks
  exact hlock i (h.task i task hi htracks).1

/-- The dispatcher has torn the diagnostic down. -/
theorem kept_afterDiag {owner : Owner} {task : Option TaskId} (h : Interlocked s)
    (hlock : ∀ i, s.diagLock ≠ some (.task i)) (htasks : t.tasks = s.tasks) (htamed : Tamed s t)
    (hsilent : ∀ b, ¬ t.Sounding b) (k : AfterDiag) :
    Kept s ((t.leaveDiag owner task).afterDiag k) := by
  have hall : ∀ {s' : Engine}, s'.serve.holdsDiag = false → s'.serve.injecting = false →
      s'.tasks = s.tasks → Tamed s s' → (∀ b, ¬ s'.Sounding b) → Kept s s' := by
    intro s' hholds hinject htasks' htamed' hsilent'
    refine ⟨?_, htamed'.made⟩
    exact {
      server := by simp [hholds]
      task := by
        rw [htasks']
        exact fun i task hi htracks => absurd (h.no_stop hlock hi) htracks
      sounding := fun b hb => absurd hb (hsilent' b)
      clear := fun _ => hsilent'
      quiet := by simp [hinject] }
  cases k <;> exact hall rfl rfl htasks htamed hsilent

/-- `_teardown_diag` of the dispatcher, from the lock on. -/
theorem kept_diagLock {k : AfterDiag} (h : Interlocked s) (hserve : s.serve = .diagLock k)
    (hs : s.resumeServe e = some s') : Kept s s' := by
  simp only [resumeServe, hserve] at hs
  split at hs
  · next hfree =>
    have hlock : ∀ i, s.diagLock ≠ some (.task i) := by simp [hfree]
    have htamed : Tamed s (s.clearDiag .server) := tamed_requestStop s _
    have hsounding : ∀ b, (s.clearDiag .server).Sounding b → s.diag.map Diag.bridge = some b := by
      intro b hb
      refine (h.sounding b (htamed.sounding hb)).resolve_right fun hrest => ?_
      obtain hserver | ⟨i, task, hi, htask⟩ := hrest
      · simp [hserve, Serve.tracks] at hserver
      · simp [h.no_stop hlock hi] at htask
    split at hs <;> cases hs
    · next hdiag =>
      refine kept_afterDiag (t := s.clearDiag .server) h hlock rfl htamed (fun b hb => ?_) k
      simpa [hdiag] using hsounding b hb
    · next diag hdiag =>
      refine ⟨?_, Tamed.made htamed⟩
      exact {
        server := fun _ => ⟨rfl, rfl⟩
        task := fun i task hi htracks => absurd (h.no_stop hlock hi) htracks
        sounding := fun b hb => by
          have hcurrent := hsounding b hb
          exact .inr (.inl (by simpa [hdiag, Serve.tracks] using hcurrent))
        clear := by simp [Serve.clear]
        quiet := by simp [Serve.injecting] }
  · cases hs

theorem kept_stopDiag {task : Option TaskId} {k : AfterDiag} (h : Interlocked s)
    (hserve : s.serve = .stopDiag b task k) (hs : s.resumeServe e = some s') : Kept s s' := by
  obtain ⟨hlock, hdiag⟩ := h.server (by simp [hserve, Serve.holdsDiag])
  have hfree : ∀ i, s.diagLock ≠ some (.task i) := by simp [hlock]
  have htamed := tamed_markStopped s b
  simp only [resumeServe, hserve, Option.some.injEq] at hs
  subst hs
  refine kept_afterDiag (t := s.markStopped b) h hfree rfl htamed (fun c hc => ?_) k
  obtain hcurrent | hserver | ⟨i, task, hi, htask⟩ := h.sounding c (htamed.sounding hc)
  · simp [hdiag] at hcurrent
  · simp [hserve, Serve.tracks, (ne_of_markStopped hc).symm] at hserver
  · simp [h.no_stop hfree hi] at htask

theorem kept_startDiag {slot : Slot} {ref : Nat} (h : Interlocked s)
    (hserve : s.serve = .startDiag b slot ref) (hs : s.resumeServe e = some s') : Kept s s' := by
  have hquiet := h.quiet (by simp [hserve, Serve.injecting])
  -- the bridge that is being started is the only one besides those that tasks stop
  have hown : ∀ c, s.Sounding c → c = b ∨
      ∃ i task, s.tasks.get? i = some task ∧ task.tracks = some c := by
    intro c hc
    obtain hcurrent | hserver | htask := h.sounding c hc
    · simp [hquiet.2.2] at hcurrent
    · exact .inl (by simpa [hserve, Serve.tracks, eq_comm] using hserver)
    · exact .inr htask
  simp only [resumeServe, hserve] at hs
  split at hs <;> cases hs
  · have htamed := tamed_markStarted s b
    refine ⟨⟨by simp [Serve.holdsDiag], h.task.insert (by simp [Task.tracks]), fun c hc => ?_,
      by simp [Serve.clear], by simp [Serve.injecting]⟩, Tamed.made htamed⟩
    obtain hcb | ⟨i, task, hi, htask⟩ := hown c (htamed.sounding hc)
    · exact .inl (by simp [hcb])
    · exact .inr (.inr ⟨i, task, Table.get?_insert_of_get? _ hi, htask⟩)
  · have htamed := tamed_requestStop s (some b)
    refine ⟨⟨by simp [Serve.holdsDiag], h.task, fun c hc => ?_, by simp [Serve.clear],
      fun _ => hquiet⟩, Tamed.made htamed⟩
    obtain hcb | htask := hown c (htamed.sounding hc)
    · exact .inr (.inl (by simp [hcb, Serve.tracks]))
    · exact .inr (.inr htask)

theorem kept_resolveDiag {slot : Slot} {ref : Nat} (h : Interlocked s)
    (hserve : s.serve = .resolveDiag slot ref) (hs : s.resumeServe e = some s') : Kept s s' := by
  have hinject : s.serve.injecting = true := by simp [hserve, Serve.injecting]
  have hquiet := h.quiet hinject
  simp only [resumeServe, hserve] at hs
  split at hs <;> cases hs
  · refine ⟨⟨by simp [Serve.holdsDiag], h.task, fun c hc => ?_, by simp [Serve.clear],
      fun _ => hquiet⟩, fun b x hnone hx => ?_⟩
    · obtain hold | ⟨-, rfl⟩ := sounding_newBridge hc
      · refine (h.sounding c hold).imp id fun hrest => .inr (hrest.resolve_left ?_)
        simp [hserve, Serve.tracks]
      · exact .inr (.inl rfl)
    · obtain hold | ⟨rfl, rfl⟩ := get?_newBridge hx
      · simp [hnone] at hold
      · exact .inr ⟨rfl, hinject, slot, ref, rfl⟩
  · exact h.serve rfl (.of_bridges rfl) (by simp [hserve, Serve.tracks]) rfl
      (by simp [Serve.clear]) (by simp [Serve.injecting])

theorem kept_resumeServe (h : Interlocked s) (hs : s.resumeServe e = some s') : Kept s s' := by
  cases hserve : s.serve with
  | idle =>
    simp only [resumeServe, hserve, Option.some.injEq] at hs
    exact kept_dispatch h hserve (hs ▸ dispatched s e.message)
  | micOffLock =>
    simp only [resumeServe, hserve] at hs
    split at hs <;> cases hs
    have h' : Kept s { s with txLock := some .server } :=
      h.keep rfl (.of_bridges rfl) (.inl rfl)
    exact (kept_serveTeardownTx h'.interlocked (by simp [hserve, Serve.tracks]) .micOff
      (by simp)).after (.of_bridges rfl) rfl
  | micOnLock slot module =>
    simp only [resumeServe, hserve] at hs
    split at hs <;> cases hs
    unfold startTx
    split <;> exact h.serve rfl (.of_bridges rfl) (by simp [hserve, Serve.tracks]) rfl
      (by simp [hserve, Serve.clear]) (by simp [Serve.injecting])
  | resolveTx slot module =>
    have hclear : s.serve.clear = true := by simp [hserve, Serve.clear]
    have htracks : s.serve.tracks = none := by simp [hserve, Serve.tracks]
    simp only [resumeServe, hserve] at hs
    split at hs <;> cases hs
    · split
      · exact kept_makeTx h hclear slot module
      · exact kept_serveTeardownTx h htracks _ fun _ _ _ => hclear
    · exact h.serve rfl (.of_bridges rfl) (by simp [htracks]) rfl (fun _ => hclear)
        (by simp [Serve.injecting])
  | stopTx b k =>
    simp only [resumeServe, hserve, Option.some.injEq] at hs
    subst hs
    refine h.serve rfl (tamed_markStopped s b) (by simp [hserve, Serve.tracks]) rfl ?_
      (by simp [Serve.injecting])
    cases k <;> simp [hserve, Serve.clear]
  | sendOff k =>
    simp only [resumeServe, hserve, Option.some.injEq] at hs
    subst hs
    refine kept_afterTx h (by simp [hserve, Serve.tracks]) k fun slot module hk => ?_
    simp [hserve, hk, Serve.clear]
  | startTx b =>
    have hclear : s.serve.clear = true := by simp [hserve, Serve.clear]
    simp only [resumeServe, hserve] at hs
    split at hs <;> cases hs
    · exact h.serve rfl (tamed_markStarted s b) (by simp [hserve, Serve.tracks]) rfl
        (fun _ => hclear) (by simp [Serve.injecting])
    · exact h.serve rfl (tamed_requestStop s (some b)) (by simp [hserve, Serve.tracks]) rfl
        (fun _ => hclear) (by simp [Serve.injecting])
  | failTx b | failDiag b =>
    simp only [resumeServe, hserve, Option.some.injEq] at hs
    subst hs
    refine h.serve rfl (tamed_markStopped s b) (fun c hc => ?_) rfl (by simp [Serve.clear])
      (by simp [Serve.injecting])
    simp [hserve, Serve.tracks, (ne_of_markStopped hc).symm]
  | diagLock k => exact kept_diagLock h hserve hs
  | stopDiag b task k => exact kept_stopDiag h hserve hs
  | resolveDiag slot ref => exact kept_resolveDiag h hserve hs
  | startDiag b slot ref => exact kept_startDiag h hserve hs
  | runC | reply =>
    simp only [resumeServe, hserve, Option.some.injEq] at hs
    exact hs ▸ h.serve rfl (.of_bridges rfl) (by simp [hserve, Serve.tracks]) rfl
      (by simp [Serve.clear]) (by simp [Serve.injecting])
  | closeRx =>
    simp only [resumeServe, hserve, Option.some.injEq] at hs
    exact hs ▸ kept_serveTeardownTx h (by simp [hserve, Serve.tracks]) _ (by simp)
  | closed => simp [resumeServe, hserve] at hs

/-! ## the other tasks -/

/-- A task goes on that has nothing to do with the bridge of a diagnostic. -/
theorem Interlocked.suspend {next : Option Task} (h : Interlocked s)
    (hsame : (t.serve, t.tasks, t.diag, t.micActive) = (s.serve, s.tasks, s.diag, s.micActive))
    (hi : ∀ task, s.tasks.get? i = some task → task.tracks = none)
    (hnext : ∀ task, next = some task → task.tracks = none)
    (hlock : t.diagLock = s.diagLock ∨ t.diagLock = release s.diagLock i)
    (hcancelled : ∀ j ∈ t.cancelled, j ∈ s.cancelled) (htx : t.tx = s.tx ∨ t.tx = none)
    (htamed : Tamed s t) : Kept s (t.suspend i next) := by
  simp only [Prod.mk.injEq] at hsame
  obtain ⟨hserve, htasks, hdiag, hmic⟩ := hsame
  refine h.congr (by simp [Engine.suspend, hserve, hdiag, hmic]) (fun j task htracks => ?_)
    (fun owner hheld => ?_) hcancelled htamed htx
  · rw [get?_suspend, htasks]
    by_cases hji : j = i
    · subst hji
      have hbefore : s.tasks.get? j ≠ some task := fun hj => htracks (hi task hj)
      have hafter : next ≠ some task := fun htask => htracks (hnext task htask)
      cases hget : s.tasks.get? j <;> simp_all
    · rw [if_neg hji]
  · by_cases hown : owner = .task i
    · exact .inr ⟨i, hown, hi⟩
    · refine .inl (hlock.elim (fun heq => heq.trans hheld) fun heq => ?_)
      have hkept : release s.diagLock i = some owner := by simp [release, hheld, hown]
      exact heq.trans hkept

/-- A task goes on that has the lock of the diagnostics to itself. -/
theorem Interlocked.alone {next : Option Task} (h : Interlocked s)
    (hsame : (t.serve, t.tasks, t.micActive, t.tx) = (s.serve, s.tasks, s.micActive, s.tx))
    (hlock : s.diagLock = none ∨ s.diagLock = some (.task i))
    (hdiag : t.diag = s.diag ∨ t.diag = none)
    (hown : ∀ task, next = some task → task.tracks ≠ none →
      t.diagLock = some (.task i) ∧ i ∉ t.cancelled) (htamed : Tamed s t)
    (hsounding : ∀ b, t.Sounding b → t.diag.map Diag.bridge = some b ∨
      s.serve.tracks = some b ∨
      ∃ task, next = some task ∧ task.tracks = some b ∧ s.tasks.get? i ≠ none) :
    Kept s (t.suspend i next) := by
  simp only [Prod.mk.injEq] at hsame
  obtain ⟨hserve, htasks, hmic, htx⟩ := hsame
  refine ⟨?_, Tamed.made htamed⟩
  exact {
    server := fun hholds => by
      have hheld := (h.server (hserve ▸ hholds)).1
      simp [hheld] at hlock
    task := fun j task hj htracks => by
      rw [get?_suspend, htasks] at hj
      by_cases hji : j = i
      · rw [if_pos hji, Option.bind_eq_some_iff] at hj
        obtain ⟨_, -, htask⟩ := hj
        exact hji ▸ hown task htask htracks
      · have hheld := (h.task j task (by simpa [hji] using hj) htracks).1
        simp [hheld, hji] at hlock
    sounding := fun b hb => by
      obtain hcurrent | hserver | ⟨task, htask, htracks, hi⟩ := hsounding b hb
      · exact .inl hcurrent
      · exact .inr (.inl ((congrArg _ hserve).trans hserver))
      · obtain ⟨old, hold⟩ := Option.ne_none_iff_exists'.mp hi
        exact .inr (.inr ⟨i, task, by simp [get?_suspend, htasks, hold, htask], htracks⟩)
    clear := fun hc b hb => h.clear (hserve ▸ hc) b (htamed.sounding hb)
    quiet := fun hq => by
      obtain ⟨hinactive, hnone, hfree⟩ := h.quiet (hserve ▸ hq)
      exact ⟨hmic.trans hinactive, htx.trans hnone, hdiag.elim (fun heq => heq.trans hfree) id⟩ }

theorem tracks_taskAfterDiag {torn : Option BridgeId} (h : taskAfterDiag torn k = some task) :
    task.tracks = none := by
  cases k with
  | refresh diag =>
    simp only [taskAfterDiag] at h
    split at h <;> cases h
    rfl
  | measurement c =>
    cases c <;> cases h
    rfl

/-- `_teardown_diag` of a background task, from the lock on. -/
theorem kept_taskDiagLock (h : Interlocked s) (hi : s.tasks.get? i = some (.diagLock k))
    (hlive : i ∉ s.cancelled) (hs : s.resumeTask i (.diagLock k) = some s') : Kept s s' := by
  simp only [resumeTask] at hs
  split at hs
  · next hfree =>
    have htamed : Tamed s (s.clearDiag (.task i)) := tamed_requestStop s _
    have hsounding : ∀ b, (s.clearDiag (.task i)).Sounding b →
        s.diag.map Diag.bridge = some b ∨ s.serve.tracks = some b := by
      intro b hb
      refine (h.sounding b (htamed.sounding hb)).imp id fun hrest => hrest.resolve_right ?_
      rintro ⟨j, task, hj, htracks⟩
      simp [h.no_stop (by simp [hfree]) hj] at htracks
    split at hs <;> cases hs
    · next hdiag =>
      refine h.alone rfl (.inl hfree) (.inr rfl)
        (fun task htask htracks => absurd (tracks_taskAfterDiag htask) htracks) htamed
        fun b hb => ?_
      obtain hcurrent | hserver := hsounding b hb
      · simp [hdiag] at hcurrent
      · exact .inr (.inl hserver)
    · next diag hdiag =>
      refine h.alone rfl (.inl hfree) (.inr rfl) (fun _ _ _ => ⟨rfl, hlive⟩) htamed
        fun b hb => ?_
      obtain hcurrent | hserver := hsounding b hb
      · refine .inr (.inr ⟨_, rfl, ?_, by simp [hi]⟩)
        simpa [hdiag, Task.tracks] using hcurrent
      · exact .inr (.inl hserver)
  · cases hs

theorem kept_taskStopDiag {torn : Option TaskId} (h : Interlocked s)
    (hi : s.tasks.get? i = some (.stopDiag b torn k))
    (hs : s.resumeTask i (.stopDiag b torn k) = some s') : Kept s s' := by
  have hheld := (h.task i _ hi (by simp [Task.tracks])).1
  have htamed := tamed_markStopped s b
  cases hs
  refine h.alone rfl (.inr hheld) (.inl rfl)
    (fun task htask htracks => absurd (tracks_taskAfterDiag htask) htracks) htamed fun c hc => ?_
  refine (h.sounding c (htamed.sounding hc)).imp id fun hrest => .inl (hrest.resolve_right ?_)
  rintro ⟨j, task, hj, htracks⟩
  -- whoever stops a bridge is this task, and it stops the other one
  have hji : i = j := by simpa [hheld] using (h.task j task hj (by simp [htracks])).1
  subst hji
  rw [hi] at hj
  cases hj
  have hne : c ≠ b := ne_of_markStopped (s := s) hc
  simp [Task.tracks, hne.symm] at htracks

theorem kept_resumeTask (h : Interlocked s) (hi : s.tasks.get? i = some task)
    (hlive : i ∉ s.cancelled) (hs : s.resumeTask i task = some s') : Kept s s' := by
  have hplain : task.tracks = none → ∀ {t : Engine} {next : Option Task},
      (t.serve, t.tasks, t.diag, t.micActive) = (s.serve, s.tasks, s.diag, s.micActive) →
      (∀ task, next = some task → task.tracks = none) → t.diagLock = s.diagLock →
      t.cancelled = s.cancelled → (t.tx = s.tx ∨ t.tx = none) → Tamed s t →
      Kept s (t.suspend i next) := by
    intro htracks t next hsame hnext hlock hcancelled htx htamed
    exact h.suspend hsame (fun _ hget => by simp_all) hnext (.inl hlock) (by simp [hcancelled])
      htx htamed
  have hrefresh : task.tracks = none → ∀ {t : Engine} (r : Refresh),
      (t.serve, t.tasks, t.diag, t.micActive) = (s.serve, s.tasks, s.diag, s.micActive) →
      t.diagLock = s.diagLock → t.cancelled = s.cancelled → t.tx = s.tx → t.bridges = s.bridges →
      Kept s (t.refreshDiag i r) := by
    intro htracks t r hsame hlock hcancelled htx hbridges
    refine hplain htracks hsame (fun task htask => ?_) hlock hcancelled (.inl htx)
      (.of_bridges hbridges)
    obtain ⟨diag, -, rfl⟩ := Option.map_eq_some_iff.mp htask
    rfl
  cases task with
  | refreshRx r | measure b | emit =>
    cases hs
    exact hplain rfl rfl (by simp [Task.tracks]) rfl rfl (.inl rfl) (.of_bridges rfl)
  | txLock r =>
    simp only [resumeTask] at hs
    split at hs <;> cases hs
    unfold refreshTx
    split
    · exact hrefresh rfl r rfl rfl rfl rfl rfl
    · split
      · exact hplain rfl rfl (by simp [Task.tracks]) rfl rfl (.inr rfl) (tamed_teardownTx s)
      · exact hrefresh rfl r rfl rfl rfl rfl rfl
  | stopTx b r =>
    cases hs
    exact hplain rfl rfl (by simp [Task.tracks]) rfl rfl (.inl rfl) (tamed_markStopped s b)
  | sendOff r =>
    cases hs
    cases r with
    | none =>
      have hend : Kept s (s.suspend i none) :=
        hplain rfl rfl (by simp) rfl rfl (.inl rfl) (.of_bridges rfl)
      exact hend
    | some r => exact hrefresh rfl r rfl rfl rfl rfl rfl
  | diagLock k => exact kept_taskDiagLock h hi hlive hs
  | stopDiag b t k => exact kept_taskStopDiag h hi hs

theorem kept_throwTask (h : Interlocked s) (hcancelled : i ∈ s.cancelled) :
    Kept s (s.throwTask i task) := by
  have htracks : ∀ old, s.tasks.get? i = some old → old.tracks = none := by
    intro old hold
    by_contra hne
    exact (h.task i old hold hne).2 hcancelled
  have hend : Kept s (({ s with
      cancelled := s.cancelled.filter (· ≠ i)
      txLock := release s.txLock i
      diagLock := release s.diagLock i }).suspend i none) :=
    h.suspend rfl htracks (by simp) (.inr rfl) (by simp +contextual) (.inl rfl) (.of_bridges rfl)
  have hmeasure : Kept s (({ s with cancelled := s.cancelled.filter (· ≠ i) }).suspend i
      (some (.diagLock (.measurement true)))) :=
    h.suspend rfl htracks (by simp [Task.tracks]) (.inl rfl) (by simp +contextual) (.inl rfl)
      (.of_bridges rfl)
  cases task with
  | measure b => exact hmeasure
  | _ => exact hend

/-- A new task beside the others. -/
theorem Interlocked.spawn (h : Interlocked s)
    (hsame : (s'.serve, s'.diagLock, s'.cancelled, s'.diag, s'.micActive) =
      (s.serve, s.diagLock, s.cancelled, s.diag, s.micActive))
    (htasks : s'.tasks = s.tasks.insert i task) (htask : task.tracks = none)
    (htamed : Tamed s s') (htx : s'.tx = s.tx ∨ s'.tx = none) : Kept s s' := by
  simp only [Prod.mk.injEq] at hsame
  obtain ⟨hserve, hlock, hcancelled, hdiag, hmic⟩ := hsame
  refine h.congr (by simp [hserve, hdiag, hmic]) (fun j old htracks => ?_)
    (by simp +contextual [hlock]) (by simp [hcancelled]) htamed htx
  have hne : task ≠ old := by
    rintro rfl
    exact htracks htask
  rw [htasks, Table.get?_insert]
  split
  · next hj => cases hget : s.tasks.get? i <;> simp [hj, hget, hne]
  · rfl

/-- A timer has fired, in a state that differs in the timers. -/
theorem kept_timerTeardown (h : Kept s t) (htamed : Tamed s t) (hserve : t.serve = s.serve) :
    Kept s (t.timerTeardown i) := by
  refine Kept.after ?_ htamed hserve
  cases htx : t.tx with
  | none =>
    refine h.interlocked.keep ?_ (tamed_teardownTx t) (.inr rfl)
    simp [timerTeardown, htx, teardownTx, requestStop, disarmTot, disarmDeadMan]
  | some tx =>
    have htasks : (t.timerTeardown i).tasks = t.tasks.insert i (.stopTx tx.bridge none) := by
      simp [timerTeardown, htx]
    exact h.interlocked.spawn rfl htasks rfl (tamed_teardownTx t) (.inr rfl)

theorem kept_step {l : Label} (h : Interlocked s) (hs : step s l = some s') : Kept s s' := by
  have hkeep : ∀ {s' : Engine}, (s'.serve, s'.tasks, s'.diagLock, s'.cancelled, s'.diag,
      s'.micActive) = (s.serve, s.tasks, s.diagLock, s.cancelled, s.diag, s.micActive) →
      s'.bridges = s.bridges → s'.tx = s.tx → Kept s s' :=
    fun hsame hbridges htx => h.keep hsame (.of_bridges hbridges) (.inl htx)
  cases l with
  | serve e => exact kept_resumeServe h hs
  | task i =>
    obtain ⟨task, hi, ⟨hcancelled, rfl⟩ | ⟨hlive, hs⟩⟩ := task_of_step hs
    · exact kept_throwTask h hcancelled
    · exact kept_resumeTask h hi hlive hs
  | fire i =>
    obtain ⟨timer, -, rfl⟩ := Option.map_eq_some_iff.mp hs
    cases timer with
    | deadMan =>
      simp only [fire]
      split
      · exact kept_timerTeardown (hkeep rfl rfl rfl) (.of_bridges rfl) rfl
      · exact hkeep rfl rfl rfl
    | tot => exact kept_timerTeardown (hkeep rfl rfl rfl) (.of_bridges rfl) rfl
  | refresh r =>
    simp only [step] at hs
    split at hs <;> cases hs
    exact h.spawn rfl rfl rfl (.of_bridges rfl) (.inl rfl)

/-! ## the interlock -/

theorem interlocked_init : Interlocked {} where
  server := by simp [Serve.holdsDiag]
  task := Table.all_empty
  sounding := by simp [Sounding, Table.get?, Table.empty]
  clear := by simp [Serve.clear]
  quiet := by simp [Serve.injecting]

theorem interlocked_reachable (h : Reachable step (fun _ _ => True) {} s) : Interlocked s :=
  h.invariant interlocked_init fun _ _ _ hs _ hstep => (kept_step hs hstep).interlocked

/-- **A diagnostic bridge is made, and its start awaited, only while the mic is inactive and
no transmit bridge is current; a transmit bridge is made, and its start awaited, only while
every bridge of a diagnostic has stopped.** -/
theorem rf_interlock (h : Reachable step (fun _ _ => True) {} s) :
    (∀ l s' b x, step s l = some s' → s.bridges.get? b = none → s'.bridges.get? b = some x →
      (x.kind = .diag → s.micActive = false ∧ s.tx = none) ∧
      (x.kind = .tx → ∀ c y, s.bridges.get? c = some y → y.kind = .diag → y.stopped = true)) ∧
    (∀ b slot ref, s.serve = .startDiag b slot ref → s.micActive = false ∧ s.tx = none) ∧
    ∀ b, s.serve = .startTx b →
      ∀ c y, s.bridges.get? c = some y → y.kind = .diag → y.stopped = true := by
  have hinter := interlocked_reachable h
  have hquiet : s.serve.injecting = true → s.micActive = false ∧ s.tx = none :=
    fun hinject => ⟨(hinter.quiet hinject).1, (hinter.quiet hinject).2.1⟩
  have hsilent : s.serve.clear = true →
      ∀ c y, s.bridges.get? c = some y → y.kind = .diag → y.stopped = true := by
    intro hclear c y hy hkind
    have hsounding := hinter.clear hclear c
    simp only [Sounding, not_exists, not_and, Bool.not_eq_false] at hsounding
    exact hsounding y hy hkind
  refine ⟨fun l s' b x hs hnone hx => ?_, fun b slot ref hserve => ?_, fun b hserve => ?_⟩
  · obtain ⟨hkind, hclear, -⟩ | ⟨hkind, hinject, -⟩ := (kept_step hinter hs).made b x hnone hx
    · exact ⟨by simp [hkind], fun _ => hsilent hclear⟩
    · exact ⟨fun _ => hquiet hinject, by simp [hkind]⟩
  · exact hquiet (by simp [hserve, Serve.injecting])
  · exact hsilent (by simp [hserve, Serve.clear])

namespace Sample

/-- The mic is keyed while a diagnostic measures. -/
def keyedOver : List Label :=
  [.serve { message := .diagCommand .u (some 1) 0x8000 }, .serve {}, .serve {},
    .serve { message := .micState true (some 1) "fm" }, .serve {}, .serve {}, .serve {}, .serve {}]

end Sample

/-- The transmitter is being started, and the bridge of the diagnostic has stopped. -/
theorem rf_interlock_keyed : ∃ s y, Reachable step (fun _ _ => True) {} s ∧
    s.serve = .startTx 1 ∧ s.bridges.get? 0 = some y ∧ y.kind = .diag ∧ y.started = true ∧
    y.stopped = true := by
  obtain ⟨s, hreach, hserve, hbridge⟩ := exists_reachable step {} Sample.keyedOver
    (P := fun s => s.serve = .startTx 1 ∧
      (s.bridges.get? 0).map (fun y => (y.kind, y.started)) = some (.diag, true))
    (by decide +kernel)
  obtain ⟨y, hy, hyfacts⟩ := Option.map_eq_some_iff.mp hbridge
  obtain ⟨hkind, hstarted⟩ := Prod.mk.inj hyfacts
  exact ⟨s, y, hreach, hserve, hy, hkind, hstarted,
    (rf_interlock hreach).2.2 1 hserve 0 y hy hkind⟩

end StationManager.Audio.Uplink
