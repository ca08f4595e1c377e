import StationManager.Agent.ModuleOta

/-!
# StationManager.Agent.ModuleOtaCleanup

A cycle of `ModuleOta.run_once` cleans up after itself and reports at most once,
whatever the server, the module and the backend answer or raise.

Every function of the cycle either returns with its one final report made or
raises with none made (`Prog.Does`), and then the handler reports.  All of this
happens between a pause of the slot and `_finish`, which undoes it.
-/

namespace StationManager.Agent.ModuleOta

open Prog (Does Surely Graded wp)

/-! ## frames -/

/-- Reports were made, `n` of them final; nothing else. -/
structure Frame (n : Nat) (s s' : State) : Prop where
  paused : s'.paused = s.paused
  marker : s'.marker = s.marker
  image : s'.image = s.image
  acts : ∃ acts, s'.acts = s.acts ++ acts ∧ acts.countP Act.terminal = n ∧
    ∀ a ∈ acts, (∀ slot, a ≠ .pause slot) ∧ (∀ path, a ≠ .download path) ∧ ∀ m, a ≠ .recover m

/-- The work on a paused slot: the marker and the image at `path` may change too. -/
structure Works (path : String) (n : Nat) (s s' : State) : Prop where
  paused : s'.paused = s.paused
  image : ∀ p, p ≠ path → s'.image p = s.image p
  acts : ∃ acts, s'.acts = s.acts ++ acts ∧ acts.countP Act.terminal = n ∧
    ∀ a ∈ acts, (∀ slot, a ≠ .pause slot) ∧ (∀ p, a = .download p → p = path) ∧
      ∀ m, a ≠ .recover m

variable {s s' : State}

theorem Frame.same (hp : s'.paused = s.paused) (hm : s'.marker = s.marker) (hi : s'.image = s.image)
    (ha : s'.acts = s.acts) : Frame 0 s s' :=
  ⟨hp, hm, hi, [], by simp [ha], rfl, by simp⟩

/-- Reports are a part of the work. -/
theorem Frame.works {path : String} {n : Nat} (h : Frame n s s') : Works path n s s' := by
  obtain ⟨acts, ha, hn, hother⟩ := h.acts
  refine ⟨h.paused, fun p _ => by rw [h.image], acts, ha, hn, fun a hmem => ?_⟩
  obtain ⟨hpause, hdown, hrec⟩ := hother a hmem
  exact ⟨hpause, fun p hp => absurd hp (hdown p), hrec⟩

/-- Frames compose, and their reports add up. -/
theorem frame_graded : Graded Frame where
  refl _ := .same rfl rfl rfl rfl
  trans {a b s s' s''} h h' := by
    obtain ⟨acts, ha, hn, ho⟩ := h.acts
    obtain ⟨acts', ha', hn', ho'⟩ := h'.acts
    refine ⟨h'.paused.trans h.paused, h'.marker.trans h.marker, h'.image.trans h.image,
      acts ++ acts', by rw [ha', ha, List.append_assoc], by rw [List.countP_append, hn, hn'], ?_⟩
    intro x hx
    exact (List.mem_append.mp hx).elim (ho x) (ho' x)

theorem works_graded (path : String) : Graded (Works path) where
  refl s := (frame_graded.refl s).works
  trans {a b s s' s''} h h' := by
    obtain ⟨acts, ha, hn, ho⟩ := h.acts
    obtain ⟨acts', ha', hn', ho'⟩ := h'.acts
    refine ⟨h'.paused.trans h.paused, fun p hp => (h'.image p hp).trans (h.image p hp),
      acts ++ acts', by rw [ha', ha, List.append_assoc], by rw [List.countP_append, hn, hn'], ?_⟩
    intro x hx
    exact (List.mem_append.mp hx).elim (ho x) (ho' x)

/-! ## questions and reports -/

section Functions

variable (w : World)

variable {st : Status} {α : Type} (path : String) (conv : Int) (m : Marker) (fuel : Nat)
  (backend : Option String)

theorem ask_does (f : Nat → Except Exn α) : Does Frame 0 (ask f) :=
  fun _ => Prog.wp_answer (fun _ _ => .same rfl rfl rfl rfl) fun _ _ => .same rfl rfl rfl rfl

theorem query_surely (f : Nat → α) : Surely Frame 0 (query f) :=
  fun _ => Prog.wp_answer (fun _ _ => .same rfl rfl rfl rfl) fun _ h => (by cases h)

/-- A request is a report; its answer changes nothing. -/
theorem act_surely {a : Act} (h : ∀ slot, a ≠ .pause slot) (h' : ∀ path, a ≠ .download path)
    (h'' : ∀ m, a ≠ .recover m) : Surely Frame (if a.terminal then 1 else 0) (act a) := by
  refine fun s => Prog.wp_change ⟨rfl, rfl, rfl, [a], rfl, ?_, ?_⟩
  · simp [List.countP_cons]
  · simpa using ⟨h, h', h''⟩

/-- Whatever comes of the request is caught. -/
theorem request_surely (f : Option Response → α) (a : α) : Surely Frame 0
      (Prog.tryCatch (do let resp ← ask w.request; pure (f resp)) fun _ => pure a) := by
  refine Does.tryCatch frame_graded ?_ fun _ => Surely.pure frame_graded a
  exact Does.bind frame_graded (ask_does w.request) fun _ => (Surely.pure frame_graded _).does

/-- A status post is one report, and its failure is caught. -/
theorem status_surely (st : Status) (message : String) :
    Surely Frame (if (Act.status conv st message).terminal then 1 else 0)
      (status w conv st message) := by
  have hact := act_surely (a := .status conv st message) (by simp) (by simp) (by simp)
  exact hact.bind frame_graded fun _ => request_surely w (fun _ => ()) ()

/-- A status that ends the attempt, and the result of the function. -/
theorem status_final (h : ∀ conv message, (Act.status conv st message).terminal) (conv : Int)
    (message : String) (result : Result) :
    Surely Frame 1 (do status w conv st message; pure result) := by
  have hst := status_surely w conv st message
  rw [if_pos (h conv message)] at hst
  exact hst.bind_pure frame_graded fun _ => result

/-- Progress is no final report. -/
theorem status_progress (h : ∀ conv message, (Act.status conv st message).terminal = false)
    (conv : Int) (message : String) : Surely Frame 0 (status w conv st message) := by
  have hst := status_surely w conv st message
  rwa [if_neg (by rw [h conv message]; decide)] at hst

theorem failed_surely (message : String) :
    Surely Frame 1 (do status w conv .failed message; pure Result.failed) :=
  status_final w (fun _ _ => rfl) conv message .failed

/-- A commit is one final report. -/
theorem commit_surely (version : String) : Surely Frame 1 (commit w conv version) := by
  have hact := act_surely (a := .commit conv version) (by simp) (by simp) (by simp)
  exact hact.bind frame_graded fun _ => request_surely w _ Result.success

theorem event_surely (e : Event) : Surely Frame 0 (event w e) := by
  refine fun s => Prog.wp_change ?_
  cases w.hasControl with
  | false => exact frame_graded.refl s
  | true => exact .same rfl rfl rfl rfl

/-- The check asks and changes nothing. -/
theorem check_does : Does Frame 0 (check w) := by
  have hact := act_surely (a := .check) (by simp) (by simp) (by simp)
  refine Does.bind frame_graded hact.does fun _ => ?_
  refine Does.bind frame_graded (ask_does w.request) fun resp => ?_
  cases resp with
  | none => exact (Surely.pure frame_graded _).does
  | some resp => exact (Surely.pure frame_graded _).does

theorem lastInventoryEntry_does : Does Frame 0 (lastInventoryEntry w) :=
  Does.ite (ask_does w.lastInventory) (Surely.pure frame_graded none).does

theorem busy_does : Does Frame 0 (busy w) := by
  have hfalse : Does Frame 0 (pure false : M Bool) := (Surely.pure frame_graded false).does
  have hkeyed : Does Frame 0 (slotBusy w) := Does.ite (ask_does w.slotBusy) hfalse
  refine Does.bind frame_graded hkeyed fun keyed => ?_
  exact Does.ite (Surely.pure frame_graded true).does (Does.ite (ask_does w.slotActive) hfalse)

/-- A timeout that is caught changes nothing more. -/
theorem onTimeout_does {x : M α} (h : Does Frame 0 x) (a : α) : Does Frame 0 (onTimeout x a) := by
  intro s
  refine Prog.wp_tryCatch (Prog.wp_mono (h s) (fun _ _ hs => hs) fun e s' hs => ?_)
  by_cases he : e.type = "TimeoutError"
  · rw [if_pos he]
    exact Prog.wp_pure hs
  · rw [if_neg he]
    exact Prog.wp_raise hs

/-! ## verification and outcome -/

theorem afterVerify_does : Does Frame 0 (afterVerify w backend) :=
  Does.ite (ask_does w.afterVerify) (Surely.pure frame_graded ()).does

theorem reportRolledBack_does (message : String) :
    Does Frame 1 (reportRolledBack w m backend message) :=
  Does.bind frame_graded (afterVerify_does w backend) fun _ =>
    (status_final w (fun _ _ => rfl) m.convergenceId message .rolledBack).does

/-- By induction on the fuel: each round returns with its report, raises with none,
or goes on with none. -/
theorem verifyLoop_does (settleUntil deadline confirm : Rat) (fuel : Nat) : ∀ confirmUntil,
      Does Frame 1 (verifyLoop w m backend settleUntil deadline confirm fuel confirmUntil) := by
  induction fuel with
  | zero => exact fun _ _ => Prog.wp_diverge
  | succ fuel ih =>
    intro confirmUntil
    refine Does.bind frame_graded (ask_does w.readIdentity) fun identity => ?_
    refine Does.bind frame_graded (query_surely w.clock).does fun now => ?_
    cases poll m.targetVersion settleUntil deadline confirm now identity confirmUntil with
    | wrong version => exact reportRolledBack_does w m backend _
    | confirmed version =>
      exact Does.bind frame_graded (afterVerify_does w backend) fun _ =>
        (commit_surely w m.convergenceId version).does
    | timedOut c => exact reportRolledBack_does w m backend _
    | again c => exact ih c

/-- The verification reports once at most. -/
theorem verify_does (m : Marker) (backend : Option String) (started : Rat) :
    Does Frame 1 (verify w fuel m backend started) :=
  verifyLoop_does w m backend _ _ _ fuel none

/-- The outcome of a flash is reported by a final status. -/
theorem outcomeStatus_terminal {outcome : FlashOutcome} {result : Result} {message : String}
    (h : outcomeStatus outcome = some (st, result, message)) (conv : Int) (text : String) :
    (Act.status conv st text).terminal := by
  cases outcome <;> simp [outcomeStatus] at h <;> obtain ⟨rfl, -⟩ := h <;> rfl

theorem noteStuck_does (slot : Int) (moduleId : String) :
    Does Frame 0 (noteStuck w slot moduleId) :=
  Does.bind frame_graded (event_surely w _).does fun _ => (event_surely w _).does

/-- The outcome is reported once. -/
theorem reportOutcome_does (outcome : FlashOutcome) (moduleId : String) :
    Does Frame 1 (reportOutcome w m outcome moduleId) := by
  unfold reportOutcome
  cases h : outcomeStatus outcome with
  | none => exact Does.raise frame_graded _
  | some entry =>
    obtain ⟨st, result, message⟩ := entry
    have hst := status_final w (outcomeStatus_terminal h) m.convergenceId message result
    exact Does.ite (Does.bind frame_graded (noteStuck_does w _ _) fun _ => hst.does) hst.does

/-! ## download and flash -/

/-- The same for a program. -/
theorem frame_works {n : Nat} {x : M α} (h : Does Frame n x) : Does (Works path) n x :=
  h.mono Frame.works

theorem saveMarker_does : Does (Works path) 0 (saveMarker w m) :=
  Does.bind (works_graded path) (frame_works path (ask_does w.save)) fun _ _ =>
    Prog.wp_change ⟨rfl, fun _ _ => rfl, [], by simp, rfl, by simp⟩

theorem backendCall_does (f : Nat → Except Exn α) : Does (Works path) 0 (backendCall w f) := by
  refine Does.bind (works_graded path) (frame_works path (query_surely w.leavesMarker).does)
    fun file => ?_
  refine Does.bind (works_graded path) (fun _ => ?_) fun _ => frame_works path (ask_does f)
  exact Prog.wp_change ⟨rfl, fun _ _ => rfl, [], by simp, rfl, by simp⟩

/-- The download may leave its own image, and reports nothing. -/
theorem download_does : Does (Works path) 0 (download w path) := by
  refine Does.bind (works_graded path) (fun _ => ?_) fun _ => ?_
  · exact Prog.wp_change ⟨rfl, fun _ _ => rfl, [.download path], rfl, rfl, by simp⟩
  refine Does.bind (works_graded path) (frame_works path (query_surely w.leavesImage).does)
    fun left => ?_
  refine Does.bind (works_graded path) (fun _ => ?_) fun _ => frame_works path (ask_does w.download)
  refine Prog.wp_change ⟨rfl, fun p hp => ?_, [], by simp, rfl, by simp⟩
  exact if_neg hp

/-- A flash is reported by its verification or by its outcome. -/
theorem flashAndVerify_does (m : Marker) (backend moduleId : String) :
    Does (Works m.path) 1 (flashAndVerify w fuel m backend moduleId) := by
  refine Does.bind (works_graded _) (backendCall_does w m.path w.flash) fun outcome => ?_
  refine frame_works _ (Does.bind frame_graded (query_surely w.clock).does fun at' => ?_)
  refine Does.ite ?_ (reportOutcome_does w m outcome moduleId)
  exact Does.bind frame_graded (status_progress w (fun _ _ => rfl) _ _).does fun _ =>
    verify_does w fuel m (some backend) at'

/-- All the work on a paused slot. -/
theorem downloadAndFlash_does (m : Marker) (backend moduleId : String) :
    Does (Works m.path) 1 (downloadAndFlash w fuel m backend moduleId) := by
  have hg := works_graded m.path
  have hstatus : ∀ st, (∀ conv message, (Act.status conv st message).terminal = false) →
      Does (Works m.path) 0 (status w m.convergenceId st "") := fun st h =>
    frame_works _ (status_progress w h _ _).does
  refine Does.bind hg (hstatus .downloading fun _ _ => rfl) fun _ => ?_
  refine Does.bind hg (frame_works _ (ask_does w.makeDirs)) fun _ => ?_
  refine Does.bind hg (download_does w m.path) fun ok => ?_
  refine Does.ite ?_ (frame_works _ (failed_surely w _ _).does)
  refine Does.bind hg (saveMarker_does w _ _) fun _ => ?_
  refine Does.bind hg (hstatus .flashing fun _ _ => rfl) fun _ => ?_
  refine Does.bind hg (saveMarker_does w _ _) fun _ => ?_
  exact flashAndVerify_does w fuel { m with phase := .flashing } backend moduleId

/-- With its handler the work on a paused slot makes exactly one final report. -/
theorem reportingErrors_surely {path : String} {conv : Int} {x : M Result}
    (h : Does (Works path) 1 x) : Surely (Works path) 1 (reportingErrors w conv x) :=
  Does.tryCatch (works_graded path) h fun e =>
    (failed_surely w conv e.agentError).mono Frame.works

/-! ## the way to the paused slot -/

theorem reportMissing_does (i : Instruction) : Does Frame 1 (reportMissing w i) := by
  have hstuck : Does Frame 0 (dfuStuck w) := by
    refine Does.bind frame_graded (query_surely w.isStuck).does fun stuck => ?_
    cases stuck with
    | none => exact (Surely.pure frame_graded false).does
    | some answer =>
      cases answer with
      | error e => exact (Surely.pure frame_graded false).does
      | ok b => exact (Surely.pure frame_graded b).does
  refine Does.bind frame_graded hstuck fun stuck => ?_
  refine Does.ite ?_ (failed_surely w _ _).does
  refine Does.bind frame_graded (lastInventoryEntry_does w) fun snapshot => ?_
  refine Does.ite ?_ ?_
  · exact Does.bind frame_graded (noteStuck_does w _ _) fun _ => (failed_surely w _ _).does
  · exact Does.bind frame_graded (event_surely w _).does fun _ => (failed_surely w _ _).does

/-- The recovery of an interrupted flash. -/
theorem recoverFlash_does (m : Marker) (backend : Option String) :
    Does (Works m.path) 1 (recoverFlash w fuel m backend) := by
  unfold recoverFlash
  cases m.phase with
  | downloaded =>
    refine frame_works _ (Does.bind frame_graded (ask_does w.readIdentity) fun identity => ?_)
    exact Does.ite (commit_surely w _ _).does (failed_surely w _ _).does
  | flashing =>
    have hrecover : Does (Works m.path) 0 (recover w backend) :=
      Does.ite (backendCall_does w m.path w.recover)
        (Surely.pure (works_graded m.path) none).does
    have hverify : Does Frame 1 (do let now ← query w.clock; verify w fuel m backend now) :=
      Does.bind frame_graded (query_surely w.clock).does fun now =>
        verify_does w fuel m backend now
    refine Does.bind (works_graded _) hrecover fun outcome => frame_works _ ?_
    cases outcome with
    | none => exact hverify
    | some outcome =>
      cases outcome with
      | ok => exact hverify
      | rejected => exact reportOutcome_does w m _ _
      | transient => exact reportOutcome_does w m _ _
      | rolledBack => exact reportOutcome_does w m _ _
      | dfuStuck => exact reportOutcome_does w m _ _

end Functions

/-! ## what a cycle leaves -/

/-- A cycle that did `acts` has reported once at most, resumed what it paused and
removed what it downloaded. -/
structure Cleaned (acts : List Act) (s : State) : Prop where
  once : acts.countP Act.terminal ≤ 1
  resumed : ∀ slot, .pause slot ∈ acts → s.paused slot = none
  removed : ∀ path, .download path ∈ acts → s.image path = false

/-- And no marker is left, nor the image of a recovered one. -/
def Tidy (before : List Act) (s : State) : Prop :=
  ∃ acts, s.acts = before ++ acts ∧ Cleaned acts s ∧ s.marker = .absent ∧
    ∀ m, .recover m ∈ acts → s.image m.path = false

/-- The acts so far are about one slot and one image. -/
def Trail (slot : Int) (path : String) (n : Nat) (before : List Act) (s : State) : Prop :=
  ∃ acts, s.acts = before ++ acts ∧ acts.countP Act.terminal = n ∧
    ∀ a ∈ acts, (∀ k, a = .pause k → k = slot) ∧ (∀ p, a = .download p → p = path) ∧
      ∀ m, a = .recover m → m.path = path

/-- Reports alone leave everything tidy. -/
theorem Frame.tidy {n : Nat} (h : Frame n s s') (hn : n ≤ 1) (hm : s.marker = .absent) :
    Tidy s.acts s' := by
  obtain ⟨acts, ha, hc, hother⟩ := h.acts
  refine ⟨acts, ha, ⟨hc ▸ hn, fun slot hs => ?_, fun path hp => ?_⟩, h.marker.trans hm,
    fun m hr => ?_⟩
  · exact absurd rfl ((hother _ hs).1 slot)
  · exact absurd rfl ((hother _ hp).2.1 path)
  · exact absurd rfl ((hother _ hr).2.2 m)

theorem Tidy.of_frame {s'' : State} (h : Frame 0 s s') (ht : Tidy s'.acts s'') :
    Tidy s.acts s'' := by
  obtain ⟨acts, ha, hc, hother⟩ := h.acts
  obtain ⟨acts', ha', hclean, hm, hrec⟩ := ht
  refine ⟨acts ++ acts', by rw [ha', ha, List.append_assoc],
    ⟨?_, fun slot hs => ?_, fun path hp => ?_⟩, hm, fun m hr => ?_⟩
  · rw [List.countP_append, hc, Nat.zero_add]
    exact hclean.once
  · refine hclean.resumed slot ((List.mem_append.mp hs).resolve_left fun hs => ?_)
    exact (hother _ hs).1 slot rfl
  · refine hclean.removed path ((List.mem_append.mp hp).resolve_left fun hp => ?_)
    exact (hother _ hp).2.1 path rfl
  · refine hrec m ((List.mem_append.mp hr).resolve_left fun hr => ?_)
    exact (hother _ hr).2.2 m rfl

/-- A pause that came to nothing. -/
theorem tidy_of_resume {slot : Int} {snapshot : Option Snapshot}
    (h : Frame 0 (s.pause slot snapshot) s') (hm : s.marker = .absent) :
    Tidy s.acts (s'.resume slot) := by
  obtain ⟨acts, ha, hc, hother⟩ := h.acts
  refine ⟨.pause slot :: acts, by simp [State.resume, ha, State.pause],
    ⟨?_, fun k hk => ?_, fun path hp => ?_⟩, h.marker.trans hm, fun m hr => ?_⟩
  · simp [hc, Act.terminal]
  · rcases List.mem_cons.mp hk with heq | hk
    · cases heq
      exact if_pos rfl
    · exact absurd rfl ((hother _ hk).1 k)
  · exact absurd rfl ((hother _ ((List.mem_cons.mp hp).resolve_left (by simp))).2.1 path)
  · exact absurd rfl ((hother _ ((List.mem_cons.mp hr).resolve_left (by simp))).2.2 m)

section Trail

variable {slot : Int} {path : String} {n k : Nat} {before : List Act} {s s' : State}

/-- Nothing has happened yet. -/
theorem Trail.start (slot : Int) (path : String) (s : State) : Trail slot path 0 s.acts s :=
  ⟨[], by simp, rfl, by simp⟩

/-- The work of the flash goes on. -/
theorem Trail.works (h : Trail slot path n before s) (hw : Works path k s s') :
    Trail slot path (n + k) before s' := by
  obtain ⟨acts, ha, hn, ho⟩ := h
  obtain ⟨acts', ha', hn', ho'⟩ := hw.acts
  refine ⟨acts ++ acts', by rw [ha', ha, List.append_assoc], by rw [List.countP_append, hn, hn'],
    fun a hmem => ?_⟩
  rcases List.mem_append.mp hmem with hmem | hmem
  · exact ho a hmem
  · obtain ⟨hpause, hdown, hrec⟩ := ho' a hmem
    exact ⟨fun k hk => absurd hk (hpause k), hdown, fun m hm => absurd hm (hrec m)⟩

theorem Trail.of_acts (h : Trail slot path n before s) (ha : s'.acts = s.acts) :
    Trail slot path n before s' := by
  obtain ⟨acts, hacts⟩ := h
  exact ⟨acts, ha ▸ hacts⟩

theorem Trail.pause (h : Trail slot path n before s) (snapshot : Option Snapshot) :
    Trail slot path n before (s.pause slot snapshot) := by
  obtain ⟨acts, ha, hn, ho⟩ := h
  refine ⟨acts ++ [.pause slot], by simp [State.pause, ha],
    by rw [List.countP_append, hn]; rfl, fun a hmem => ?_⟩
  rcases List.mem_append.mp hmem with hmem | hmem
  · exact ho a hmem
  · cases List.mem_singleton.mp hmem
    simp

theorem Trail.recover (m : Marker) (s : State) (ha : s'.acts = s.acts ++ [.recover m]) :
    Trail slot m.path 0 s.acts s' := by
  refine ⟨[.recover m], ha, rfl, fun a hmem => ?_⟩
  cases List.mem_singleton.mp hmem
  simp

/-- The slot is resumed, and the files are removed. -/
theorem Trail.tidy (h : Trail slot path n before s) (hn : n ≤ 1) (hp : s.paused slot = none)
    (hi : s.image path = false) (hm : s.marker = .absent) : Tidy before s := by
  obtain ⟨acts, ha, hc, ho⟩ := h
  refine ⟨acts, ha, ⟨hc ▸ hn, fun k hk => ?_, fun p hp' => ?_⟩, hm, fun m hr => ?_⟩
  · rw [(ho _ hk).1 k rfl]
    exact hp
  · rw [(ho _ hp').2.1 p rfl]
    exact hi
  · rw [(ho _ hr).2.2 m rfl]
    exact hi

end Trail

/-! ## files that can be removed -/

/-- Files can be removed, and a plain name in the firmware directory is a file in it. -/
structure World.Removable (w : World) : Prop where
  removes : ∀ n, w.removes n = true
  inFwDir : ∀ name : String, '/' ∉ name.toList → name ≠ "" → name ≠ "." → name ≠ ".." →
    w.inFwDir (joinPath w.fwDir name) = true

theorem slash_not_mem_toString (n : Int) : '/' ∉ (toString n).toList := by
  have hnat : ∀ k : Nat, '/' ∉ (toString k).toList := by
    intro k hk
    rw [toList_toString] at hk
    have hdigit := Nat.isDigit_of_mem_toDigits (by decide) (by decide) hk
    exact absurd hdigit (by decide)
  cases n with
  | ofNat k => exact hnat k
  | negSucc k =>
    have htext : toString (Int.negSucc k) = "-" ++ toString (k + 1) := rfl
    rw [htext, String.toList_append]
    simpa using hnat (k + 1)

theorem slash_not_mem_safeTarget (target : String) : '/' ∉ (safeTarget target).toList := by
  simp only [safeTarget, String.toList_ofList, List.mem_map, not_exists, not_and]
  rintro c - hc
  by_cases hsafe : (c.isAlphanum || c = '.' || c = '_' || c = '-') = true
  · rw [if_pos hsafe] at hc
    subst hc
    exact absurd hsafe (by decide)
  · rw [if_neg hsafe] at hc
    exact absurd hc (by decide)

/-- The target version cannot lead the image out of the firmware directory. -/
theorem inFwDir_imageName {w : World} (hw : w.Removable) (i : Instruction) :
    w.inFwDir (joinPath w.fwDir (imageName i)) = true := by
  have hhead : (imageName i).toList.head? = some 'c' := by simp [imageName]
  have hsuffix : '/' ∉ (artifactSuffix i.artifact).toList := by
    unfold artifactSuffix
    by_cases h : i.artifact = "sim"
    · rw [if_pos h]
      decide
    · rw [if_neg h]
      decide
  have hne : ∀ text : String, text.toList.head? ≠ some 'c' → imageName i ≠ text := by
    rintro text htext rfl
    exact htext hhead
  refine hw.inFwDir _ ?_ (hne _ (by decide)) (hne _ (by decide)) (hne _ (by decide))
  simp only [imageName, String.toList_append, List.mem_append, not_or]
  exact ⟨⟨⟨⟨⟨by decide, slash_not_mem_toString _⟩, by decide⟩, slash_not_mem_safeTarget _⟩,
    by decide⟩, hsuffix⟩

/-! ## the cycle -/

section Cycle

variable {w : World}

/-- A marker that can be removed is removed. -/
theorem clearMarker_spec (hw : w.Removable) (s : State) : wp (clearMarker w)
      (fun _ s' => s'.paused = s.paused ∧ s'.image = s.image ∧ s'.acts = s.acts ∧
        s'.marker = .absent) (fun _ _ => False) s := by
  refine Prog.wp_bind (Prog.wp_answer (fun ok hok => Prog.wp_change ?_) fun _ h => (by cases h))
  cases hok
  simp [hw.removes]

/-- An image in the firmware directory is removed. -/
theorem removeImage_spec (hw : w.Removable) {path : String} (hin : w.inFwDir path = true)
    (s : State) : wp (removeImage w path)
      (fun _ s' => s'.paused = s.paused ∧ s'.acts = s.acts ∧ s'.image path = false)
      (fun _ _ => False) s := by
  unfold removeImage
  rw [if_pos hin]
  refine Prog.wp_bind (Prog.wp_answer (fun ok hok => Prog.wp_change ?_) fun _ h => (by cases h))
  cases hok
  simp [hw.removes]

variable {m : Marker} {s : State}

/-- `_finish` resumes the slot, removes the image and the marker. -/
theorem finish_spec (hw : w.Removable) (hin : w.inFwDir m.path = true) (moduleId : String)
    (result : Result) {n : Nat} {before : List Act} (h : Trail m.slot m.path n before s)
    (hn : n ≤ 1) :
    wp (finish w m moduleId result) (fun _ s' => Tidy before s') (fun _ _ => False) s := by
  refine Prog.wp_bind (Prog.wp_change ?_)
  have hresumed : (s.resume m.slot).paused m.slot = none := if_pos rfl
  replace h : Trail m.slot m.path n before (s.resume m.slot) := h.of_acts rfl
  refine Prog.wp_bind (Prog.wp_mono (event_surely w _ _) (fun _ s₁ h₁ => ?_) fun _ _ he => he)
  refine Prog.wp_bind (Prog.wp_mono (event_surely w _ _) (fun _ s₂ h₂ => ?_) fun _ _ he => he)
  refine Prog.wp_bind (Prog.wp_mono (removeImage_spec hw hin _) (fun _ s₃ h₃ => ?_)
    fun _ _ he => he)
  obtain ⟨hpaused₃, hacts₃, himage₃⟩ := h₃
  refine Prog.wp_mono (clearMarker_spec hw _) (fun _ s₄ h₄ => ?_) fun _ _ he => he
  obtain ⟨hpaused₄, himage₄, hacts₄, hmarker₄⟩ := h₄
  have htrail : Trail m.slot m.path n before s₂ := (h.works h₁.works).works h₂.works
  refine (htrail.of_acts (hacts₄.trans hacts₃)).tidy hn ?_ ?_ hmarker₄
  · rw [hpaused₄, hpaused₃, h₂.paused, h₁.paused]
    exact hresumed
  · rw [himage₄]
    exact himage₃

/-- Whatever becomes of the work, `_finish` runs after it. -/
theorem flashPaused_spec (hw : w.Removable) (hin : w.inFwDir m.path = true) (fuel : Nat)
    (moduleId : String) {before : List Act} (h : Trail m.slot m.path 0 before s) :
    wp (flashPaused w fuel m moduleId) (fun _ s' => Tidy before s') (fun _ _ => False) s := by
  have hwork : Does (Works m.path) 1 (do
      event w (.started m.slot moduleId m.targetVersion m.convergenceId)
      event w (.refresh false)
      downloadAndFlash w fuel m m.artifact moduleId) :=
    Does.bind (works_graded _) (frame_works _ (event_surely w _).does) fun _ =>
      Does.bind (works_graded _) (frame_works _ (event_surely w _).does) fun _ =>
        downloadAndFlash_does w fuel m m.artifact moduleId
  refine Prog.wp_bind (Prog.wp_mono (reportingErrors_surely w hwork s) (fun result s' hs' => ?_)
    fun _ _ he => he)
  refine Prog.wp_bind (Prog.wp_mono
    (finish_spec hw hin moduleId result (h.works hs') (Nat.le_refl 1)) (fun _ _ ht => ?_)
    fun _ _ he => he)
  exact Prog.wp_pure ht

/-- `_pause_when_idle`: the slot is paused, or as if it had never been. -/
theorem pauseWhenIdle_spec (slot : Int) (path : String) (snapshot : Option Snapshot)
    (hm : s.marker = .absent) : wp (pauseWhenIdle w slot snapshot)
      (fun idle s' => (idle = true → Trail slot path 0 s.acts s') ∧ (idle = false → Tidy s.acts s'))
      (fun _ s' => Tidy s.acts s') s := by
  have hask : Does Frame 0 (do ask w.barrier; let b ← busy w; pure (!b) : M Bool) :=
    Does.bind frame_graded (ask_does w.barrier) fun _ =>
      Does.bind frame_graded (busy_does w) fun b => (Surely.pure frame_graded (!b)).does
  refine Prog.wp_bind (Prog.wp_change (Prog.wp_bind (Prog.wp_tryCatch ?_)))
  refine Prog.wp_mono (onTimeout_does hask false _) (fun idle s' hs' => ?_) fun e s' hs' => ?_
  · cases idle with
    | true =>
      exact Prog.wp_pure ⟨fun _ => ((Trail.start slot path s).pause snapshot).works hs'.works,
        fun h => (by cases h)⟩
    | false =>
      exact Prog.wp_bind (Prog.wp_change (Prog.wp_pure ⟨fun h => (by cases h), fun _ =>
        tidy_of_resume hs' hm⟩))
  · exact Prog.wp_bind (Prog.wp_change (Prog.wp_raise (tidy_of_resume hs' hm)))

/-- Questions before the rest of a cycle. -/
theorem wp_after {α β : Type} {x : M α} {f : α → M β} (hx : Does Frame 0 x)
    (hm : s.marker = .absent) (hf : ∀ a s', s'.marker = .absent →
      wp (f a) (fun _ s'' => Tidy s'.acts s'') (fun _ s'' => Tidy s'.acts s'') s') :
    wp (x >>= f) (fun _ s' => Tidy s.acts s') (fun _ s' => Tidy s.acts s') s := by
  refine Prog.wp_bind (Prog.wp_mono (hx s) (fun a s' hs' => ?_) fun _ s' hs' => ?_)
  · exact Prog.wp_mono (hf a s' (hs'.marker.trans hm)) (fun _ _ => .of_frame hs') fun _ _ =>
      .of_frame hs'
  · exact hs'.tidy (Nat.zero_le 1) hm

theorem wp_tidy {α : Type} {x : M α} (hx : Does Frame 1 x) (hm : s.marker = .absent) :
    wp x (fun _ s' => Tidy s.acts s') (fun _ s' => Tidy s.acts s') s :=
  Prog.wp_mono (hx s) (fun _ _ hs' => hs'.tidy (Nat.le_refl 1) hm) fun _ _ hs' =>
    hs'.tidy (Nat.zero_le 1) hm

/-- An update of an idle module. -/
theorem updateIdle_spec (hw : w.Removable) (fuel : Nat) (i : Instruction) (oldVersion : String)
    (hm : s.marker = .absent) :
    wp (updateIdle w fuel i oldVersion) (fun _ s' => Tidy s.acts s') (fun _ s' => Tidy s.acts s')
      s := by
  have hbusy : ∀ s' : State, s'.marker = .absent → wp (pure .busy : M Result)
      (fun _ s'' => Tidy s'.acts s'') (fun _ s'' => Tidy s'.acts s'') s' := fun s' hm' =>
    Prog.wp_pure ((frame_graded.refl s').tidy (Nat.zero_le 1) hm')
  refine wp_after (busy_does w) hm fun occupied s₁ hm₁ => ?_
  cases occupied with
  | true => exact hbusy s₁ hm₁
  | false =>
    refine wp_after (lastInventoryEntry_does w) hm₁ fun snapshot s₂ hm₂ => ?_
    by_cases hid : moduleId snapshot i.moduleUid = ""
    · rw [if_pos hid]
      exact hbusy s₂ hm₂
    · rw [if_neg hid]
      refine Prog.wp_bind (Prog.wp_mono
        (pauseWhenIdle_spec i.slot (i.marker w oldVersion snapshot).path snapshot hm₂)
        (fun idle s₃ h₃ => ?_) fun _ _ ht => ht)
      cases idle with
      | true =>
        exact Prog.wp_mono (flashPaused_spec hw (inFwDir_imageName hw i) fuel _ (h₃.1 rfl))
          (fun _ _ ht => ht) fun _ _ he => he.elim
      | false => exact Prog.wp_pure (h₃.2 rfl)

/-- An instruction of the server. -/
theorem runInstruction_spec (hw : w.Removable) (fuel : Nat) (active : List String) (i : Instruction)
    (hm : s.marker = .absent) : wp (runInstruction w fuel active i) (fun _ s' => Tidy s.acts s')
      (fun _ s' => Tidy s.acts s') s := by
  unfold runInstruction
  by_cases hactive : i.artifact ∉ active
  · rw [if_pos hactive]
    exact wp_tidy (failed_surely w _ _).does hm
  rw [if_neg hactive]
  refine wp_after (ask_does w.readIdentity) hm fun identity s₁ hm₁ => ?_
  cases identity.filter (·.uid = some i.moduleUid) with
  | none => exact wp_tidy (reportMissing_does w i) hm₁
  | some live =>
    by_cases hvariant : live.variant ≠ "" ∧ i.variant ≠ "" ∧ live.variant ≠ i.variant
    · simp only [if_pos hvariant]
      exact wp_tidy (status_final w (fun _ _ => rfl) _ _ .rejected).does hm₁
    · simp only [if_neg hvariant]
      by_cases hversion : live.version = i.targetVersion
      · rw [if_pos hversion]
        exact wp_tidy (commit_surely w _ _).does hm₁
      · rw [if_neg hversion]
        exact updateIdle_spec hw fuel i live.version hm₁

/-- The recovery on the paused slot: without a result nothing was done, and with one
exactly one final report was made. -/
theorem recoverPaused_spec (fuel : Nat) (m : Marker) (backend : Option String) (s : State) :
    wp (recoverPaused w fuel m backend)
      (fun r s' => (r = none → Frame 0 (s.pause m.slot m.snapshot) s') ∧
        (r ≠ none → Works m.path 1 (s.pause m.slot m.snapshot) s'))
      (fun _ s' => Works m.path 0 (s.pause m.slot m.snapshot) s') s := by
  have hask : Does Frame 0 (do ask w.barrier; pure true : M Bool) :=
    Does.bind frame_graded (ask_does w.barrier) fun _ => (Surely.pure frame_graded true).does
  refine Prog.wp_bind (Prog.wp_change (Prog.wp_bind ?_))
  refine Prog.wp_mono (onTimeout_does hask false _) (fun drained s₁ h₁ => ?_) fun _ _ h₁ => h₁.works
  cases drained with
  | false => exact Prog.wp_pure ⟨fun _ => h₁, fun h => absurd rfl h⟩
  | true =>
    refine Prog.wp_bind (Prog.wp_mono (recoverFlash_does w fuel m backend s₁)
      (fun result s₂ h₂ => ?_) fun _ s₂ h₂ => ?_)
    · exact Prog.wp_pure ⟨fun h => (by cases h), fun _ =>
        (works_graded m.path).trans h₁.works h₂⟩
    · exact (works_graded m.path).trans h₁.works h₂

/-- A recovery that finds the device busy reports nothing and keeps the marker. -/
def KeptBusy (s s' : State) : Prop :=
  ∃ acts m, s'.acts = s.acts ++ acts ∧ Cleaned acts s' ∧ acts.countP Act.terminal = 0 ∧
    Act.recover m ∈ acts ∧ s'.marker = s.marker

theorem keptBusy_of_frame {s' s'' : State} (ha : s'.acts = s.acts ++ [.recover m])
    (hm : s'.marker = s.marker) (h : Frame 0 (s'.pause m.slot m.snapshot) s'') :
    KeptBusy s (s''.resume m.slot) := by
  obtain ⟨acts, hacts, hc, hother⟩ := h.acts
  have hcount : (.recover m :: .pause m.slot :: acts : List Act).countP Act.terminal = 0 := by
    simpa [Act.terminal] using hc
  refine ⟨.recover m :: .pause m.slot :: acts, m,
    by simp [State.resume, hacts, State.pause, ha],
    ⟨Nat.le_trans (Nat.le_of_eq hcount) (Nat.zero_le 1), fun k hk => ?_, fun path hp => ?_⟩, hcount,
    List.mem_cons_self, h.marker.trans hm⟩
  · rcases List.mem_cons.mp ((List.mem_cons.mp hk).resolve_left (by simp)) with heq | hk
    · cases heq
      exact if_pos rfl
    · exact absurd rfl ((hother _ hk).1 k)
  · have hp := (List.mem_cons.mp hp).resolve_left (by simp)
    exact absurd rfl ((hother _ ((List.mem_cons.mp hp).resolve_left (by simp))).2.1 path)

/-- A marker that was found at the start. -/
theorem finishFromMarker_spec (hw : w.Removable) (fuel : Nat) (active : List String)
    (hin : w.inFwDir m.path = true) (s : State) : wp (finishFromMarker w fuel active m)
      (fun r s' => Tidy s.acts s' ∨ r = .busy ∧ KeptBusy s s') (fun _ _ => False) s := by
  refine Prog.wp_bind (Prog.wp_change (Prog.wp_bind (Prog.wp_tryCatch ?_)))
  -- the state after the marker is taken up
  generalize hs₀ : { s with acts := s.acts ++ [Act.recover m] } = s₀
  have hacts₀ : s₀.acts = s.acts ++ [.recover m] := by rw [← hs₀]
  have hmarker₀ : s₀.marker = s.marker := by rw [← hs₀]
  have htrail : Trail m.slot m.path 0 s.acts (s₀.pause m.slot m.snapshot) :=
    (Trail.recover m s hacts₀).pause m.snapshot
  have hfinish : ∀ (result : Result) (s₁ : State),
      Works m.path 1 (s₀.pause m.slot m.snapshot) s₁ →
      wp (do finish w m (moduleId m.snapshot m.moduleUid) result; pure result : M Result)
        (fun r s' => Tidy s.acts s' ∨ r = .busy ∧ KeptBusy s s') (fun _ _ => False) s₁ := by
    intro result s₁ h₁
    refine Prog.wp_bind (Prog.wp_mono
      (finish_spec hw hin _ result (htrail.works h₁) (Nat.le_refl 1)) (fun _ _ ht => ?_)
      fun _ _ he => he)
    exact Prog.wp_pure (.inl ht)
  refine Prog.wp_mono (recoverPaused_spec fuel m _ s₀) (fun r s₁ h₁ => ?_) fun e s₁ h₁ => ?_
  · cases r with
    | none =>
      have hkept := keptBusy_of_frame hacts₀ hmarker₀ (h₁.1 rfl)
      refine Prog.wp_bind (Prog.wp_change (Prog.wp_bind (Prog.wp_change ?_)))
      refine Prog.wp_pure (.inr ⟨rfl, ?_⟩)
      cases w.hasControl with
      | false => exact hkept
      | true =>
        obtain ⟨acts, m', hacts, hclean, hkept⟩ := hkept
        exact ⟨acts, m', hacts, ⟨hclean.once, hclean.resumed, hclean.removed⟩, hkept⟩
    | some result => exact hfinish result s₁ (h₁.2 (by simp))
  · refine Prog.wp_bind (Prog.wp_mono (status_surely w _ .failed _ s₁) (fun _ s₂ h₂ => ?_)
      fun _ _ he => he)
    exact Prog.wp_pure (hfinish .failed s₂ ((works_graded m.path).trans h₁ h₂.works))

/-- A marker that can be recovered, or none and no file. -/
def Loaded (w : World) (s : State) (r : Option Marker) (s' : State) : Prop :=
  s'.acts = s.acts ∧ (∀ m, r = some m → s'.marker = s.marker ∧ w.inFwDir m.path = true) ∧
    (r = none → s'.marker = .absent)

theorem readMarker_spec (hw : w.Removable) (reads : Bool) (s : State) :
    wp (readMarker w reads s.marker) (Loaded w s) (fun _ _ => False) s := by
  have hclear : wp (do clearMarker w; pure none : M (Option Marker)) (Loaded w s)
      (fun _ _ => False) s := by
    refine Prog.wp_bind (Prog.wp_mono (clearMarker_spec hw s) (fun _ s' h => ?_) fun _ _ he => he)
    obtain ⟨-, -, hacts, hmarker⟩ := h
    exact Prog.wp_pure ⟨hacts, fun m h => (by cases h), fun _ => hmarker⟩
  cases hfile : s.marker with
  | absent => exact Prog.wp_pure ⟨rfl, fun m h => (by cases h), fun _ => hfile⟩
  | corrupt => exact hclear
  | stored m =>
    by_cases hvalid : (reads && m.valid w) = true
    · rw [readMarker, if_pos hvalid]
      refine Prog.wp_pure ⟨rfl, fun m' hm' => ?_, fun h => (by cases h)⟩
      cases hm'
      simp only [Marker.valid, Bool.and_eq_true] at hvalid
      exact ⟨rfl, hvalid.2.2⟩
    · rw [readMarker, if_neg hvalid]
      exact hclear

/-- A marker that is not valid is removed. -/
theorem loadMarker_spec (hw : w.Removable) (s : State) :
    wp (loadMarker w) (Loaded w s) (fun _ _ => False) s := by
  refine Prog.wp_bind (Prog.wp_answer (fun reads _ => ?_) fun _ h => (by cases h))
  exact Prog.wp_bind (Prog.wp_read (readMarker_spec hw reads _))

/-- The ends of a cycle. -/
def Ended (w : World) (s : State) (r : Except Exn (Option Result)) (s' : State) : Prop :=
  Tidy s.acts s' ∨ r = .ok (some .busy) ∧ KeptBusy s s' ∨
    s'.acts = s.acts ∧ s'.marker = s.marker ∧ r = .ok none ∧ executable w s.pool s.asked = []

theorem runChecked_spec (hw : w.Removable) (fuel : Nat) (active : List String)
    (hm : s.marker = .absent) :
    wp (runChecked w fuel active) (fun _ s' => Tidy s.acts s') (fun _ s' => Tidy s.acts s') s := by
  refine wp_after (check_does w) hm fun instr s₁ hm₁ => ?_
  cases instr with
  | none => exact Prog.wp_pure ((frame_graded.refl s₁).tidy (Nat.zero_le 1) hm₁)
  | some instr =>
    refine Prog.wp_bind (Prog.wp_mono (runInstruction_spec hw fuel active instr hm₁)
      (fun _ _ ht => ?_) fun _ _ ht => ht)
    exact Prog.wp_pure ht

/-- One run of the manager. -/
theorem runOnce_spec (hw : w.Removable) (fuel : Nat) (s : State) :
    wp (runOnce w fuel) (fun r s' => Ended w s (.ok r) s') (fun e s' => Ended w s (.error e) s')
      s := by
  refine Prog.wp_bind (Prog.wp_answer (fun active hactive => ?_) fun _ h => (by cases h))
  cases hactive
  by_cases hnone : executable w s.pool s.asked = []
  · rw [if_pos hnone]
    exact Prog.wp_pure (.inr (.inr ⟨rfl, rfl, rfl, hnone⟩))
  rw [if_neg hnone]
  refine Prog.wp_bind (Prog.wp_mono (loadMarker_spec hw _) (fun marker s₁ h₁ => ?_)
    fun _ _ he => he.elim)
  obtain ⟨hacts, hsome, habsent⟩ := h₁
  cases marker with
  | none =>
    have hrest := runChecked_spec hw fuel (executable w s.pool s.asked) (habsent rfl)
    rw [hacts] at hrest
    exact Prog.wp_mono hrest (fun _ _ ht => .inl ht) fun _ _ ht => .inl ht
  | some m =>
    obtain ⟨hmarker, hin⟩ := hsome m rfl
    refine Prog.wp_bind (Prog.wp_mono (finishFromMarker_spec hw fuel _ hin s₁)
      (fun result s₂ h₂ => Prog.wp_pure ?_) fun _ _ he => he.elim)
    rcases h₂ with ht | ⟨rfl, hkept⟩
    · rw [hacts] at ht
      exact .inl ht
    · obtain ⟨acts, m', ha, hclean, hcount, hmem, hm⟩ := hkept
      exact .inr (.inl ⟨rfl, acts, m', by rw [ha, hacts], hclean, hcount, hmem,
        hm.trans hmarker⟩)

/-- **A cycle cleans up and reports at most once.**  Whatever the server, the module
and the backend answer or raise, when `run_once` ends, every slot it paused is
resumed, every image it downloaded is removed and at most one final report was made.
The marker file is gone, and with it the image of a recovered marker, except where the
recovery found the device busy, and where no backend is there: then the cycle ends at
once and does nothing at all. -/
theorem cycle_cleans_up (w : World) (hw : w.Removable) (fuel : Nat) (s s' : State)
    (r : Except Exn (Option Result)) (h : runOnce w fuel s = some (r, s')) :
    ∃ acts, s'.acts = s.acts ++ acts ∧ acts.countP Act.terminal ≤ 1 ∧
      (∀ slot, .pause slot ∈ acts → s'.paused slot = none) ∧
      (∀ path, .download path ∈ acts → s'.image path = false) ∧
      (s'.marker = .absent ∧ (∀ m, .recover m ∈ acts → s'.image m.path = false) ∨
        s'.marker = s.marker ∧ r = .ok (some .busy) ∧ (∃ m, .recover m ∈ acts) ∧
          acts.countP Act.terminal = 0 ∨
        s'.marker = s.marker ∧ r = .ok none ∧ acts = [] ∧ executable w s.pool s.asked = []) := by
  have hspec := runOnce_spec hw fuel s s'
  have hended : Ended w s r s' := by
    cases r with
    | ok r => exact hspec.1 r h
    | error e => exact hspec.2 e h
  rcases hended with ⟨acts, ha, hclean, hm, hrec⟩ | ⟨rfl, acts, m, ha, hclean, hcount, hrec, hm⟩ |
    ⟨ha, hm, rfl, hnone⟩
  · exact ⟨acts, ha, hclean.once, hclean.resumed, hclean.removed, .inl ⟨hm, hrec⟩⟩
  · exact ⟨acts, ha, hclean.once, hclean.resumed, hclean.removed,
      .inr (.inl ⟨hm, rfl, ⟨m, hrec⟩, hcount⟩)⟩
  · exact ⟨[], by simp [ha], Nat.zero_le 1, by simp, by simp, .inr (.inr ⟨hm, rfl, rfl, hnone⟩)⟩


end Cycle

/-! ## a cycle -/

/-- An instruction for slot 1. -/
def benchPayload : Payload :=
  .object fun name =>
    if name = "convergence_id" then some (.scalar (.int 7))
    else if name = "slot" then some (.scalar (.int 1))
    else if name = "size_bytes" then some (.scalar (.int 4096))
    else if name = "module_uid" then some (.scalar (.str "fm-1"))
    else if name = "target_version" then some (.scalar (.str "2.0"))
    else if name = "artifact" then some (.scalar (.str "sim"))
    else if name = "download_url" then
      some (.scalar (.str "/api/v1/module-firmware/artifact/7/"))
    else if name = "checksum_sha256" then
      some (.scalar (.str (String.ofList (List.replicate 64 'a'))))
    else none

/-- A simulated module that answers, and a backend that raises. -/
def bench : World where
  enabled := true
  dfuReady _ := false
  simReady _ := true
  autoBackends := true
  settle _ := 0
  confirm _ := 0
  hasControl := true
  hasAudio := false
  fwDir := "/var/lib/fw"
  inFwDir _ := true
  str
    | .scalar (.str text) => text
    | .scalar (.int n) => toString n
    | _ => ""
  truthy _ := true
  request _ := .ok (some ⟨200, benchPayload⟩)
  readIdentity _ := .ok (some ⟨some "fm-1", "", "1.0"⟩)
  isStuck _ := none
  lastInventory _ := .ok (some ⟨[("fm", some "fm-1")]⟩)
  slotBusy _ := .ok false
  slotActive _ := .ok false
  barrier _ := .ok ()
  makeDirs _ := .ok ()
  download _ := .ok true
  leavesImage _ := true
  save _ := .ok ()
  markerReads _ := true
  flash _ := .error ⟨"OSError", "no space left"⟩
  recover _ := .ok none
  leavesMarker _ := .corrupt
  afterVerify _ := .ok ()
  clock _ := 0
  removes _ := true

/-- An agent that has done nothing yet. -/
def fresh (file : MarkerFile) : State :=
  ⟨[], fun _ => none, file, fun _ => false, [], [], 0⟩

/-- A flash that raises: one report, the slot resumed, image and marker gone. -/
theorem cycle_cleans_up_raising :
    ∃ s', runOnce bench 1 (fresh .absent) = some (.ok (some .failed), s') ∧
      s'.acts.countP Act.terminal ≤ 1 ∧
      Act.status 7 .failed "agent error: OSError: no space left" ∈ s'.acts ∧
      s'.paused 1 = none ∧ s'.image "/var/lib/fw/conv7-2.0.native_sim" = false ∧
      s'.marker = .absent := by
  have hw : bench.Removable := ⟨fun _ => rfl, fun _ _ _ _ _ => rfl⟩
  have h : (runOnce bench 1 (fresh .absent)).map (fun p => decide (
      p.1.toOption = some (some Result.failed) ∧
        Act.status 7 .failed "agent error: OSError: no space left" ∈ p.2.acts ∧
        Act.pause 1 ∈ p.2.acts ∧
        Act.download "/var/lib/fw/conv7-2.0.native_sim" ∈ p.2.acts)) = some true := by
    decide +kernel
  obtain ⟨⟨r, s'⟩, hs, hfacts⟩ := Option.map_eq_some_iff.mp h
  obtain ⟨hr, hstatus, hpause, hdownload⟩ := of_decide_eq_true hfacts
  cases r with
  | error e => cases hr
  | ok r =>
    cases hr
    obtain ⟨acts, ha, honce, hresumed, hremoved, hmarker⟩ :=
      cycle_cleans_up bench hw 1 (fresh .absent) s' _ hs
    have hacts : s'.acts = acts := ha
    refine ⟨s', hs, hacts ▸ honce, hstatus, hresumed 1 (hacts ▸ hpause),
      hremoved _ (hacts ▸ hdownload), ?_⟩
    rcases hmarker with hm | hm | hm
    · exact hm.1
    · exact hm.1
    · exact hm.1

/-- An interrupted flash. -/
def benchMarker : Marker where
  convergenceId := 7
  slot := 1
  moduleUid := "fm-1"
  targetVersion := "2.0"
  oldVersion := "1.0"
  artifact := "sim"
  path := "/var/lib/fw/conv7-2.0.native_sim"
  phase := .flashing
  snapshot := none
  checksum := ""

/-- Without a backend the cycle returns before it looks at the marker. -/
theorem marker_kept_without_backend : ∃ (w : World) (s' : State), w.Removable ∧
      runOnce w 1 (fresh (.stored benchMarker)) = some (.ok none, s') ∧
      s'.marker = .stored benchMarker :=
  ⟨{ bench with enabled := false }, _, ⟨fun _ => rfl, fun _ _ _ _ _ => rfl⟩, rfl, rfl⟩

end StationManager.Agent.ModuleOta
