import StationManager.Agent.SimBackend

/-!
# StationManager.Agent.SimSafety

A flash of the simulator is crash safe.  Whatever raises and wherever the agent
ends, without the marker the live binary is the committed one, and with it the
binary from before the flash is kept as `.prev`; a startup recovery in which
nothing raises ends without the marker.

A flash that passed its verification is committed by removing the marker.  If
that fails, a later recovery takes the binary back: `passed_flash_rolled_back` is
such a run.
-/

namespace StationManager.Agent.SimBackend

/-! ## the invariant -/

namespace State

def live (s : State) : Option Bytes := s.dir.content .live

def prev (s : State) : Option Bytes := s.dir.content .prev

def marked (s : State) : Bool := s.dir.has .pending

/-- What holds at every point. -/
structure Safe (s : State) : Prop where
  unmarked : s.marked = false → s.live = s.committed
  marked : s.marked = true → s.prev = s.before ∧ s.before = s.committed

/-- What holds before a call, besides. -/
def Before (s : State) : Pc → Prop
  | .idle | .verifiedClear | .verifiedSync => True
  | .stageClear _ | .stageCreate _ | .stageHash _ | .stageDrop | .prevClear | .prevLink =>
    s.marked = false ∧ s.before = s.live
  | .stageCopy _ => s.marked = false ∧ s.before = s.live ∧ s.dir.Unlinked .new
  | .pendingTouch => s.marked = false ∧ s.before = s.live ∧ s.prev = s.live
  | .pendingSync | .pendingSyncDir => s.marked = true ∧ s.live = s.committed
  | .cleanNew | .cleanPending => s.live = s.committed
  | .install | .installSync | .restart | .rbClear _ | .rbLink _ => s.marked = true
  | .rbReplace _ => s.marked = true ∧ s.dir.content .rb = s.committed
  | .rbUnlink _ => s.marked = true ∧ s.prev = none
  | .rbSync _ | .rbRestart _ | .rbDropNew _ | .rbDropRb _ | .rbDropPending _ =>
    s.marked = true ∧ s.live = s.committed
  | .rbEnd _ => s.marked = false

structure Good (s : State) : Prop where
  safe : s.Safe
  next : s.Before s.pc

end State

open State

variable {sha256 : Bytes → String} {s s' : State}

theorem State.Safe.of_unmarked (hm : s.marked = false) (h : s.live = s.committed) : s.Safe :=
  ⟨fun _ => h, fun hm' => absurd (hm.symm.trans hm') (by decide)⟩

theorem State.Safe.of_marked (hm : s.marked = true) (hprev : s.prev = s.before)
    (hbefore : s.before = s.committed) : s.Safe :=
  ⟨fun hm' => absurd (hm.symm.trans hm') (by decide), fun _ => ⟨hprev, hbefore⟩⟩

/-- A step that leaves the live binary, `.prev` and the marker alone. -/
structure Keeps (s s' : State) : Prop where
  live : s'.live = s.live
  prev : s'.prev = s.prev
  marked : s'.marked = s.marked
  before : s'.before = s.before
  committed : s'.committed = s.committed

theorem Keeps.safe (h : Keeps s s') (hs : s.Safe) : s'.Safe := by
  refine ⟨?_, ?_⟩ <;> rw [h.marked]
  · rw [h.live, h.committed]
    exact hs.unmarked
  · rw [h.prev, h.before, h.committed]
    exact hs.marked

theorem keeps_goto (s : State) (pc : Pc) : Keeps s (s.goto pc) := ⟨rfl, rfl, rfl, rfl, rfl⟩

theorem State.Good.goto (hs : s.Safe) {pc : Pc} (h : s.Before pc) : (s.goto pc).Good :=
  ⟨(keeps_goto s pc).safe hs, by cases pc <;> exact h⟩

theorem State.Good.exit (hs : s.Safe) (r : Returned) : (s.exit r).Good := by
  have hkeep : Keeps s (s.exit r) := ⟨rfl, rfl, rfl, rfl, rfl⟩
  exact ⟨hkeep.safe hs, trivial⟩

theorem State.Good.startRollback (hs : s.Safe) (hm : s.marked = true) (k : Caller) :
    (s.startRollback k).Good := by
  unfold State.startRollback
  split
  · exact .goto hs hm
  · next hprev => exact .goto hs ⟨hm, Directory.content_eq_none.mpr (Bool.eq_false_iff.mpr hprev)⟩

theorem State.Good.startStage (hs : s.Safe) (hm : s.marked = false) (job : Job) :
    (s.startStage job).Good where
  safe := .of_unmarked hm (hs.unmarked hm)
  next := ⟨hm, rfl⟩

theorem State.Good.endRollback (hs : s.Safe) {done : Bool} (hm : done = true → s.marked = false)
    (k : Caller) : (s.endRollback done k).Good := by
  cases k with
  | reflash job =>
    simp only [State.endRollback]
    split
    · next hdone => exact .startStage hs (hm hdone) job
    · exact .exit hs _
  | failed | afterVerify | recover | startupRecover | direct => exact .exit hs _

/-- A call that raises. -/
theorem State.Good.fail (h : s.Good) (written : Bytes) : (s.fail written).Good := by
  obtain ⟨hs, hb⟩ := h
  unfold State.fail
  cases hpc : s.pc <;> rw [hpc] at hb <;> dsimp only
  case idle => exact ⟨hs, by rw [hpc]; trivial⟩
  case stageCopy =>
      have hkeep : Keeps s { s with dir := s.dir.write .new written } :=
        ⟨Directory.content_write hb.2.2 (by decide), Directory.content_write hb.2.2 (by decide),
          rfl, rfl, rfl⟩
      exact .goto (hkeep.safe hs) ((Directory.content_write hb.2.2 (by decide)).trans
        (hs.unmarked hb.1))
  case cleanNew => exact .goto hs hb
  case cleanPending => exact .exit hs _
  case install | installSync | restart => exact .startRollback hs hb _
  case pendingSync | pendingSyncDir => exact .goto hs hb.2
  case verifiedClear | verifiedSync => exact .exit hs _
  case rbClear | rbLink | rbReplace | rbUnlink | rbSync | rbRestart | rbDropNew | rbDropRb
    | rbDropPending | rbEnd => exact .endRollback hs (by rintro ⟨⟩) _
  all_goals exact .goto hs (hs.unmarked hb.1)

/-- Removing a name that is not looked at. -/
theorem keeps_unlink (s : State) {n : Name} (hn : n = .new ∨ n = .rb) :
    Keeps s { s with dir := s.dir.unlink n } := by
  rcases hn with rfl | rfl <;> refine ⟨?_, ?_, ?_, rfl, rfl⟩ <;>
    simp [State.live, State.prev, State.marked]

theorem unmarked_unlink (s : State) :
    { s with dir := s.dir.unlink .pending : State }.marked = false := by
  simp [State.marked]

/-- The marker is removed while the live binary is the committed one. -/
theorem State.Safe.unmark (hlive : s.live = s.committed) :
    { s with dir := s.dir.unlink .pending : State }.Safe := by
  have hlive' : { s with dir := s.dir.unlink .pending : State }.live = s.live := by
    simp [State.live]
  exact .of_unmarked (unmarked_unlink s) (hlive'.trans hlive)

/-- A call that changes the directory or raises. -/
theorem State.Good.change (h : s.Good) {dir : Option (Directory Name Bytes)} {pc : Pc}
    (hdir : ∀ d, dir = some d → { s with dir := d : State }.Safe ∧
      { s with dir := d : State }.Before pc) : (s.change dir pc).Good := by
  cases dir with
  | none => exact h.fail []
  | some d =>
    obtain ⟨hs, hb⟩ := hdir d rfl
    exact .goto hs hb

/-- A call that works. -/
theorem State.Good.advance (h : s.Good) : (s.advance sha256).Good := by
  have hs := h.safe
  have hb := h.next
  unfold State.advance
  cases hpc : s.pc <;> rw [hpc] at hb <;> dsimp only
  case idle => exact ⟨hs, by rw [hpc]; trivial⟩
  case stageClear job =>
      have hkeep := keeps_unlink s (.inl rfl)
      split
      · exact .goto (hkeep.safe hs) ⟨hkeep.marked.trans hb.1, by rw [hkeep.live]; exact hb.2⟩
      · exact .exit (hkeep.safe hs) _
  case stageCreate job =>
      refine h.change fun d hd => ?_
      have hkeep : Keeps s { s with dir := d } := by
        refine ⟨Directory.content_create hd (by decide), Directory.content_create hd (by decide),
          ?_, rfl, rfl⟩
        rw [State.marked, State.marked, Directory.has_eq, Directory.has_eq,
          Directory.content_create hd (by decide)]
      exact ⟨hkeep.safe hs, hkeep.marked.trans hb.1, hb.2.trans hkeep.live.symm,
        Directory.unlinked_create hd⟩
  case stageCopy job =>
      refine h.change fun d hd => ?_
      obtain ⟨bytes, -, rfl⟩ := Option.map_eq_some_iff.mp hd
      have hkeep : Keeps s { s with dir := s.dir.write .new bytes } :=
        ⟨Directory.content_write hb.2.2 (by decide), Directory.content_write hb.2.2 (by decide),
          rfl, rfl, rfl⟩
      exact ⟨hkeep.safe hs, hb.1, hb.2.1.trans hkeep.live.symm⟩
  case stageHash job =>
      refine .goto hs ?_
      split <;> exact hb
  case stageDrop => exact .exit ((keeps_unlink s (.inl rfl)).safe hs) _
  case prevClear =>
      have hlive : { s with dir := s.dir.unlink .prev : State }.live = s.live := by
        simp [State.live]
      have hmarked : { s with dir := s.dir.unlink .prev : State }.marked = false := by
        simpa [State.marked] using hb.1
      have hsafe : { s with dir := s.dir.unlink .prev : State }.Safe :=
        .of_unmarked hmarked (hlive.trans (hs.unmarked hb.1))
      split
      · exact .goto hsafe ⟨hmarked, hb.2.trans hlive.symm⟩
      · next hnone =>
        refine .goto hsafe ⟨hmarked, hb.2.trans hlive.symm, ?_⟩
        have hgone : s.live = none :=
          Directory.content_eq_none.mpr (Bool.eq_false_iff.mpr hnone)
        rw [hlive, hgone]
        simp [State.prev]
  case prevLink =>
      refine h.change fun d hd => ?_
      have hlive : { s with dir := d : State }.live = s.live := Directory.content_link hd
      have hmarked : { s with dir := d : State }.marked = false :=
        (Directory.has_link hd (by decide)).trans hb.1
      have hprev : { s with dir := d : State }.prev = s.live := Directory.content_link hd
      exact ⟨.of_unmarked hmarked (hlive.trans (hs.unmarked hb.1)), hmarked,
        hb.2.trans hlive.symm, hprev.trans hlive.symm⟩
  case pendingTouch =>
      have hlive : { s with dir := s.dir.touch .pending [] : State }.live = s.live :=
        Directory.content_touch (by decide)
      have hprev : { s with dir := s.dir.touch .pending [] : State }.prev = s.prev :=
        Directory.content_touch (by decide)
      have hmarked : { s with dir := s.dir.touch .pending [] : State }.marked = true :=
        Directory.has_touch
      have hsafe : { s with dir := s.dir.touch .pending [] : State }.Safe :=
        .of_marked hmarked (hprev.trans (hb.2.2.trans hb.2.1.symm))
          (hb.2.1.trans (hs.unmarked hb.1))
      exact .goto hsafe ⟨hmarked, hlive.trans (hs.unmarked hb.1)⟩
  case pendingSync => exact .goto hs hb
  case pendingSyncDir => exact .goto hs hb.1
  case cleanNew =>
      have hkeep := keeps_unlink s (.inl rfl)
      exact .goto (hkeep.safe hs) (hkeep.live.trans hb)
  case cleanPending => exact .exit (.unmark hb) _
  case install =>
      refine h.change fun d hd => ?_
      have hmarked : { s with dir := d : State }.marked = true :=
        (Directory.has_replace hd (by decide) (by decide)).trans hb
      have hprev : { s with dir := d : State }.prev = s.prev :=
        Directory.content_replace hd (by decide)
      exact ⟨.of_marked hmarked (hprev.trans (hs.marked hb).1) (hs.marked hb).2, hmarked⟩
  case installSync => exact .goto hs hb
  case restart => exact .exit hs _
  case rbClear k =>
      have hkeep := keeps_unlink s (.inr rfl)
      exact .goto (hkeep.safe hs) (hkeep.marked.trans hb)
  case rbLink k =>
      refine h.change fun d hd => ?_
      have hkeep : Keeps s { s with dir := d } :=
        ⟨Directory.content_link hd, Directory.content_link hd, Directory.has_link hd (by decide),
          rfl, rfl⟩
      have hrb : d.content .rb = s.prev := Directory.content_link hd
      exact ⟨hkeep.safe hs, hkeep.marked.trans hb,
        hrb.trans ((hs.marked hb).1.trans (hs.marked hb).2)⟩
  case rbReplace k =>
      refine h.change fun d hd => ?_
      have hmarked : { s with dir := d : State }.marked = true :=
        (Directory.has_replace hd (by decide) (by decide)).trans hb.1
      have hprev : { s with dir := d : State }.prev = s.prev :=
        Directory.content_replace hd (by decide)
      have hlive : { s with dir := d : State }.live = s.committed :=
        (Directory.content_replace hd (by decide)).trans hb.2
      exact ⟨.of_marked hmarked (hprev.trans (hs.marked hb.1).1) (hs.marked hb.1).2, hmarked,
        hlive⟩
  case rbUnlink k =>
      have hmarked : { s with dir := s.dir.unlink .live : State }.marked = true := by
        simpa [State.marked] using hb.1
      have hprev : { s with dir := s.dir.unlink .live : State }.prev = s.prev := by
        simp [State.prev]
      have hlive : { s with dir := s.dir.unlink .live : State }.live = s.committed := by
        rw [← (hs.marked hb.1).2, ← (hs.marked hb.1).1, hb.2]
        simp [State.live]
      have hsafe : { s with dir := s.dir.unlink .live : State }.Safe :=
        .of_marked hmarked (hprev.trans (hs.marked hb.1).1) (hs.marked hb.1).2
      exact .goto hsafe ⟨hmarked, hlive⟩
  case rbSync k => exact .goto hs hb
  case rbRestart k => exact .goto hs hb
  case rbDropNew k =>
      have hkeep := keeps_unlink s (.inl rfl)
      exact .goto (hkeep.safe hs) ⟨hkeep.marked.trans hb.1, hkeep.live.trans hb.2⟩
  case rbDropRb k =>
      have hkeep := keeps_unlink s (.inr rfl)
      exact .goto (hkeep.safe hs) ⟨hkeep.marked.trans hb.1, hkeep.live.trans hb.2⟩
  case rbDropPending k => exact .goto (.unmark hb.2) (unmarked_unlink s)
  case rbEnd k => exact .endRollback hs (fun _ => hb) k
  case verifiedClear =>
      have hsafe : { s with committed := s.dir.content .live : State }.live =
          { s with committed := s.dir.content .live : State }.committed := rfl
      exact .goto (State.Safe.unmark hsafe) trivial
  case verifiedSync => exact .exit hs _

theorem State.Good.call (h : s.Good) {op : Operation}
    (hop : op matches .rollback → s.marked = true) : (s.call op).Good := by
  have hs := h.safe
  cases op with
  | flash present job =>
    simp only [State.call]
    split
    · exact .exit hs _
    · split
      · next hm => exact .startRollback hs hm _
      · next hm => exact .startStage hs (Bool.eq_false_iff.mpr hm) job
  | afterVerify success =>
    cases success with
    | true =>
      have hkeep : Keeps s { s with passed := s.dir.content .live } := ⟨rfl, rfl, rfl, rfl, rfl⟩
      exact .goto (hkeep.safe hs) trivial
    | false =>
      simp only [State.call]
      split
      · next hm => exact .startRollback hs hm _
      · exact .exit hs _
  | rollback => exact .startRollback hs (hop rfl) _
  | recover | startupRecover =>
    simp only [State.call]
    split
    · next hm => exact .startRollback hs hm _
    · exact .exit hs _

theorem State.Good.crash (h : s.Good) (written : Bytes) : (s.crash written).Good := by
  obtain ⟨hs, hb⟩ := h
  unfold State.crash
  split
  · next job hpc =>
    rw [hpc] at hb
    have hkeep : Keeps s
        { s with dir := s.dir.write .new written, pc := .idle, returned := none } :=
      ⟨Directory.content_write hb.2.2 (by decide), Directory.content_write hb.2.2 (by decide),
        rfl, rfl, rfl⟩
    exact ⟨hkeep.safe hs, trivial⟩
  · have hkeep : Keeps s { s with pc := .idle, returned := none } := ⟨rfl, rfl, rfl, rfl, rfl⟩
    exact ⟨hkeep.safe hs, trivial⟩

/-- `rollback` is called without the marker; no caller of the agent does that. -/
def misuses (s : State) : Label → Bool
  | .call .rollback => !s.marked
  | _ => false

theorem State.Good.step (h : s.Good) {l : Label} (hok : misuses s l = false)
    (hs : step sha256 s l = some s') : s'.Good := by
  cases l with
  | call op =>
    simp only [SimBackend.step] at hs
    split at hs
    · cases hs
      refine h.call fun hop => ?_
      cases op <;> cases hop
      simpa [misuses] using hok
    · cases hs
  | ok =>
    simp only [SimBackend.step] at hs
    split at hs
    · cases hs
    · cases hs
      exact h.advance
  | error written =>
    simp only [SimBackend.step] at hs
    split at hs
    · cases hs
    · cases hs
      exact h.fail written
  | crash written =>
    cases hs
    exact h.crash written

/-! ## recovery -/

/-- Nothing raises from here on until the operation ends, without the marker. -/
def Recovers (sha256 : Bytes → String) (s : State) : Prop :=
  ∃ n s', run (step sha256) s (List.replicate n .ok) = some s' ∧ s'.pc = .idle ∧ s'.marked = false

theorem Recovers.advance (h : Recovers sha256 (s.advance sha256)) (hpc : s.pc ≠ .idle) :
    Recovers sha256 s := by
  obtain ⟨n, s', hrun, hidle, hm⟩ := h
  refine ⟨n + 1, s', ?_, hidle, hm⟩
  have hstep : step sha256 s .ok = some (s.advance sha256) := by
    simp only [step]
    split
    · next h => cases hp : s.pc <;> simp_all
    · rfl
  rw [List.replicate_succ, run, hstep]
  exact hrun

/-- Once the old binary is back the marker is removed. -/
theorem recovers_sync (hpc : s.pc = .rbSync .startupRecover) : Recovers sha256 s := by
  obtain ⟨dir, pc, returned, before, passed, committed⟩ := s
  cases hpc
  exact ⟨6, _, rfl, rfl, unmarked_unlink
    ⟨(dir.unlink .new).unlink .rb, .idle, returned, before, passed, committed⟩⟩

theorem recovers_rollback (s : State) : Recovers sha256 (s.startRollback .startupRecover) := by
  obtain ⟨dir, pc, returned, before, passed, committed⟩ := s
  unfold State.startRollback
  split
  · next hprev =>
    have hprev' : (dir.unlink .rb).has .prev = true := by simpa using hprev
    obtain ⟨d, hd⟩ := Directory.link_eq_some .rb hprev' (by simp)
    have hrb : d.has .rb = true := by
      rw [Directory.has_eq, Directory.content_link hd, if_pos rfl, ← Directory.has_eq]
      exact hprev'
    obtain ⟨d', hd'⟩ := Directory.replace_eq_some .live hrb
    refine Recovers.advance (Recovers.advance ?_ (by rintro ⟨⟩)) (by rintro ⟨⟩)
    show Recovers sha256 (State.change _ ((dir.unlink .rb).link .prev .rb) _)
    rw [hd]
    refine Recovers.advance ?_ (by rintro ⟨⟩)
    show Recovers sha256 (State.change _ (d.replace .rb .live) _)
    rw [hd']
    exact recovers_sync rfl
  · refine Recovers.advance ?_ (by rintro ⟨⟩)
    exact recovers_sync rfl

/-- A startup recovery in which nothing raises ends without the marker. -/
theorem recovers_startup (s : State) : Recovers sha256 (s.call .startupRecover) := by
  simp only [State.call]
  split
  · exact recovers_rollback s
  · next hm => exact ⟨0, _, rfl, rfl, Bool.eq_false_iff.mpr hm⟩

/-! ## runs -/

/-- No flash is in progress, and the live binary, if there is one, counts as verified. -/
structure Init (s : State) : Prop where
  pc : s.pc = .idle
  marked : s.marked = false
  committed : s.committed = s.live

theorem good_init (h : Init s) : s.Good :=
  ⟨.of_unmarked h.marked h.committed.symm, by rw [h.pc]; trivial⟩

/-- **A flash is crash safe.**  Whatever raises and wherever the agent ends: without the
marker the live binary is the last committed one, with the marker `.prev` is the
live binary from before the flash, and a startup recovery in which nothing raises
ends without the marker. -/
theorem flash_crash_safe (sha256 : Bytes → String) (s₀ s : State) (h₀ : Init s₀)
    (h : Reachable (step sha256) (fun s l => misuses s l = false) s₀ s) :
    (s.dir.has .pending = false → s.dir.content .live = s.committed) ∧
    (s.dir.has .pending = true → s.dir.content .prev = s.before ∧ s.before = s.committed) ∧
    (s.pc = .idle → ∃ n s', run (step sha256) s
      (.call .startupRecover :: List.replicate n .ok) = some s' ∧
        s'.pc = .idle ∧ s'.dir.has .pending = false) := by
  have hg : s.Good := h.invariant (P := State.Good) (good_init h₀) fun _ _ _ hg hok hs =>
    hg.step hok hs
  refine ⟨hg.safe.unmarked, hg.safe.marked, fun hpc => ?_⟩
  have hrec : Recovers sha256 (s.call .startupRecover) := recovers_startup s
  obtain ⟨n, s', hrun, hidle, hm⟩ := hrec
  refine ⟨n, s', ?_, hidle, hm⟩
  have hstep : step sha256 s (.call .startupRecover) = some (s.call .startupRecover) := by
    simp [step, hpc]
  rw [run, hstep]
  exact hrun

/-! ## examples -/

/-- A checksum for the examples. -/
def sixtyFour (b : Bytes) : String :=
  String.ofList (List.replicate 64 (if b = [] then '0' else '1'))

def emptyDir : State where
  dir := ⟨fun _ => none, fun _ => [], 0, by simp⟩
  pc := .idle
  returned := none
  before := none
  passed := none
  committed := none

theorem emptyDir_init : Init emptyDir := ⟨rfl, rfl, rfl⟩

def firstFlash : List Label :=
  .call (.flash true ⟨some [7], sixtyFour [7]⟩) :: List.replicate 11 .ok

/-- The first flash is verified.  The copy of a second one raises, and the agent ends after a
third one has installed its binary. -/
def crashedFlash : List Label :=
  firstFlash ++ [.call (.afterVerify true), .ok, .ok] ++
    [.call (.flash true ⟨some [8], sixtyFour [8]⟩), .ok, .ok, .error [9], .ok, .ok] ++
    .call (.flash true ⟨some [8], sixtyFour [8]⟩) :: List.replicate 10 .ok ++ [.crash []]

/-- The verified binary is still there, and a recovery finds it. -/
theorem flash_crash_safe_verified : ∃ s : State,
    Reachable (step sixtyFour) (fun s l => misuses s l = false) emptyDir s ∧
      s.dir.content .live = some [8] ∧ s.dir.content .prev = some [7] ∧
      ∃ n s', run (step sixtyFour) s (.call .startupRecover :: List.replicate n .ok) = some s' ∧
        s'.dir.has .pending = false := by
  obtain ⟨s, hreach, hpc, hm, hlive, hc⟩ := exists_avoiding (step sixtyFour) misuses emptyDir
    crashedFlash (P := fun s => (step sixtyFour s (.call .startupRecover)).isSome = true ∧
      s.dir.has .pending = true ∧ s.dir.content .live = some [8] ∧ s.committed = some [7])
    (by decide +kernel)
  have hidle : s.pc = .idle := by
    cases hs : s.pc <;> first | rfl | (rw [step, hs] at hpc; cases hpc)
  obtain ⟨-, hmarked, hrecovers⟩ := flash_crash_safe sixtyFour emptyDir s emptyDir_init hreach
  obtain ⟨n, s', hrun, -, hclean⟩ := hrecovers hidle
  exact ⟨s, hreach, hlive, (hmarked hm).1.trans ((hmarked hm).2.trans hc), n, s', hrun, hclean⟩

/-- The flash is reported as verified, but the marker cannot be removed, and the next start
takes the binary back. -/
def unlinkFails : List Label :=
  firstFlash ++ [.call (.afterVerify true), .error [], .crash [], .call .startupRecover] ++
    List.replicate 7 .ok

/-- The flash ends in a crash; the startup recovery restarts the harness but cannot clean
up. -/
def cleanupFails : List Label :=
  firstFlash ++ [.crash [], .call .startupRecover, .ok, .ok, .ok, .error []]

/-- Without the marker the live binary is not the one that was last verified; and a startup
recovery ends with the marker although its restart succeeded. -/
theorem passed_flash_rolled_back :
    (∃ s : State, Reachable (step sixtyFour) (fun _ _ => True) emptyDir s ∧ s.pc matches .idle ∧
      s.dir.has .pending = false ∧ s.passed = some [7] ∧ s.dir.content .live = none) ∧
    ∃ s : State, Reachable (step sixtyFour) (fun _ _ => True) emptyDir s ∧ s.pc matches .idle ∧
      s.returned = some .nothing ∧ s.dir.has .pending = true := by
  constructor
  · exact exists_reachable (step sixtyFour) emptyDir unlinkFails (by decide +kernel)
  · exact exists_reachable (step sixtyFour) emptyDir cleanupFails (by decide +kernel)

end StationManager.Agent.SimBackend
