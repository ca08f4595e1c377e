import StationManager.Agent.Guard

/-!
# StationManager.Agent.DeadMan

A keyed transmitter is guarded: after a `ptt true` line a dead-man timer is
armed or an un-key is ahead, until a `ptt false` line is written.  Every step of
the broker keeps this unless `exposes` names it.

The guard fails where the code trusts the reply and not the line.  A key whose
reply is lost is reported as a failure and gets no timer, although the line has
been written (`keyed_without_dead_man`).
-/

namespace StationManager.Agent.Broker

open Telemetry (Addr)

/-! ## commands -/

variable {a : Addr} {virtual : Addr → Bool} {e : Event} {job : Job} {t : Nat} {o : Outcome}
  {phase phase' : Phase} {s s' s₁ : State} {cap : String} {texts : Texts}

theorem mem_ops_of_validateCommand {cap : Capability} {op : String} {value : Json}
    (h : validateCommand texts (some cap) op value = .ok ()) : op ∈ opsForKind cap.kind := by
  simp only [validateCommand] at h
  split at h
  · cases h
  · split at h
    · cases h
    · next hop => exact Classical.not_not.mp hop

/-- Only actions are done. -/
theorem kind_of_do {kind : String} (h : "do" ∈ opsForKind kind) : kind = "action" := by
  simp only [opsForKind] at h
  split at h
  · simp at h
  · split at h
    · assumption
    · split at h <;> simp at h

/-- The job of a command, provided that `ptt` is a boolean action. -/
theorem jobOf_ok {id : RequestId} {caps : List Capability} {capability op : String} {value : Json}
    (h : jobOf texts id a caps capability op value = .ok job)
    (hbool : op = "do" → capability = "ptt" →
      ∀ cap, findCapability caps "ptt" = some cap → cap.type = "bool") : JobOk job := by
  cases hf : findCapability caps capability with
  | none =>
    simp only [jobOf, hf] at h
    cases h
  | some cap =>
    simp only [jobOf, hf] at h
    have hname : cap.name = capability := by simpa using List.find?_some hf
    cases hv : validateCommand texts (some cap) op value with
    | error e =>
      rw [hv] at h
      cases h
    | ok _ =>
      rw [hv] at h
      cases h
      constructor
      · intro b hb
        cases value with
        | null => cases hb
        | other => cases hb
        | scalar v =>
          cases v with
          | bool v =>
            simp only [Option.ite_none_right_eq_some, isPttCap, Bool.and_eq_true,
              decide_eq_true_eq, Option.some.injEq] at hb
            obtain ⟨⟨rfl, ⟨-, htype⟩, hptt⟩, rfl⟩ := hb
            rw [hname] at hptt
            cases v <;> simp [Line.ptt?, hptt, formatValue, htype]
          | int _ => cases hb
          | float _ => cases hb
          | str _ => cases hb
      · intro hnone hline
        simp only [Line.ptt?] at hline
        split at hline
        · next hdo =>
          obtain ⟨rfl, rfl⟩ := hdo
          have htype := hbool rfl rfl cap hf
          have hkind := kind_of_do (mem_ops_of_validateCommand hv)
          obtain ⟨b, rfl, -⟩ := bool_of_validateCommand hv (by decide) htype
          simp [isPttCap, hkind, htype, hname] at hnone
        · cases hline

theorem cap_of_ptt? {l : Line} {b : Bool} (h : l.ptt? = some b) : l.cap = "ptt" := by
  simp only [Line.ptt?] at h
  split at h
  · next hdo => exact hdo.2
  · cases h

/-- A reply that confirms. -/
theorem Inv.endCommand_ok (h : Inv s) (hh : s.handler = .command job .written) :
    Inv (s.endCommand job .ok) := by
  have hok := h.handler
  rw [hh] at hok
  obtain ⟨hjob, hin, hfalse⟩ := hok
  have hframe := disarm_frame s job.line.addr
  -- once settled, a module that the handler was keying has a timer
  obtain ⟨hsettled, hguard⟩ : Inv (s.settle job .ok) ∧
      ∀ a, (s.settle job .ok).handler.shields a →
        ((s.settle job .ok).ptt.get? a).isSome = true := by
    cases hptt : job.ptt with
    | none =>
      rw [show s.settle job .ok = s by simp [State.settle, hptt]]
      refine ⟨h, fun a ha => ?_⟩
      rw [hh] at ha
      have := ha.1
      simp [hptt] at this
    | some b =>
      have hcap := cap_of_ptt? (hjob.line b hptt)
      cases b with
      | true =>
        rw [show s.settle job .ok = s.arm job.line.addr "ptt" by
          simp [State.settle, hptt, hcap]]
        constructor
        · apply h.arm
          simp only [State.arm, hframe.2.1, hh, State.HandlerOk, hframe.1, hframe.2.2]
          exact ⟨hjob, hin, fun hp _ => hfalse hp rfl⟩
        · intro a ha
          have hshield : s.handler.shields a := by simpa [State.arm, hframe.2.1] using ha
          rw [hh] at hshield
          obtain ⟨-, rfl, -⟩ := hshield
          simp [State.arm, Table.get?_insert]
      | false =>
        rw [show s.settle job .ok = s.disarm job.line.addr by simp [State.settle, hptt]]
        constructor
        · apply h.disarm (hfalse hptt rfl)
          simp only [hh, State.HandlerOk, hframe.1, hframe.2.2]
          exact ⟨hjob, hin, fun hp _ => hfalse hp rfl⟩
        · intro a ha
          rw [hframe.2.1, hh] at ha
          have := ha.1
          simp [hptt] at this
  exact hsettled.moved rfl rfl rfl rfl trivial fun a ha _ => .inr (hguard a ha)

/-- A command that fails leaves timers and lines as they are. -/
theorem Inv.endCommand_error {code : Code} (h : Inv s)
    (hguard : ∀ a, s.handler.shields a → keyed s.wire a = true → (s.ptt.get? a).isSome = true) :
    Inv (s.endCommand job (.error code)) :=
  h.moved rfl rfl rfl rfl trivial fun a ha hk => .inr (hguard a ha hk)

/-- The handler moves on from where it guards nothing. -/
theorem Inv.free (h : Inv s) (hno : ∀ a, ¬ s.handler.shields a) (hptt : s'.ptt = s.ptt)
    (htasks : s'.tasks = s.tasks) (hnext : s'.next = s.next) (hwire : s'.wire = s.wire)
    (hok : s'.HandlerOk s'.handler) : Inv s' :=
  h.moved hptt htasks hnext hwire hok fun a ha => absurd ha (hno a)

theorem Inv.beginCommand (h : Inv s) (hjob : JobOk job) (hno : ∀ a, ¬ s.handler.shields a)
    (hh : ∀ s' : State, s'.HandlerOk s.handler) : Inv (s.beginCommand job) := by
  simp only [State.beginCommand]
  generalize hs' : (if job.ptt.isSome = true then
    { s with inflight := s.inflight.insert job.line.addr } else s) = s'
  have hopen : Inv s' := by
    rw [← hs']
    split
    · exact h.free hno rfl rfl rfl rfl (hh _)
    · exact h
  have hhandler : s'.handler = s.handler := by
    rw [← hs']
    split <;> rfl
  have hno' : ∀ a, ¬ s'.handler.shields a := by rwa [hhandler]
  split
  · exact hopen.endCommand_error fun a ha => absurd ha (hno' a)
  · refine hopen.free hno' rfl rfl rfl rfl ⟨hjob, fun hsome => ?_, nofun⟩
    rw [← hs', if_pos hsome]
    exact List.mem_insert_self

/-- What the descriptor of a module calls `ptt` is not a boolean action. -/
def mislabelled (s : State) (c : Command) : Bool :=
  match c.slot, c.module with
  | some slot, some module =>
    c.op = some "do" && c.capability = some "ptt" &&
      (((s.descriptors.get? (slot, module)).bind (findCapability · "ptt")).any
        (·.type ≠ "bool"))
  | _, _ => false

theorem Inv.handleCommand {c : Command} (h : Inv s) (hidle : s.handler = .idle)
    (hc : mislabelled s c = false) : Inv (s.handleCommand texts virtual c) := by
  have hno : ∀ a, ¬ s.handler.shields a := by simp [hidle, Handler.shields]
  have hreject : ∀ e, Inv (s.reject c.id e) := fun e => h.congr rfl rfl rfl rfl rfl rfl
  simp only [State.handleCommand]
  split
  · exact h
  · split
    · next slot module capability op hslot hmodule hcap hop =>
      split
      · exact hreject _
      · next caps hcaps =>
        split
        · exact h
        · split
          · exact hreject _
          · exact h
          · next job hjob =>
            have hok : JobOk job := by
              apply jobOf_ok hjob
              rintro rfl rfl cap hfind
              simpa [mislabelled, hslot, hmodule, hcap, hop, hcaps, hfind] using hc
            split
            · exact h.free hno rfl rfl rfl rfl hok
            · apply h.beginCommand hok hno
              intro s'
              rw [hidle]
              trivial
    · exact hreject _

theorem Inv.handleKeepalive (h : Inv s) (hidle : s.handler = .idle) (slot : Option Int)
    (module : Option String) : Inv (s.handleKeepalive slot module) := by
  simp only [State.handleKeepalive]
  split
  · next slot module =>
    split
    · exact h
    · next entry hentry =>
      rw [(h.entries _ entry hentry).1]
      apply h.arm
      simp only [State.arm, (disarm_frame s (slot, module)).2.1, hidle, State.HandlerOk]
  · exact h

/-! ## presets -/

theorem Inv.nextSetting (h : Inv s) (hno : ∀ a, ¬ s.handler.shields a) (p : Preset)
    (todo : List (String × Json)) : Inv (s.nextSetting texts p todo) := by
  induction todo generalizing p with
  | nil => exact h.free hno rfl rfl rfl rfl trivial
  | cons e todo ih =>
    simp only [State.nextSetting]
    split
    · exact ih _
    · exact h.free hno rfl rfl rfl rfl trivial
    · split
      · exact h.free hno rfl rfl rfl rfl trivial
      · exact h.free hno rfl rfl rfl rfl (by simp [State.HandlerOk, Line.ptt?])

theorem Inv.endSetting (h : Inv s) (hno : ∀ a, ¬ s.handler.shields a) (p : Preset) (line : Line)
    (outcome : Outcome) : Inv (s.endSetting texts p line outcome) := by
  simp only [State.endSetting]
  split
  · exact h.nextSetting hno _ _
  · split
    · exact h.free hno rfl rfl rfl rfl trivial
    · exact h.nextSetting hno _ _

theorem Inv.applyPreset (h : Inv s) (hno : ∀ a, ¬ s.handler.shields a) (id : RequestId) (a : Addr)
    (values : List (String × Json)) : Inv (s.applyPreset texts virtual id a values) := by
  simp only [State.applyPreset]
  split
  · exact h.free hno rfl rfl rfl rfl trivial
  · split
    · exact h.free hno rfl rfl rfl rfl trivial
    · exact h.nextSetting hno _ _

theorem Inv.handleApplyPreset (h : Inv s) (hidle : s.handler = .idle) (id : RequestId)
    (slot : Option Int) (module : Option String) (values : Option (List (String × Json))) :
    Inv (s.handleApplyPreset id slot module values) := by
  have hno : ∀ a, ¬ s.handler.shields a := by simp [hidle, Handler.shields]
  have hreject : ∀ e, Inv (s.reject id e) := fun e => h.congr rfl rfl rfl rfl rfl rfl
  simp only [State.handleApplyPreset]
  split
  · exact h
  · split
    · split
      · exact hreject _
      · split
        · exact hreject _
        · exact h.free hno rfl rfl rfl rfl trivial
    · exact hreject _


/-! ## calls of the handler -/

/-- A line is written.  A `ptt true` is guarded by the handler that wrote it. -/
theorem Inv.wrote {line : Line} (h : Inv s) (hptt : s'.ptt = s.ptt) (htasks : s'.tasks = s.tasks)
    (hnext : s'.next = s.next) (hwire : s'.wire = line :: s.wire) (hok : s'.HandlerOk s'.handler)
    (hkey : line.ptt? = some true → s'.handler.shields line.addr)
    (hkeep : ∀ a, s.handler.shields a → keyed (line :: s.wire) a = true → s'.handler.shields a) :
    Inv s' where
  entries := by
    rw [hptt, htasks]
    exact h.entries
  tasks := by
    rw [htasks, hnext]
    exact h.tasks
  guarded a ha := by
    rw [hwire] at ha
    by_cases hl : line.addr = a ∧ line.ptt? = some true
    · obtain ⟨rfl, hl⟩ := hl
      exact .inr (.inr (hkey hl))
    · obtain hg | ⟨t, phase, ht⟩ | hg := h.guarded a (keyed_of_cons ha fun h₁ h₂ => hl ⟨h₁, h₂⟩)
      · exact .inl (by rwa [hptt])
      · exact .inr (.inl ⟨t, phase, by rwa [htasks]⟩)
      · exact .inr (.inr (hkeep a hg ha))
  handler := hok

theorem not_keyed_unkeyLine (a : Addr) (wire : List Line) :
    keyed (unkeyLine a "ptt" :: wire) a = false :=
  keyed_cons_self wire (ptt?_unkeyLine a)

/-- The steps that lose a guard.

* A key ends without confirmation after its line was written, and no timer is
  armed.
* A fail-safe un-key ends, or is refused, without its line.
* A timer has fired while `on_disconnect` was busy with other modules; it
  cancels the un-key of that timer and stops at the missing entry.
* A module has an action `ptt` that is not boolean. -/
def exposes (s : State) : Label → Bool
  | .handler (.finish outcome) => match s.handler with
    | .command job .written =>
      job.ptt = some true && outcome ≠ .ok && (s.ptt.get? job.line.addr).isNone
    | .unkey _ _ _ phase => phase ≠ .written
    | _ => false
  | .task t (.finish _) => match s.tasks.get? t with
    | some (.unkey _ _ phase) => phase ≠ .written
    | _ => false
  | .fire t => match s.tasks.get? t with
    | some (.sleeping a _) => a.1 ∉ s.controls
    | _ => false
  | .nextUnkey => match s.handler with
    | .disconnect ((a, entry) :: _) => s.ptt.get? a ≠ some entry || a.1 ∉ s.controls
    | _ => false
  | .message (.command c) => mislabelled s c
  | _ => false

/-- A command gets its lock or writes its line. -/
theorem Inv.command_at (h : Inv s) (hh : s.handler = .command job phase)
    (hs : s.advance job.line false phase e = some (s₁, .at phase')) :
    Inv { s₁ with handler := .command job phase' } := by
  have hok := h.handler
  rw [hh] at hok
  obtain ⟨hjob, hin, -⟩ := hok
  obtain ⟨locks, rfl, rfl, rfl⟩ | ⟨rfl, rfl, rfl⟩ := advance_at hs
  · exact h.free (by simp [hh, Handler.shields]) rfl rfl rfl rfl ⟨hjob, hin, nofun⟩
  · refine h.wrote rfl rfl rfl rfl ?_ ?_ ?_
    · refine ⟨hjob, hin, fun hptt _ => ?_⟩
      exact keyed_cons_self _ (hjob.line false hptt)
    · intro hline
      cases hptt : job.ptt with
      | none => exact absurd hline (hjob.quiet hptt)
      | some b =>
        rw [hjob.line b hptt] at hline
        cases hline
        exact ⟨hptt, rfl, rfl⟩
    · intro a ha
      rw [hh] at ha
      cases ha.2.2

/-- **A command returns.**  Without confirmation, its line has not been written
or a timer is armed already. -/
theorem Inv.command_done (h : Inv s) (hh : s.handler = .command job phase)
    (hexp : exposes s (.handler e) = false)
    (hs : s.advance job.line false phase e = some (s₁, .done o)) : Inv (s₁.endCommand job o) := by
  obtain ⟨locks, rfl, hwritten, he⟩ := advance_done hs
  have hinv : Inv { s with locks } := h.congr rfl rfl rfl rfl rfl rfl
  cases o with
  | ok =>
    rw [hwritten rfl] at hh
    exact hinv.endCommand_ok hh
  | error code =>
    apply hinv.endCommand_error
    intro a ha hk
    have hshield : s.handler.shields a := ha
    rw [hh] at hshield
    obtain ⟨hptt, rfl, rfl⟩ := hshield
    obtain rfl | ⟨hq, -⟩ := he
    · simpa [exposes, hh, hptt, Option.isSome_iff_ne_none] using hexp
    · cases hq

theorem Inv.preset_at {p : Preset} {line : Line} (h : Inv s) (hh : s.handler = .preset p line phase)
    (hs : s.advance line false phase e = some (s₁, .at phase')) :
    Inv { s₁ with handler := .preset p line phase' } := by
  have hok := h.handler
  rw [hh] at hok
  have hno : ∀ a, ¬ s.handler.shields a := by simp [hh, Handler.shields]
  obtain ⟨locks, rfl, -⟩ | ⟨rfl, -⟩ := advance_at hs
  · exact h.free hno rfl rfl rfl rfl hok
  · refine h.wrote rfl rfl rfl rfl hok ?_ ?_
    · intro hline
      rw [show line.ptt? = none from hok] at hline
      cases hline
    · intro a ha
      exact absurd ha (hno a)

/-- An un-key of `on_disconnect` gets its lock or writes its line. -/
theorem Inv.unkey_at {todo : List (Addr × Entry)} (h : Inv s)
    (hh : s.handler = .unkey a cap todo phase)
    (hs : s.advance (unkeyLine a cap) true phase e = some (s₁, .at phase')) :
    Inv { s₁ with handler := .unkey a cap todo phase' } := by
  have hok := h.handler
  rw [hh] at hok
  obtain ⟨rfl, htodo⟩ := hok
  obtain ⟨locks, rfl, rfl, rfl⟩ | ⟨rfl, rfl, rfl⟩ := advance_at hs
  · refine h.moved rfl rfl rfl rfl ⟨rfl, htodo⟩ ?_
    intro b hb _
    rw [hh] at hb
    exact .inl ⟨hb.1, nofun⟩
  · refine h.wrote rfl rfl rfl rfl ⟨rfl, htodo⟩ ?_ ?_
    · intro hline
      rw [ptt?_unkeyLine] at hline
      cases hline
    · intro b hb hk
      rw [hh] at hb
      obtain ⟨rfl, -⟩ := hb
      rw [not_keyed_unkeyLine] at hk
      cases hk

theorem Inv.unkey_done {todo : List (Addr × Entry)} (h : Inv s)
    (hh : s.handler = .unkey a cap todo phase) (hexp : exposes s (.handler e) = false)
    (hs : s.advance (unkeyLine a cap) true phase e = some (s₁, .done o)) :
    Inv ({ s₁ with handler := .disconnect todo }.announce a "ws_disconnect") := by
  have hok := h.handler
  rw [hh] at hok
  obtain ⟨locks, rfl, -, rfl | ⟨-, hf⟩⟩ := advance_done hs
  · refine h.moved rfl rfl rfl rfl hok.2 ?_
    intro b hb
    rw [hh] at hb
    have hwritten : phase = .written := by simpa [exposes, hh] using hexp
    exact absurd hwritten hb.2
  · cases hf

theorem Inv.handlerStep (h : Inv s) (hexp : exposes s (.handler e) = false)
    (hs : s.handlerStep texts e = some s') : Inv s' := by
  simp only [State.handlerStep] at hs
  split at hs
  · next hh =>
    split at hs
    · next hadv =>
      cases hs
      exact h.command_at hh hadv
    · next hadv =>
      cases hs
      exact h.command_done hh hexp hadv
    · cases hs
  · next hh =>
    split at hs
    · next hadv =>
      cases hs
      exact h.preset_at hh hadv
    · next hadv =>
      cases hs
      obtain ⟨locks, rfl, -⟩ := advance_done hadv
      have hinv : Inv { s with locks } := h.congr rfl rfl rfl rfl rfl rfl
      exact hinv.endSetting (by simp [hh, Handler.shields]) _ _ _
    · cases hs
  · next hh =>
    split at hs
    · next hadv =>
      cases hs
      exact h.unkey_at hh hadv
    · next hadv =>
      cases hs
      exact h.unkey_done hh hexp hadv
    · cases hs
  · cases hs

/-! ## dead-man tasks -/

/-- Fewer entries and fewer keyed modules leave the handler's part true. -/
theorem handlerOk_mono {hd : Handler} (h : s.HandlerOk hd)
    (hptt : ∀ a e, s'.ptt.get? a = some e → s.ptt.get? a = some e)
    (hwire : ∀ a, keyed s'.wire a = true → keyed s.wire a = true)
    (hinflight : s'.inflight = s.inflight) : s'.HandlerOk hd := by
  cases hd with
  | idle => trivial
  | holdingPreset => trivial
  | holding job => exact h
  | command job phase =>
    obtain ⟨hjob, hin, hfalse⟩ := h
    refine ⟨hjob, by rwa [hinflight], fun hp hw => ?_⟩
    have := hfalse hp hw
    by_contra hne
    rw [hwire _ (by simpa using hne)] at this
    cases this
  | preset => exact h
  | disconnect todo => exact fun a e he => h a e (hptt a e he)
  | unkey a cap todo phase => exact ⟨h.1, fun a e he => h.2 a e (hptt a e he)⟩
  | closing =>
    intro a
    cases he : s'.ptt.get? a with
    | none => rfl
    | some e =>
      have := hptt a e he
      rw [h a] at this
      cases this

/-- One task moves on; it guards its own module only. -/
theorem Inv.retask {task : Task} (h : Inv s) (ht : s.tasks.get? t = some task)
    (hptt : ∀ b e, s'.ptt.get? b = some e → s.ptt.get? b = some e ∧ e.task ≠ t)
    (hkept : ∀ b, b ≠ a → (s.ptt.get? b).isSome = true → (s'.ptt.get? b).isSome = true)
    (hnext : s'.next = s.next) (hinflight : s'.inflight = s.inflight)
    (hhandler : s'.handler = s.handler) (hother : ∀ t', t' ≠ t → s'.tasks.get? t' = s.tasks.get? t')
    (hself : ∀ task', s'.tasks.get? t = some task' → TaskOk task')
    (hwire : ∀ b, keyed s'.wire b = true → keyed s.wire b = true)
    (hmine : ∀ b phase, task = .unkey b "ptt" phase → phase ≠ .written → b = a)
    (hguard : keyed s'.wire a = true → s.Guarded a → s'.Guarded a) : Inv s' where
  entries b e hb := by
    obtain ⟨hold, hne⟩ := hptt b e hb
    rw [hother _ hne]
    exact h.entries b e hold
  tasks t' task' ht' := by
    rw [hnext]
    by_cases heq : t' = t
    · subst heq
      exact ⟨(h.tasks _ _ ht).1, hself _ ht'⟩
    · rw [hother t' heq] at ht'
      exact h.tasks _ _ ht'
  guarded b hb := by
    by_cases hba : b = a
    · subst hba
      exact hguard hb (h.guarded b (hwire b hb))
    · obtain hg | ⟨t', phase, ht', hphase⟩ | hg := h.guarded b (hwire b hb)
      · exact .inl (hkept b hba hg)
      · have hne : t' ≠ t := by
          rintro rfl
          rw [ht] at ht'
          cases ht'
          exact hba (hmine b phase rfl hphase)
        exact .inr (.inl ⟨t', phase, by rwa [hother t' hne], hphase⟩)
      · exact .inr (.inr (by rwa [hhandler]))
  handler := by
    rw [hhandler]
    exact handlerOk_mono h.handler (fun b e hb => (hptt b e hb).1) hwire hinflight

/-- A task is at another phase of its un-key: it guards its module until the line
is written. -/
theorem Inv.rephase {task : Task} (h : Inv s) (ht : s.tasks.get? t = some task)
    (htasks : s'.tasks = s.tasks.modify t fun _ => .unkey a "ptt" phase)
    (hptt : ∀ b e, s'.ptt.get? b = some e → s.ptt.get? b = some e ∧ e.task ≠ t)
    (hkept : ∀ b, b ≠ a → (s.ptt.get? b).isSome = true → (s'.ptt.get? b).isSome = true)
    (hnext : s'.next = s.next) (hinflight : s'.inflight = s.inflight)
    (hhandler : s'.handler = s.handler)
    (hwire : ∀ b, keyed s'.wire b = true → keyed s.wire b = true)
    (hmine : ∀ b phase, task = .unkey b "ptt" phase → phase ≠ .written → b = a)
    (hwritten : phase = .written → keyed s'.wire a = false) : Inv s' := by
  have hself : s'.tasks.get? t = some (.unkey a "ptt" phase) := by
    rw [htasks, Table.get?_modify_self, ht]
    rfl
  refine h.retask ht hptt hkept hnext hinflight hhandler ?_ ?_ hwire hmine ?_
  · intro t' hne
    rw [htasks, Table.get?_modify_ne _ _ hne]
  · intro task' ht'
    rw [hself] at ht'
    cases ht'
    rfl
  · intro hk _
    refine .inr (.inl ⟨t, phase, hself, fun hphase => ?_⟩)
    rw [hwritten hphase] at hk
    cases hk

/-- **The timer fires**: the un-key is ahead. -/
theorem Inv.fire (h : Inv s) (hexp : exposes s (.fire t) = false) (hs : s.fire t = some s') :
    Inv s' := by
  simp only [State.fire] at hs
  split at hs
  · next a cap ht =>
    have hcap : cap = "ptt" := (h.tasks _ _ ht).2
    subst hcap
    have hslot : a.1 ∈ s.controls := by simpa [exposes, ht] using hexp
    simp only [State.refusal, Bool.not_true, Bool.false_and, Bool.false_eq_true, if_false,
      hslot, not_true_eq_false] at hs
    cases hs
    refine h.rephase (a := a) ht rfl ?_ ?_ rfl rfl rfl (fun b hb => hb) (by rintro _ _ ⟨⟩)
      (by rintro ⟨⟩)
    · intro b e hb
      simp only [Table.get?_erase] at hb
      split at hb
      · cases hb
      · next hba =>
        refine ⟨hb, ?_⟩
        rintro rfl
        rw [(h.entries b e hb).2] at ht
        cases ht
        exact hba rfl
    · intro b hba hb
      simpa [Table.get?_erase, hba] using hb
  · cases hs

/-- The un-key of a task goes on. -/
theorem Inv.task_at (h : Inv s) (ht : s.tasks.get? t = some (.unkey a cap phase))
    (hs : s.advance (unkeyLine a cap) true phase e = some (s₁, .at phase')) :
    Inv { s₁ with tasks := s₁.tasks.modify t fun _ => .unkey a cap phase' } := by
  have hcap : cap = "ptt" := (h.tasks _ _ ht).2
  subst hcap
  have hown : ∀ b e, s.ptt.get? b = some e → s.ptt.get? b = some e ∧ e.task ≠ t :=
    fun b e hb => ⟨hb, (h.unkey_ne hb ht).symm⟩
  have hmine : ∀ b phase₁, Task.unkey a "ptt" phase = .unkey b "ptt" phase₁ →
      phase₁ ≠ .written → b = a := by
    intro b phase₁ heq _
    cases heq
    rfl
  obtain ⟨locks, rfl, rfl, rfl⟩ | ⟨rfl, rfl, rfl⟩ := advance_at hs
  · exact h.rephase ht rfl hown (fun b _ hb => hb) rfl rfl rfl (fun b hb => hb) hmine
      (by rintro ⟨⟩)
  · refine h.rephase ht rfl hown (fun b _ hb => hb) rfl rfl rfl ?_ hmine
      fun _ => not_keyed_unkeyLine a s.wire
    intro b hb
    exact keyed_of_cons hb (by simp)

/-- The un-key of a task ends after its line. -/
theorem Inv.task_done (h : Inv s) (ht : s.tasks.get? t = some (.unkey a cap phase))
    (hexp : exposes s (.task t e) = false)
    (hs : s.advance (unkeyLine a cap) true phase e = some (s₁, .done o)) :
    Inv ({ s₁ with tasks := s₁.tasks.erase t }.announce a "keepalive_timeout") := by
  obtain ⟨locks, rfl, -, rfl | ⟨-, hf⟩⟩ := advance_done hs
  · have hwritten : phase = .written := by simpa [exposes, ht] using hexp
    subst hwritten
    refine h.retask (a := a) ht (fun b e hb => ⟨hb, (h.unkey_ne hb ht).symm⟩) (fun b _ hb => hb)
      rfl rfl rfl ?_ ?_ (fun b hb => hb) ?_ ?_
    · intro t' hne
      simp [State.announce, Table.get?_erase, hne]
    · intro task' ht'
      simp [State.announce, Table.get?_erase] at ht'
    · intro b phase' heq hphase
      cases heq
      exact absurd rfl hphase
    · intro _ hg
      obtain hg | ⟨t', phase', ht', hphase⟩ | hg := hg
      · exact .inl hg
      · have hne : t' ≠ t := by
          rintro rfl
          rw [ht] at ht'
          cases ht'
          exact hphase rfl
        refine .inr (.inl ⟨t', phase', ?_, hphase⟩)
        simp only [State.announce, Table.get?_erase, if_neg hne]
        exact ht'
      · exact .inr (.inr hg)
  · cases hf

theorem Inv.taskStep (h : Inv s) (hexp : exposes s (.task t e) = false)
    (hs : s.taskStep t e = some s') : Inv s' := by
  simp only [State.taskStep] at hs
  split at hs
  · next ht =>
    split at hs
    · next hadv =>
      cases hs
      exact h.task_at ht hadv
    · next hadv =>
      cases hs
      exact h.task_done ht hexp hadv
    · cases hs
  · next l ht => exact (h.tasks _ _ ht).2.elim
  · cases hs

/-! ## disconnect -/

/-- **A round of `on_disconnect`**: the timer is replaced by the un-key. -/
theorem Inv.nextUnkey (h : Inv s) (hexp : exposes s .nextUnkey = false) (hs : s.nextUnkey = some s') :
    Inv s' := by
  have hok := h.handler
  simp only [State.nextUnkey] at hs
  split at hs
  · next hh =>
    cases hs
    rw [hh] at hok
    refine h.free (by simp [hh, Handler.shields]) rfl rfl rfl rfl ?_
    intro a
    cases he : s.ptt.get? a with
    | none => rfl
    | some e =>
      obtain ⟨e', hmem⟩ := hok a e he
      cases hmem
  · next a entry todo hh =>
    rw [hh] at hok
    obtain ⟨hentry, hslot⟩ : s.ptt.get? a = some entry ∧ a.1 ∈ s.controls := by
      simpa [exposes, hh] using hexp
    have hcap := (h.entries a entry hentry).1
    simp only [h.cancel hentry, hentry, Option.isNone_some, Bool.false_eq_true, if_false,
      State.refusal, Bool.not_true, Bool.false_and, hslot, not_true_eq_false] at hs
    cases hs
    refine ⟨?_, h.drop_tasks (a := a), ?_, hcap, ?_⟩
    · intro b e hb
      obtain ⟨hc, ht, -⟩ := h.drop_entries hentry b e hb
      exact ⟨hc, ht⟩
    · intro b hb
      by_cases hba : b = a
      · exact .inr (.inr ⟨hba.symm, by decide⟩)
      · obtain hg | hg | hg := h.drop_guarded hentry hb hba
        · exact .inl hg
        · exact .inr (.inl hg)
        · simp [State.drop, hh, Handler.shields] at hg
    · intro b e hb
      obtain ⟨-, -, hba⟩ := h.drop_entries hentry b e hb
      simp only [Table.get?_erase, if_neg hba] at hb
      obtain ⟨e', hmem⟩ := hok b e hb
      obtain heq | hmem := List.mem_cons.mp hmem
      · cases heq
        exact absurd rfl hba
      · exact ⟨e', hmem⟩
  · cases hs

theorem Inv.stop (h : Inv s) (hs : s.stop = some s') : Inv s' := by
  have hok := h.handler
  simp only [State.stop] at hs
  split at hs
  · next hh =>
    rw [hh] at hok
    have hnil : s.ptt.entries = [] := by
      rw [List.eq_nil_iff_forall_not_mem]
      intro ⟨a, e⟩ hmem
      rw [s.ptt.mem_entries_iff, hok a] at hmem
      cases hmem
    rw [hnil] at hs
    cases hs
    refine ⟨nofun, h.tasks, ?_, trivial⟩
    intro a ha
    obtain hg | hg | hg := h.guarded a ha
    · simp [hok a] at hg
    · exact .inr (.inl hg)
    · simp [hh, Handler.shields] at hg
  · cases hs

/-! ## runs -/

/-- **Every step that exposes nothing keeps the guard.** -/
theorem Inv.step {l : Label} (h : Inv s) (hexp : exposes s l = false)
    (hs : Broker.step texts virtual s l = some s') : Inv s' := by
  cases l with
  | message m =>
    simp only [Broker.step] at hs
    split at hs
    · next hidle =>
      cases hs
      cases m with
      | command c => exact h.handleCommand hidle hexp
      | keepalive slot module => exact h.handleKeepalive hidle slot module
      | applyPreset id slot module values => exact h.handleApplyPreset hidle id slot module values
      | other => exact h
    · cases hs
  | held =>
    have hok := h.handler
    simp only [Broker.step, State.held] at hs
    split at hs
    · next job hh =>
      cases hs
      rw [hh] at hok
      refine h.beginCommand hok (by simp [hh, Handler.shields]) fun s' => ?_
      rw [hh]
      exact hok
    · next hh =>
      cases hs
      exact h.applyPreset (by simp [hh, Handler.shields]) _ _ _
    · cases hs
  | handler e => exact h.handlerStep hexp hs
  | disconnect =>
    simp only [Broker.step] at hs
    split at hs
    · next hidle =>
      cases hs
      refine h.free (by simp [hidle, Handler.shields]) rfl rfl rfl rfl ?_
      intro a e he
      exact ⟨e, (s.ptt.mem_entries_iff a e).mpr he⟩
    · cases hs
  | nextUnkey => exact h.nextUnkey hexp hs
  | stop => exact h.stop hs
  | fire t => exact h.fire hexp hs
  | task t e => exact h.taskStep hexp hs
  | inventory descriptors controls =>
    cases hs
    exact h.congr rfl rfl rfl rfl rfl rfl
  | pause slot =>
    cases hs
    exact h.congr rfl rfl rfl rfl rfl rfl
  | resume slot =>
    cases hs
    exact h.congr rfl rfl rfl rfl rfl rfl
  | enterOther slot =>
    simp only [Broker.step] at hs
    split at hs
    · cases hs
    · cases hs
      exact h.congr rfl rfl rfl rfl rfl rfl
  | writeOther line =>
    simp only [Broker.step] at hs
    split at hs
    · next hop =>
      cases hs
      have hline : line.ptt? = none := by simp [Line.ptt?, hop.2]
      have hkeyed : ∀ a, keyed (line :: s.wire) a = true → keyed s.wire a = true :=
        fun a ha => keyed_of_cons ha (by simp [hline])
      refine h.wrote rfl rfl rfl rfl ?_ ?_ ?_
      · exact handlerOk_mono h.handler (fun a e he => he) hkeyed rfl
      · simp [hline]
      · exact fun a ha _ => ha
    · cases hs
  | leaveOther slot =>
    cases hs
    exact h.congr rfl rfl rfl rfl rfl rfl

/-- A dead-man timer is armed for the module: its entry and the sleeping task. -/
def State.Armed (s : State) (a : Addr) : Prop :=
  ∃ e, s.ptt.get? a = some e ∧ s.tasks.get? e.task = some (.sleeping a e.cap)

/-- An un-key of the module is queued or in progress, by its timer or by
`on_disconnect`. -/
def State.Unkeying (s : State) (a : Addr) : Prop :=
  (∃ t phase, s.tasks.get? t = some (.unkey a "ptt" phase)) ∨
    ∃ todo phase, s.handler = .unkey a "ptt" todo phase

/-- **Dead man.**  In every run whose steps expose nothing, whatever else the
device answers: a module that was keyed and not un-keyed since has an armed
timer, or an un-key of it is queued or in progress, unless its key command is
itself still in flight. -/
theorem keyed_guarded (texts : Texts) (virtual : Addr → Bool) {s : State}
    (h : Reachable (step texts virtual) (fun s l => exposes s l = false) init s) (a : Addr)
    (hkeyed : keyed s.wire a = true) (hinflight : a ∉ s.inflight) : s.Armed a ∨ s.Unkeying a := by
  have hinv : Inv s := by
    apply h.invariant .init
    intro s l s' hinv hexp hs
    exact hinv.step hexp hs
  obtain hg | ⟨t, phase, ht, -⟩ | hg := hinv.guarded a hkeyed
  · obtain ⟨e, he⟩ := Option.isSome_iff_exists.mp hg
    obtain ⟨hcap, ht⟩ := hinv.entries a e he
    exact .inl ⟨e, he, by rw [hcap, ht]⟩
  · exact .inr (.inl ⟨t, phase, ht⟩)
  · have hok := hinv.handler
    cases hh : s.handler with
    | command job phase =>
      rw [hh] at hg hok
      obtain ⟨hptt, rfl, -⟩ := hg
      exact absurd (hok.2.1 (by simp [hptt])) hinflight
    | unkey b cap todo phase =>
      rw [hh] at hg hok
      obtain ⟨rfl, -⟩ := hg
      obtain ⟨rfl, -⟩ := hok
      exact .inr (.inr ⟨todo, phase, hh⟩)
    | idle | holding | holdingPreset | preset | disconnect | closing =>
      rw [hh] at hg
      exact hg.elim

/-- A module in slot 1 that can transmit. -/
def fm : List Capability := [{ name := "ptt", kind := "action", type := "bool" }]

/-- The module comes up and is told to key; the line is written. -/
def keying : List Label :=
  [.inventory (Table.empty.insert (1, "fm") fm) [1],
    .message (.command ⟨.int 7, some 1, some "fm", some "ptt", some "do", .scalar (.bool true)⟩),
    .held, .handler .enter, .handler .write]

/-- The key is confirmed, and its timer fires. -/
theorem keyed_guarded_sample :
    ∃ s : State, keyed s.wire (1, "fm") = true ∧ (s.Armed (1, "fm") ∨ s.Unkeying (1, "fm")) := by
  obtain ⟨s, hreach, hkeyed, hinflight⟩ := exists_avoiding
    (step ⟨fun _ => "", fun _ => ""⟩ fun _ => false) exposes init
    (keying ++ [.handler (.finish .ok), .fire 0, .task 0 .enter])
    (P := fun s => keyed s.wire (1, "fm") = true ∧ s.inflight = []) (by decide)
  exact ⟨s, hkeyed, keyed_guarded _ _ hreach (1, "fm") hkeyed (by simp [hinflight])⟩

/-- **The reply is lost.**  The line has keyed the transmitter, the command
times out: nothing is in flight, no timer is armed, no un-key is ahead. -/
theorem keyed_without_dead_man :
    ∃ s, Reachable (step ⟨fun _ => "", fun _ => ""⟩ fun _ => false) (fun _ _ => True) init s ∧
      keyed s.wire (1, "fm") = true ∧ (1, "fm") ∉ s.inflight ∧
      ¬ s.Armed (1, "fm") ∧ ¬ s.Unkeying (1, "fm") := by
  obtain ⟨s, hreach, hkeyed, hinflight, hptt, htasks, hhandler⟩ := exists_reachable
    (step ⟨fun _ => "", fun _ => ""⟩ fun _ => false) init
    (keying ++ [.handler (.finish (.error .timeout))])
    (P := fun s => keyed s.wire (1, "fm") = true ∧ s.inflight = [] ∧ s.ptt.entries = [] ∧
      s.tasks.entries = [] ∧ s.handler = .idle) (by decide)
  refine ⟨s, hreach, hkeyed, by simp [hinflight], ?_, ?_⟩
  · rintro ⟨e, he, -⟩
    simp [Table.get?, hptt] at he
  · rintro (⟨t, phase, ht⟩ | ⟨todo, phase, hh⟩)
    · simp [Table.get?, htasks] at ht
    · rw [hhandler] at hh
      cases hh

end StationManager.Agent.Broker
