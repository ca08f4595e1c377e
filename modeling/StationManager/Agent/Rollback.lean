import StationManager.Agent.Ota

/-!
# StationManager.Agent.Rollback

A station and the server together.  A step is a statement of the agent, a
statement of the server for any request, a restart of the agent, or a boot.

After a boot into the slot under trial the other slot is the only one to fall
back to.  The agent decides by the status of the result on the server whether
to write an image, so a trial is safe only if the server has heard of the
reboot: when that report is lost, the agent writes the image once more, over
the slot it would fall back to (`rollback_slot_overwritten`).  In runs where
every trial starts with the report recorded, and no result to write turns up
for the station before it ends, the slot keeps its image, whatever the boot
scripts do.
-/

namespace StationManager.Agent

open Deployments

/-! ## the system -/

structure World where
  server : Pool Server Proc
  device : Device
  agent : Pc

inductive Label
  | server (l : Sched Request Deployments.Event)
  | agent (e : Event)
  | restart
  | boot

/-- Requests signed with the key of the station come from its agent only. -/
def fromStation (station : Pk) : Sched Request Deployments.Event → Bool
  | .spawn _ (.statusUpdate s _ _ _) | .spawn _ (.commit s _) => s = station
  | _ => false

/-- Hand a request over to the server. -/
def send (server : Pool Server Proc) : Option (Nat × Request) → Option (Pool Server Proc)
  | some (i, r) => serverStep server (.spawn i r)
  | none => some server

def stationStep (scripts : BootEnv → BootEnv) (station : Pk) (w : World) : Label → Option World
  | .server l =>
    if fromStation station l then none
    else (serverStep w.server l).map fun server => { w with server }
  | .agent e =>
    (statement station w.server.shared.db w.device w.agent e).bind fun o =>
      (send w.server o.request).map fun server =>
        ⟨server, w.device.apply o.effect, o.next⟩
  | .restart => some { w with agent := .check }
  | .boot => some { w with device := w.device.boot scripts, agent := .check }

/-- The step leaves the station in a trial with a result to write: it boots
into the trial while the server has one, or gives it one during the trial. -/
def exposes (scripts : BootEnv → BootEnv) (station : Pk) (w : World) : Label → Bool
  | .server l => w.device.inTrial && offers station w.server l
  | .boot => (w.device.boot scripts).inTrial && w.server.shared.db.hasUnwritten station
  | _ => false

/-! ## the invariant -/

/-- What holds in runs that meet the condition. -/
structure Safe (station : Pk) (w : World) : Prop where
  /-- The agent writes the slot that is not running. -/
  target : ∀ t, w.agent.target = some t → t = w.device.inactiveSlot
  /-- During a trial the agent does not install, and has nothing to. -/
  trial : w.device.inTrial = true →
    w.agent.installs = false ∧ w.server.shared.db.hasUnwritten station = false

section Steps

variable {scripts : BootEnv → BootEnv} {station : Pk} {w w' : World} {l : Label}

theorem send_shared {server server' : Pool Server Proc} {request : Option (Nat × Request)}
    (h : send server request = some server') : server'.shared = server.shared := by
  cases request with
  | none =>
    cases h
    rfl
  | some request =>
    have hspawn : serverStep server (.spawn request.1 request.2) = some server' := h
    cases Pool.stepped_of_step hspawn with
    | spawn i r p _ _ hshared _ => exact hshared

theorem server_step {l : Sched Request Deployments.Event}
    (h : stationStep scripts station w (.server l) = some w') :
    ∃ server, serverStep w.server l = some server ∧ w' = { w with server } := by
  rw [stationStep] at h
  split at h
  · cases h
  · obtain ⟨server, hserver, rfl⟩ := Option.map_eq_some_iff.mp h
    exact ⟨server, hserver, rfl⟩

/-- What a statement of the agent does. -/
theorem agent_step {e : Event} (h : stationStep scripts station w (.agent e) = some w') :
    ∃ o, statement station w.server.shared.db w.device w.agent e = some o ∧
      w'.server.shared = w.server.shared ∧ w'.device = w.device.apply o.effect ∧
      w'.agent = o.next := by
  obtain ⟨o, ho, hsend⟩ := Option.bind_eq_some_iff.mp h
  obtain ⟨server, hserver, rfl⟩ := Option.map_eq_some_iff.mp hsend
  exact ⟨o, ho, send_shared hserver, rfl, rfl⟩

/-- During a safe trial the agent does not come to install. -/
theorem Safe.next_installs {e : Event} {o : Outcome} (hs : Safe station w)
    (h : statement station w.server.shared.db w.device w.agent e = some o)
    (htrial : w.device.inTrial = true) : o.next.installs = false := by
  obtain ⟨hno, hwritten⟩ := hs.trial htrial
  by_cases hcheck : w.agent = .check
  · rw [hcheck] at h
    cases e <;> cases h
    · refine handleOta_installs fun offer hoffer => ?_
      exact checkDeployment_status hoffer hwritten
    · rfl
  · exact statement_installs h hcheck hno

/-- The slot that a statement is about is the one that is not running. -/
theorem Safe.effect_slot {e : Event} {o : Outcome} (hs : Safe station w)
    (h : statement station w.server.shared.db w.device w.agent e = some o) :
    ∀ slot, o.effect.slot = some slot → slot = w.device.inactiveSlot := by
  intro slot hslot
  rcases statement_slot h with hnone | htarget
  · rw [hnone] at hslot
    cases hslot
  · exact hs.target slot (htarget ▸ hslot)

theorem safe_agent {e : Event} (hs : Safe station w)
    (h : stationStep scripts station w (.agent e) = some w') : Safe station w' := by
  obtain ⟨o, ho, hshared, hdevice, hagent⟩ := agent_step h
  constructor
  · intro t ht
    rw [hdevice, Device.inactiveSlot, apply_active]
    rw [hagent] at ht
    rcases statement_target ho ht with hold | rfl
    · exact hs.target t hold
    · rfl
  · intro htrial
    rw [hdevice] at htrial
    have hbefore := inTrial_of_apply _ _ (hs.effect_slot ho) htrial
    rw [hagent, hshared]
    exact ⟨hs.next_installs ho hbefore, (hs.trial hbefore).2⟩

/-- **Every step that meets the condition keeps a station safe.** -/
theorem safe_step (hs : Safe station w) (hok : exposes scripts station w l = false)
    (h : stationStep scripts station w l = some w') : Safe station w' := by
  cases l with
  | server l =>
    obtain ⟨server, hserver, rfl⟩ := server_step h
    refine ⟨hs.target, fun htrial => ⟨(hs.trial htrial).1, ?_⟩⟩
    refine step_hasUnwritten hserver ?_ (hs.trial htrial).2
    rw [exposes, show w.device.inTrial = true from htrial, Bool.true_and] at hok
    exact hok
  | agent e => exact safe_agent hs h
  | restart =>
    cases h
    exact ⟨nofun, fun htrial => ⟨rfl, (hs.trial htrial).2⟩⟩
  | boot =>
    cases h
    refine ⟨nofun, fun htrial => ⟨rfl, ?_⟩⟩
    rw [exposes, show (w.device.boot scripts).inTrial = true from htrial, Bool.true_and] at hok
    exact hok

/-- A step during a safe trial writes no slot. -/
theorem release_step (hs : Safe station w) (htrial : w.device.inTrial = true)
    (h : stationStep scripts station w l = some w') : w'.device.release = w.device.release := by
  cases l with
  | server l =>
    obtain ⟨server, _, rfl⟩ := server_step h
    rfl
  | agent e =>
    obtain ⟨o, ho, _, hdevice, _⟩ := agent_step h
    rw [hdevice]
    refine apply_release _ _ ?_
    rcases statement_slot ho with hnone | htarget
    · exact hnone
    · rw [htarget, Option.eq_none_iff_forall_ne_some]
      intro t ht
      have hinstalls := installs_of_target ht
      rw [(hs.trial htrial).1] at hinstalls
      cases hinstalls
  | restart =>
    cases h
    rfl
  | boot =>
    cases h
    rfl

end Steps

/-! ## trials -/

/-- A station that is not in a trial, with its agent before a check. -/
structure Ready (w : World) : Prop where
  agent : w.agent = .check
  noTrial : w.device.inTrial = false

theorem safe_of_reachable {scripts : BootEnv → BootEnv} {station : Pk} {w₀ w : World}
    (h₀ : Ready w₀) (h : Reachable (stationStep scripts station)
      (fun w l => exposes scripts station w l = false) w₀ w) : Safe station w := by
  refine h.invariant (P := Safe station) ⟨?_, ?_⟩ fun w l w' hs hok hstep => safe_step hs hok hstep
  · rw [h₀.agent]
    exact nofun
  · rw [h₀.noTrial]
    exact nofun

/-- **The slot to fall back to is kept.**  In every run whose steps do not
expose a trial, an agent in a trial is told to verify and does not install, and
as long as the trial lasts, whatever the station and the server do, both slots
keep their images. -/
theorem rollback_slot_kept (scripts : BootEnv → BootEnv) (station : Pk) (w₀ w : World)
    (h₀ : Ready w₀) (h : Reachable (stationStep scripts station)
      (fun w l => exposes scripts station w l = false) w₀ w) (htrial : w.device.inTrial = true) :
    w.agent.installs = false ∧ (∀ offer, checkDeployment w.server.shared.db station = some offer →
      offer.status = .rebooting ∨ offer.status = .verifying) ∧
    ∀ w', Reachable (stationStep scripts station)
        (fun w l => exposes scripts station w l = false ∧ w.device.inTrial = true) w w' →
      w'.device.release = w.device.release := by
  have hsafe := safe_of_reachable h₀ h
  obtain ⟨hno, hwritten⟩ := hsafe.trial htrial
  refine ⟨hno, fun offer hoffer => checkDeployment_status hoffer hwritten, fun w' h' => ?_⟩
  have hboth : Safe station w' ∧ w'.device.release = w.device.release := by
    refine h'.invariant (P := fun w' => Safe station w' ∧ w'.device.release = w.device.release)
      ⟨hsafe, rfl⟩ ?_
    intro u l u' hu hok hstep
    exact ⟨safe_step hu.1 hok.1 hstep, (release_step hu.1 hok.2 hstep).trans hu.2⟩
  exact hboth.2

/-! ## a lost report -/

namespace Sample

/-- The script of U-Boot as the agent's source describes it: it counts the boot before it
decides, and ends a trial whose count exceeds the limit. -/
def scripts (env : BootEnv) : BootEnv :=
  let count := (env.bootcount.bind fun text => decimal? text.toList).getD 0 + 1
  let limit := (decimal? env.limitText.toList).getD 0
  if env.upgradeAvailable ∧ limit < count then
    { env with bootPart := env.bootPart.other, upgradeAvailable := false, bootcount := some "1" }
  else { env with bootcount := some (toString count) }

/-- Station 1 runs `v1` in slot a, and deployment 1 has `v2` for it. -/
def station : World where
  server := Deployments.Sample.idleServer { Deployments.Sample.rebooting with
    results := Table.empty.insert ⟨1, 1⟩ { imageRelease := 2 } }
  device := ⟨.uboot, ⟨.a, false, some "1", none⟩, .a, fun slot => if slot = .a then "v1" else "v0"⟩
  agent := .check

theorem station_ready : Ready station := ⟨rfl, rfl⟩

/-- Statements of the agent that work. -/
def works (n : Nat) : List Label := List.replicate n (.agent .ok)

/-- A report of the agent that the server saves, as request `i` at time `t`. -/
def reported (i : Nat) (t : Time) : List Label :=
  .agent (.sent i) :: List.replicate 3 (.server (.advance i (.exec t)))

/-- Check, download and installation, up to the last report. -/
def installation : List Label :=
  works 1 ++ reported 0 1 ++ works 1 ++ reported 1 2 ++ works 6

/-- The agent reboots the station. -/
def reboot : List Label := works 2 ++ [.boot]

/-- A second installation, up to the image write. -/
def again : List Label := works 2 ++ reported 2 3 ++ works 4

/-- Is there a trial, and what do the slots hold? -/
def slots (w : World) : Bool × String × String :=
  (w.device.inTrial, w.device.release .a, w.device.release .b)

end Sample

/-- With all reports heard, `v1` stays in slot a during the trial of `v2`. -/
theorem rollback_slot_kept_sample : ∃ w,
    Reachable (stationStep Sample.scripts 1) (fun w l => exposes Sample.scripts 1 w l = false)
      Sample.station w ∧ Sample.slots w = (true, "v1", "v2") ∧
    ∀ w', Reachable (stationStep Sample.scripts 1)
        (fun w l => exposes Sample.scripts 1 w l = false ∧ w.device.inTrial = true) w w' →
      w'.device.release .a = "v1" := by
  obtain ⟨w, hreach, heq⟩ := exists_avoiding (stationStep Sample.scripts 1)
    (exposes Sample.scripts 1) Sample.station
    (Sample.installation ++ Sample.reported 2 3 ++ Sample.reboot)
    (P := fun w => Sample.slots w = (true, "v1", "v2")) (by decide)
  have hkept := rollback_slot_kept _ 1 _ w Sample.station_ready hreach (congrArg Prod.fst heq)
  refine ⟨w, hreach, heq, fun w' h' => ?_⟩
  rw [hkept.2.2 w' h']
  exact congrArg (·.2.1) heq

/-- The report of the reboot is lost: during the trial of `v2` the agent
installs once more, and `v1` is gone. -/
theorem rollback_slot_overwritten : Ready Sample.station ∧ ∃ w w',
    Reachable (stationStep Sample.scripts 1) (fun _ _ => True) Sample.station w ∧
    Reachable (stationStep Sample.scripts 1) (fun _ _ => True) w w' ∧
    Sample.slots w = (true, "v1", "v2") ∧ Sample.slots w' = (true, "v2", "v2") := by
  have h : ((run (stationStep Sample.scripts 1) Sample.station
      (Sample.installation ++ .agent (.failed "timeout") :: Sample.reboot)).bind fun w =>
        (run (stationStep Sample.scripts 1) w Sample.again).map fun w' =>
          (Sample.slots w, Sample.slots w')) =
      some ((true, "v1", "v2"), (true, "v2", "v2")) := by decide
  obtain ⟨w, hw, hrest⟩ := Option.bind_eq_some_iff.mp h
  obtain ⟨w', hw', heq⟩ := Option.map_eq_some_iff.mp hrest
  exact ⟨Sample.station_ready, w, w', reachable_of_run hw, reachable_of_run hw',
    congrArg Prod.fst heq, congrArg Prod.snd heq⟩

end StationManager.Agent
