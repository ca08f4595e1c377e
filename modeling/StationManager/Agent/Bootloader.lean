import StationManager.Lib.Text

/-!
# StationManager.Agent.Bootloader

The two root slots of a station and the environment of its bootloader, as
`station_agent.bootloader` reads and writes it.  The boot scripts belong to the
image and not to this repository: they are a parameter.

The agent changes the device only through `Effect`, one constructor for each
call that writes: an image into a slot, or variables of the environment in a
single invocation of the tool.
-/

namespace StationManager.Agent

/-! ## slots and the environment -/

inductive Slot
  | a
  | b
deriving DecidableEq, Repr

def Slot.other : Slot → Slot
  | .a => .b
  | .b => .a

theorem Slot.other_ne (slot : Slot) : slot.other ≠ slot := by
  cases slot <;> decide

/-- The configured or detected backend. -/
inductive Backend
  | grub
  | uboot
  | none
deriving DecidableEq, Repr

structure BootEnv where
  bootPart : Slot
  upgradeAvailable : Bool
  bootcount : Option String
  bootlimit : Option String := .none
deriving DecidableEq, Repr

/-- The variables the agent reads on their own. -/
inductive EnvKey
  | upgradeAvailable
  | bootcount
deriving DecidableEq, Repr

/-- The source's `get_env`, where the tool works. -/
def getEnv (backend : Backend) (env : BootEnv) (key : EnvKey) : Option String :=
  match backend, key with
  | .none, _ => .none
  | _, .upgradeAvailable => some (if env.upgradeAvailable then "1" else "0")
  | _, .bootcount => env.bootcount

/-- The `ValueError` of `int`. -/
inductive ValueError
  | notDecimal

/-- The digits of `str.isdigit` that are no decimal ones, such as `²`: first and last. -/
def specialDigits : List (Nat × Nat) :=
  [(0xB2, 0xB3), (0xB9, 0xB9), (0x1369, 0x1371), (0x19DA, 0x19DA), (0x2070, 0x2070),
   (0x2074, 0x2079), (0x2080, 0x2089), (0x2460, 0x2468), (0x2474, 0x247C), (0x2488, 0x2490),
   (0x24EA, 0x24EA), (0x24F5, 0x24FD), (0x24FF, 0x24FF), (0x2776, 0x277E), (0x2780, 0x2788),
   (0x278A, 0x2792), (0x10A40, 0x10A43), (0x10E60, 0x10E68), (0x11052, 0x1105A),
   (0x1F100, 0x1F10A)]

/-- `int(text)` where `text.isdigit()`, `none` where it is not. -/
def intOfDigits (text : List Char) : Except ValueError (Option Nat) :=
  let isDigit (c : Char) : Bool :=
    isDecimal c || specialDigits.any fun r => r.1 ≤ c.toNat && c.toNat ≤ r.2
  if text = [] ∨ text.all isDigit = false then .ok none
  else match decimal? text with
    | some n => .ok (some n)
    | none => .error .notDecimal

/-- The text of the limit in force: 3 if unset. -/
def BootEnv.limitText (env : BootEnv) : String :=
  match env.bootlimit with
  | .none | some "" => "3"
  | some text => text

/-! ## the device -/

/-- A station: `release` is the version of the image in each slot, empty if
the slot holds no whole image. -/
structure Device where
  backend : Backend
  env : BootEnv
  active : Slot
  release : Slot → String

/-- The station runs the slot under trial: the trial is neither committed nor
rolled back. -/
def Device.inTrial (d : Device) : Bool := d.env.upgradeAvailable ∧ d.active = d.env.bootPart

/-- The source's `get_inactive_slot`, where the active slot is found. -/
def Device.inactiveSlot (d : Device) : Slot := d.active.other

/-- A boot: the scripts rewrite the environment and start the slot it
names. -/
def Device.boot (scripts : BootEnv → BootEnv) (d : Device) : Device :=
  { d with env := scripts d.env, active := (scripts d.env).bootPart }

/-! ## writes of the agent -/

inductive Effect
  | nothing
  | writeSlot (slot : Slot) (release : String)
  | setUpgradePending (slot : Slot)
  | commitBoot
  | setBootcount (n : Nat)
deriving DecidableEq, Repr

/-- The slot that a write is about. -/
def Effect.slot : Effect → Option Slot
  | .writeSlot slot _ | .setUpgradePending slot => some slot
  | _ => .none

/-- Without a bootloader the environment is not written. -/
def Device.setEnv (d : Device) (f : BootEnv → BootEnv) : Device :=
  if d.backend = .none then d else { d with env := f d.env }

/-- The device after a successful write. -/
def Device.apply (d : Device) : Effect → Device
  | .nothing => d
  | .writeSlot slot release =>
    { d with release := fun s => if s = slot then release else d.release s }
  | .setUpgradePending slot =>
    d.setEnv fun env => { env with bootPart := slot, upgradeAvailable := true, bootcount := some "0" }
  | .commitBoot => d.setEnv fun env => { env with upgradeAvailable := false, bootcount := some "0" }
  | .setBootcount n => d.setEnv fun env => { env with bootcount := some (toString n) }

/-- The source's `arm_trial_rollback`: the write that makes the next boot roll
back, if the limit allows it.  A count that is already high enough is not
lowered. -/
def armTrialRollback (backend : Backend) (env : BootEnv) : Except ValueError (Option Effect) :=
  if backend = .none then .ok none
  else (intOfDigits (strip env.limitText)).bind fun
    | none => .ok none
    | some limit =>
      if 1 ≤ limit ∧ limit ≤ 8 then
        (intOfDigits (strip (env.bootcount.getD ""))).map fun count =>
          some (if count.any (limit ≤ ·) then .nothing else .setBootcount limit)
      else .ok none

theorem armTrialRollback_slot {backend : Backend} {env : BootEnv} {effect : Effect}
    (h : armTrialRollback backend env = .ok (some effect)) : effect.slot = .none := by
  unfold armTrialRollback at h
  split at h
  · cases h
  rcases hlimit : intOfDigits (strip env.limitText) with e | limit?
  · rw [hlimit] at h
    cases h
  rw [hlimit, Except.bind] at h
  cases limit? with
  | none => cases h
  | some limit =>
    dsimp only at h
    split at h
    · rcases hcount : intOfDigits (strip (env.bootcount.getD "")) with e | count
      · rw [hcount] at h
        cases h
      · rw [hcount] at h
        cases h
        split <;> rfl
    · cases h

section Writes

variable (d : Device) (effect : Effect)

@[simp] theorem setEnv_active (f : BootEnv → BootEnv) : (d.setEnv f).active = d.active := by
  unfold Device.setEnv
  split <;> rfl

@[simp] theorem setEnv_release (f : BootEnv → BootEnv) : (d.setEnv f).release = d.release := by
  unfold Device.setEnv
  split <;> rfl

/-- The agent does not change the slot it runs from. -/
@[simp] theorem apply_active : (d.apply effect).active = d.active := by
  cases effect <;> simp [Device.apply]

/-- A write that is about no slot leaves the images alone. -/
theorem apply_release (h : effect.slot = .none) : (d.apply effect).release = d.release := by
  cases effect with
  | writeSlot slot release => cases h
  | _ => simp [Device.apply]

/-- **The agent does not start a trial of the slot it runs from**, if it writes
only the other slot. -/
theorem inTrial_of_apply (hslot : ∀ slot, effect.slot = some slot → slot = d.inactiveSlot)
    (h : (d.apply effect).inTrial = true) : d.inTrial = true := by
  cases effect with
  | nothing | writeSlot => exact h
  | setUpgradePending slot =>
    cases hslot slot rfl
    rw [Device.apply, Device.setEnv] at h
    split at h
    · exact h
    · simp [Device.inTrial, Device.inactiveSlot, d.active.other_ne.symm] at h
  | commitBoot =>
    rw [Device.apply, Device.setEnv] at h
    split at h
    · exact h
    · simp [Device.inTrial] at h
  | setBootcount n =>
    rw [Device.apply, Device.setEnv] at h
    split at h <;> exact h

end Writes

end StationManager.Agent
