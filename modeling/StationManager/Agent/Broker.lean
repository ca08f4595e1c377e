import StationManager.Agent.Descriptor
import StationManager.Agent.Telemetry
import StationManager.Lib.Transition

/-!
# StationManager.Agent.Broker

The agent's broker as far as it keys transmitters.  Messages of the server are
handled one after the other; beside the handler run the dead-man tasks, one for
each key that was confirmed, and the other openers of a slot's control line
(polls, scanner, inventory), which only read and set.

A command is one line on the control device of its slot.  The call passes
through `Phase`s, any of which may end it: it queues for the slot's lock, it
runs in the executor, its line is written.  What the device makes of it is left
open, so a line may well be written and its reply be lost.

Virtual modules have no control device; their addresses are fixed and apart
from those of the modules in the slots.
-/

namespace StationManager.Agent.Broker

open Control (Scalar)
open Telemetry (Addr)

/-! ## lines -/

/-- A line `module <id> <op> <cap> [token]` on the control device of a slot. -/
structure Line where
  addr : Addr
  op : String
  cap : String
  token : Option String
deriving DecidableEq, Repr

/-- What a line tells the transmitter to do. -/
def Line.ptt? (l : Line) : Option Bool :=
  if l.op = "do" ∧ l.cap = "ptt" then
    if l.token = some "true" then some true
    else if l.token = some "false" then some false
    else none
  else none

/-- The lines written so far, newest first, have keyed the module: there was a
`ptt true` and no `ptt false` after it. -/
def keyed : List Line → Addr → Bool
  | [], _ => false
  | l :: wire, a =>
    if l.addr = a then match l.ptt? with
      | some b => b
      | none => keyed wire a
    else keyed wire a

/-- The line of an un-key. -/
def unkeyLine (a : Addr) (cap : String) : Line := ⟨a, "do", cap, some "false"⟩

/-- How far a call on the control device has come. -/
inductive Phase
  | queued
  | running
  | written
deriving DecidableEq, Repr

/-- What a call returns. -/
inductive Outcome
  | ok
  | error (code : Code)
deriving DecidableEq, Repr

/-- The next thing that happens to a call. -/
inductive Event
  | enter
  | write
  | finish (outcome : Outcome)
deriving DecidableEq, Repr

/-! ## state -/

/-- An entry of `_ptt`: capability and dead-man task. -/
structure Entry where
  cap : String
  task : Nat
deriving DecidableEq, Repr

/-- A dead-man task: it waits for the timeout, then un-keys.  A task that is
cancelled while its call runs leaves the call behind in its thread. -/
inductive Task
  | sleeping (a : Addr) (cap : String)
  | unkey (a : Addr) (cap : String) (phase : Phase)
  | orphan (l : Line)
deriving DecidableEq, Repr

inductive RequestId
  | int (n : Int)
  | str (s : String)
  | other
deriving DecidableEq, Repr

def RequestId.valid : RequestId → Bool
  | .int _ => true
  | .str s => s ≠ ""
  | .other => false

/-- Frames to the server. -/
inductive Frame
  | result (id : RequestId) (error : Option Failure)
  | preset (id : RequestId) (results : List (String × Option Failure))
  | state (a : Addr) (caps : List String)
  | autoUnkey (a : Addr) (reason : String)
deriving DecidableEq, Repr

/-- A command that passed the checks; `ptt` has the value of a PTT action. -/
structure Job where
  id : RequestId
  line : Line
  ptt : Option Bool
deriving DecidableEq, Repr

/-- A preset in the middle of its settings. -/
structure Preset where
  id : RequestId
  addr : Addr
  caps : List Capability
  todo : List (String × Json)
  results : List (String × Option Failure)
deriving DecidableEq

/-- Where the handler of the messages stands; it is suspended at an `await` in
all but `idle`. -/
inductive Handler
  | idle
  | holding (job : Job)
  | holdingPreset (id : RequestId) (a : Addr) (values : List (String × Json))
  | command (job : Job) (phase : Phase)
  | preset (p : Preset) (line : Line) (phase : Phase)
  | disconnect (todo : List (Addr × Entry))
  | unkey (a : Addr) (cap : String) (todo : List (Addr × Entry)) (phase : Phase)
  | closing
deriving DecidableEq

structure State where
  descriptors : Table Addr (List Capability)
  controls : List Int
  paused : List Int
  ptt : Table Addr Entry
  tasks : Table Nat Task
  next : Nat
  inflight : List Addr
  unkeying : List Addr
  locks : List Int
  others : List Int
  wire : List Line
  handler : Handler
  sent : List Frame

/-- A fresh broker. -/
def init : State where
  descriptors := Table.empty
  controls := []
  paused := []
  ptt := Table.empty
  tasks := Table.empty
  next := 0
  inflight := []
  unkeying := []
  locks := []
  others := []
  wire := []
  handler := .idle
  sent := []

/-! ## the control device -/

/-- `_execute` answers at once: a paused slot (never for a fail-safe call) or a
slot without a control device. -/
def State.refusal (s : State) (slot : Int) (failsafe : Bool) : Option Code :=
  if !failsafe && slot ∈ s.paused then some .updating
  else if slot ∉ s.controls then some .unknownSlot
  else none

/-- A call stands in a phase or has returned. -/
inductive Progress
  | at (phase : Phase)
  | done (outcome : Outcome)
deriving DecidableEq, Repr

/-- A call of `SlotControl.execute` under the slot's lock.  Only a reply to a
written line is a success. -/
def State.advance (s : State) (line : Line) (failsafe : Bool) :
    Phase → Event → Option (State × Progress)
  | .queued, .enter =>
    if line.addr.1 ∈ s.locks ++ s.others then none
    else if !failsafe && line.addr.1 ∈ s.paused then some (s, .done (.error .updating))
    else some ({ s with locks := line.addr.1 :: s.locks }, .at .running)
  | .running, .write => some ({ s with wire := line :: s.wire }, .at .written)
  | .running, .finish (.error code) =>
    some ({ s with locks := s.locks.erase line.addr.1 }, .done (.error code))
  | .written, .finish outcome => some ({ s with locks := s.locks.erase line.addr.1 }, .done outcome)
  | _, _ => none

/-! ## dead man -/

/-- Cancel a dead-man task. -/
def State.cancel (s : State) (t : Nat) : State :=
  match s.tasks.get? t with
  | some (.sleeping ..) => { s with tasks := s.tasks.erase t }
  | some (.unkey a _ .queued) => { s with tasks := s.tasks.erase t, unkeying := s.unkeying.erase a }
  | some (.unkey a cap .running) =>
    { s with
      tasks := s.tasks.modify t fun _ => .orphan (unkeyLine a cap)
      unkeying := s.unkeying.erase a
      locks := s.locks.erase a.1 }
  | some (.unkey a _ .written) =>
    { s with
      tasks := s.tasks.erase t
      unkeying := s.unkeying.erase a
      locks := s.locks.erase a.1 }
  | some (.orphan _) | none => s

/-- `_disarm_dead_man` -/
def State.disarm (s : State) (a : Addr) : State :=
  match s.ptt.get? a with
  | none => s
  | some entry => { s with ptt := s.ptt.erase a }.cancel entry.task

/-- `_arm_dead_man` -/
def State.arm (s : State) (a : Addr) (cap : String) : State :=
  let s := s.disarm a
  { s with
    tasks := s.tasks.insert s.next (.sleeping a cap)
    ptt := s.ptt.insert a ⟨cap, s.next⟩
    next := s.next + 1 }

/-- The end of `_unkey`: it is announced whatever became of it. -/
def State.announce (s : State) (a : Addr) (reason : String) : State :=
  { s with unkeying := s.unkeying.erase a, sent := .autoUnkey a reason :: s.sent }

/-- `_dead_man` after the timeout: the entry is dropped and the un-key begins. -/
def State.fire (s : State) (t : Nat) : Option State :=
  match s.tasks.get? t with
  | some (.sleeping a cap) =>
    let s := { s with ptt := s.ptt.erase a, unkeying := s.unkeying.insert a }
    match s.refusal a.1 true with
    | some _ => some ({ s with tasks := s.tasks.erase t }.announce a "keepalive_timeout")
    | none => some { s with tasks := s.tasks.modify t fun _ => .unkey a cap .queued }
  | _ => none

/-- The un-key of a dead-man task goes on. -/
def State.taskStep (s : State) (t : Nat) (e : Event) : Option State :=
  match s.tasks.get? t with
  | some (.unkey a cap phase) =>
    match s.advance (unkeyLine a cap) true phase e with
    | some (s, .at phase) => some { s with tasks := s.tasks.modify t fun _ => .unkey a cap phase }
    | some (s, .done _) => some ({ s with tasks := s.tasks.erase t }.announce a "keepalive_timeout")
    | none => none
  | some (.orphan l) =>
    match e with
    | .write => some { s with tasks := s.tasks.erase t, wire := l :: s.wire }
    | .finish _ => some { s with tasks := s.tasks.erase t }
    | .enter => none
  | _ => none

/-! ## messages -/

/-- A `command` message; what has the wrong type is missing. -/
structure Command where
  id : RequestId
  slot : Option Int
  module : Option String
  capability : Option String
  op : Option String
  value : Json
deriving DecidableEq

/-- Messages from the server; the other types do not key. -/
inductive Message
  | command (c : Command)
  | keepalive (slot : Option Int) (module : Option String)
  | applyPreset (id : RequestId) (slot : Option Int) (module : Option String)
      (values : Option (List (String × Json)))
  | other
deriving DecidableEq

/-- `_is_ptt_cap` -/
def isPttCap (cap : Capability) : Bool :=
  cap.kind = "action" && cap.type = "bool" && cap.name = "ptt"

/-- `_SCAN_HOLD_CAPS` -/
def scanHoldCaps : List String := ["frequency", "rx_frequency", "tx_frequency", "rx_tone", "tx_tone"]

/-- `_PRESET_ORDER` -/
def presetOrder : List String := ["tx_frequency", "rx_frequency", "tx_tone", "rx_tone", "bandwidth"]

/-- `slot_busy` -/
def State.slotBusy (s : State) (slot : Int) : Bool :=
  (s.ptt.entries.map Prod.fst ++ s.inflight ++ s.unkeying).any (·.1 = slot)

/-- A confirmed key arms the timer, a confirmed un-key disarms it. -/
def State.settle (s : State) (job : Job) : Outcome → State
  | .ok => match job.ptt with
    | some true => s.arm job.line.addr job.line.cap
    | some false => s.disarm job.line.addr
    | none => s
  | .error _ => s

/-- The end of a command: it is settled before the in-flight window closes. -/
def State.endCommand (s : State) (job : Job) (outcome : Outcome) : State :=
  let a := job.line.addr
  let s := s.settle job outcome
  { s with
    inflight := if job.ptt.isSome then s.inflight.erase a else s.inflight
    handler := .idle
    sent := match outcome with
      | .ok => .state a [job.line.cap] :: .result job.id none :: s.sent
      | .error code => .result job.id (some (code, "")) :: s.sent }

/-- The in-flight window opens and the call starts. -/
def State.beginCommand (s : State) (job : Job) : State :=
  let s := if job.ptt.isSome then { s with inflight := s.inflight.insert job.line.addr } else s
  match s.refusal job.line.addr.1 false with
  | some code => s.endCommand job (.error code)
  | none => { s with handler := .command job .queued }

def State.reject (s : State) (id : RequestId) (error : Failure) : State :=
  { s with sent := .result id (some error) :: s.sent }

section Messages

variable (texts : Texts) (virtual : Addr → Bool)

/-- Slot and module as an error names them. -/
def addrText (a : Addr) : String := toString a.1 ++ "/" ++ a.2

/-- The job of a command that passes the descriptor's checks. -/
def jobOf (id : RequestId) (a : Addr) (caps : List Capability) (capability op : String)
    (value : Json) : Except Raised Job :=
  match findCapability caps capability with
  | none => .error (.protocol (.unknownCapability, "no such capability"))
  | some cap => do
      validateCommand texts (some cap) op value
      let token := if op = "get" then none else some (formatValue texts cap.type value)
      let ptt := match value with
        | .scalar (.bool b) => if op = "do" && isPttCap cap then some b else none
        | _ => none
      return ⟨id, ⟨a, op, capability, token⟩, ptt⟩

/-- The command holds the scan first.  For a module that is not scanned the
hold returns at once. -/
def Job.holds (job : Job) : Bool :=
  job.ptt = some true || (job.line.op = "set" && job.line.cap ∈ scanHoldCaps)

/-- `handle_command`, up to its first `await`. -/
def State.handleCommand (s : State) (c : Command) : State :=
  if !c.id.valid then s
  else match c.slot, c.module, c.capability, c.op with
    | some slot, some module, some capability, some op =>
      match s.descriptors.get? (slot, module) with
      | none =>
        s.reject c.id
          (if slot ∈ s.controls then .unknownModule else .unknownSlot, addrText (slot, module))
      | some caps =>
        if virtual (slot, module) then s
        else match jobOf texts c.id (slot, module) caps capability op c.value with
          | .error (.protocol e) => s.reject c.id e
          -- the receive loop ends, and the connection with it
          | .error .uncaught => s
          | .ok job => if job.holds then { s with handler := .holding job } else s.beginCommand job
    | _, _, _, _ => s.reject c.id (.validationFailed, "malformed command frame")

/-- `handle_keepalive` -/
def State.handleKeepalive (s : State) (slot : Option Int) (module : Option String) : State :=
  match slot, module with
  | some slot, some module =>
    match s.ptt.get? (slot, module) with
    | none => s
    | some entry => s.arm (slot, module) entry.cap
  | _, _ => s

/-- Reply to a preset. -/
def State.endPreset (s : State) (p : Preset) : State :=
  let done := p.results.filterMap fun r => if r.2 = none then some r.1 else none
  { s with
    handler := .idle
    sent := (if done = [] then [] else [.state p.addr done]) ++
      .preset p.id p.results :: s.sent }

/-- A failure of the whole device would repeat for the settings that are left. -/
def aborts (code : Code) : Bool := code ∈ [.timeout, .updating, .unknownSlot]

/-- The next setting of a preset that reaches the device. -/
def State.nextSetting (s : State) (p : Preset) : List (String × Json) → State
  | [] => s.endPreset { p with todo := [] }
  | (name, value) :: todo =>
    match validateCommand texts (findCapability p.caps name) "set" value with
    | .error (.protocol e) =>
      State.nextSetting s { p with results := p.results ++ [(name, some e)] } todo
    | .error .uncaught => { s with handler := .idle }
    | .ok _ =>
      match s.refusal p.addr.1 false with
      | some code =>
        s.endPreset { p with
          todo := []
          results := p.results ++
            ((name, value) :: todo).map fun e => (e.1, some (code, "")) }
      | none =>
        let type := ((findCapability p.caps name).map (·.type)).getD ""
        let line : Line := ⟨p.addr, "set", name, some (formatValue texts type value)⟩
        { s with handler := .preset { p with todo := todo } line .queued }

/-- One setting has returned. -/
def State.endSetting (s : State) (p : Preset) (line : Line) (outcome : Outcome) : State :=
  match outcome with
  | .ok => s.nextSetting texts { p with results := p.results ++ [(line.cap, none)] } p.todo
  | .error code =>
    let p := { p with results := p.results ++ [(line.cap, some (code, ""))] }
    if aborts code then
      s.endPreset { p with
        todo := [], results := p.results ++ p.todo.map fun e => (e.1, some (code, "")) }
    else s.nextSetting texts p p.todo

/-- `apply_preset` -/
def State.applyPreset (s : State) (id : RequestId) (a : Addr) (values : List (String × Json)) :
    State :=
  let todo := presetOrder.filterMap fun name => (values.lookup name).map (name, ·)
  let refuse (code : Code) (text : String) : State :=
    s.endPreset ⟨id, a, [], [], todo.map fun e => (e.1, some (code, text))⟩
  match s.descriptors.get? a with
  | none => refuse (if a.1 ∈ s.controls then .unknownModule else .unknownSlot) (addrText a)
  | some caps =>
    if virtual a then refuse .wrongOp "virtual module"
    else s.nextSetting texts ⟨id, a, caps, [], []⟩ todo

/-- `handle_apply_preset`, up to its first `await`. -/
def State.handleApplyPreset (s : State) (id : RequestId) (slot : Option Int)
    (module : Option String) (values : Option (List (String × Json))) : State :=
  if !id.valid then s
  else match slot, module, values with
    | some slot, some module, some values =>
      if presetOrder.all (fun name => (values.lookup name).isNone) ||
          values.any (fun e => e.1 ∉ presetOrder) then
        s.reject id (.validationFailed, "malformed apply_preset")
      else if s.slotBusy slot then s.reject id (.pttActive, "")
      else { s with handler := .holdingPreset id (slot, module) values }
    | _, _, _ => s.reject id (.validationFailed, "malformed apply_preset")

/-- `handle` -/
def State.handle (s : State) : Message → State
  | .command c => s.handleCommand texts virtual c
  | .keepalive slot module => s.handleKeepalive slot module
  | .applyPreset id slot module values => s.handleApplyPreset id slot module values
  | .other => s

/-- The handler's call goes on. -/
def State.handlerStep (s : State) (e : Event) : Option State :=
  match s.handler with
  | .command job phase =>
    match s.advance job.line false phase e with
    | some (s, .at phase) => some { s with handler := .command job phase }
    | some (s, .done outcome) => some (s.endCommand job outcome)
    | none => none
  | .preset p line phase =>
    match s.advance line false phase e with
    | some (s, .at phase) => some { s with handler := .preset p line phase }
    | some (s, .done outcome) => some (s.endSetting texts p line outcome)
    | none => none
  | .unkey a cap todo phase =>
    match s.advance (unkeyLine a cap) true phase e with
    | some (s, .at phase) => some { s with handler := .unkey a cap todo phase }
    | some (s, .done _) => some ({ s with handler := .disconnect todo }.announce a "ws_disconnect")
    | none => none
  | _ => none

/-- The scanner's hold has returned. -/
def State.held (s : State) : Option State :=
  match s.handler with
  | .holding job => some (s.beginCommand job)
  | .holdingPreset id a values => some (s.applyPreset texts virtual id a values)
  | _ => none

end Messages

/-! ## disconnect -/

/-- One round of the loop of `on_disconnect`.  It goes over the entries it found
at the start; an entry that is gone by now is a `KeyError`. -/
def State.nextUnkey (s : State) : Option State :=
  match s.handler with
  | .disconnect [] => some { s with handler := .closing }
  | .disconnect ((a, entry) :: todo) =>
    let s := s.cancel entry.task
    if (s.ptt.get? a).isNone then some { s with handler := .idle }
    else
      let s := { s with ptt := s.ptt.erase a, unkeying := s.unkeying.insert a }
      match s.refusal a.1 true with
      | some _ => some ({ s with handler := .disconnect todo }.announce a "ws_disconnect")
      | none => some { s with handler := .unkey a entry.cap todo .queued }
  | _ => none

/-- `stop`: the timers that are left are cancelled. -/
def State.stop (s : State) : Option State :=
  match s.handler with
  | .closing =>
    let s' := s.ptt.entries.foldl (fun s e => s.cancel e.2.task) s
    some { s' with ptt := Table.empty, handler := .idle }
  | _ => none

/-! ## steps -/

/-- What happens next. -/
inductive Label
  | message (m : Message)
  | held
  | handler (e : Event)
  | disconnect
  | nextUnkey
  | stop
  | fire (t : Nat)
  | task (t : Nat) (e : Event)
  | inventory (descriptors : Table Addr (List Capability)) (controls : List Int)
  | pause (slot : Int)
  | resume (slot : Int)
  | enterOther (slot : Int)
  | writeOther (l : Line)
  | leaveOther (slot : Int)

/-- One step.  The other openers of the control line hold a slot's lock as well
and write lines that read or set. -/
def step (texts : Texts) (virtual : Addr → Bool) (s : State) : Label → Option State
  | .message m => if s.handler = .idle then some (s.handle texts virtual m) else none
  | .held => s.held texts virtual
  | .handler e => s.handlerStep texts e
  | .disconnect =>
    if s.handler = .idle then some { s with handler := .disconnect s.ptt.entries } else none
  | .nextUnkey => s.nextUnkey
  | .stop => s.stop
  | .fire t => s.fire t
  | .task t e => s.taskStep t e
  | .inventory descriptors controls => some { s with descriptors, controls }
  | .pause slot => some { s with paused := s.paused.insert slot }
  | .resume slot => some { s with paused := s.paused.erase slot }
  | .enterOther slot =>
    if slot ∈ s.locks ++ s.others then none else some { s with others := slot :: s.others }
  | .writeOther l =>
    if l.addr.1 ∈ s.others ∧ l.op ≠ "do" then some { s with wire := l :: s.wire } else none
  | .leaveOther slot => some { s with others := s.others.erase slot }

end StationManager.Agent.Broker
