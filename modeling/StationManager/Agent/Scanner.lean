import StationManager.Lib.Transition

/-!
# StationManager.Agent.Scanner

The sequential carrier scanner: one runner task that walks the entries, and the
calls of the broker, which handles its messages one after the other.  Both are
programs that are suspended at an `await`; a step of the model resumes one of
them and runs it to its next `await`.

* Every step of a visit (frame, apply, carrier read, route) runs under the step
  lock, a queue whose head owns it.
* `hold` and `stop` set their flag and then take the lock once.  The runner
  calls `hold` itself where it finds a transmitter keyed.

What devices and timers do comes with the labels; which transmitters are keyed
and which slots are paused is part of the state and changes at any time.

The last fields of `State` are history: they are written and never read.
-/

namespace StationManager.Agent.Scanner

/-- Slot and module. -/
abbrev Module := Int × String

structure Entry where
  ref : String
  slot : Int
  module : String
deriving DecidableEq, Repr

/-- The module of an entry. -/
def Entry.target (e : Entry) : Module := (e.slot, e.module)

/-! ## state -/

/-- The state that a frame reports. -/
inductive Report
  | scanning
  | active
  | hang
  | held
  | stopped
deriving DecidableEq, Repr

inductive Reason
  | operator
  | ptt
  | manual
  | replaced
  | emptyScanList
  | noReachableEntries
  | moduleUpdate
  | internalError
  | disconnect
  | shutdown
deriving DecidableEq, Repr

/-- A `scan_state` frame. -/
structure Frame where
  scanId : String
  report : Report
  index : Nat
  entry : Option Entry
  reason : Option Reason
deriving DecidableEq, Repr

/-- The two users of the step lock. -/
inductive Party
  | runner
  | broker
deriving DecidableEq, Repr

/-- Where a `hold` stands: on the lock, sending its frame, moving `tx_route`. -/
inductive HoldPhase
  | waiting
  | emitting (pos : Option Nat)
  | routing (entry : Entry)
deriving DecidableEq, Repr

/-- A step of a visit; carrier reads of the listen window and of the time on a
carrier are told apart. -/
inductive Op
  | emit (report : Report)
  | apply
  | carrier (parked : Bool)
  | route
deriving DecidableEq, Repr

/-- A visit: its entry, and whether the hang time is running. -/
structure Visit where
  entry : Entry
  hang : Bool
deriving DecidableEq, Repr

/-- Where the runner is suspended. -/
inductive Runner
  | fresh
  | parked
  | queued (v : Visit) (op : Op)
  | inFlight (v : Visit) (op : Op)
  | sleeping (v : Visit) (parked : Bool)
  | hold (phase : HoldPhase)
  | dead
deriving DecidableEq, Repr

/-- What `start` begins once the old scan has stopped. -/
structure Start where
  scanId : String
  entries : List Entry
deriving DecidableEq, Repr

/-- Where the broker's call is suspended. -/
inductive Caller
  | idle
  | hold (reason : Reason) (keyed : Option Module) (phase : HoldPhase)
  | stop (reason : Reason) (next : Option Start)
deriving DecidableEq, Repr

/-- How a visit ended; a hold leaves it without a result. -/
inductive Outcome
  | reachable
  | failed
  | aborted
deriving DecidableEq, Repr

/-- The end of a scan, with the length of its list and the outcomes of the
visits of that list. -/
structure End where
  reason : Reason
  length : Nat
  outcomes : List Outcome
deriving DecidableEq, Repr

structure State where
  scanId : Option String
  entries : List Entry
  pending : Option (List Entry)
  index : Nat
  tuned : Option String
  routed : Option String
  last : Option (Report × Nat × Option String)
  held : Bool
  holdGen : Nat
  visitGen : Nat
  stopping : Bool
  skip : Bool
  resume : Bool
  failStreak : Nat
  /-- `_task` is set. -/
  running : Bool
  lock : List Party
  runner : Runner
  caller : Caller
  /-- The modules that are keyed, being keyed or being un-keyed. -/
  keys : List Module
  paused : List Int
  txRoute : Option Module
  sent : List Frame
  /-- A `hold` of the broker has returned and nothing has ended it since. -/
  barrier : Bool
  /-- The visited indices since the last hold or change of the list, newest
  first. -/
  visits : List Nat
  /-- The outcomes of the visits of the current list, newest first. -/
  outcomes : List Outcome
  ends : List End

def init : State where
  scanId := none
  entries := []
  pending := none
  index := 0
  tuned := none
  routed := none
  last := none
  held := false
  holdGen := 0
  visitGen := 0
  stopping := false
  skip := false
  resume := false
  failStreak := 0
  running := false
  lock := []
  runner := .dead
  caller := .idle
  keys := []
  paused := []
  txRoute := none
  sent := []
  barrier := false
  visits := []
  outcomes := []
  ends := []

/-! ## frames and positions -/

/-- `_reset` -/
def State.reset (s : State) : State :=
  { s with
    scanId := none
    entries := []
    pending := none
    index := 0
    tuned := none
    routed := none
    last := none
    held := false
    holdGen := 0
    visitGen := 0
    stopping := false
    skip := false
    resume := false
    failStreak := 0
    barrier := false
    visits := []
    outcomes := [] }

/-- `_tuned_pos` -/
def State.tunedPos (s : State) : Option Nat :=
  s.tuned.bind fun ref => s.entries.findIdx? (·.ref = ref)

/-- `_send_frame` -/
def State.send (s : State) (report : Report) (entry : Option Entry) (reason : Option Reason) :
    State :=
  match s.scanId with
  | none => s
  | some scanId => { s with sent := ⟨scanId, report, s.index, entry, reason⟩ :: s.sent }

/-- `_emit`: a frame that says nothing new is not sent. -/
def State.emit (s : State) (report : Report) (reason : Option Reason) (untuned : Bool) : State :=
  let entry := if untuned then none else s.entries[s.index]?
  let key := (report, s.index, entry.map Entry.ref)
  if s.last = some key ∧ reason = none then s
  else { s with last := some key }.send report entry reason

/-- `_stopped_frame` and `_reset`: the end of a scan. -/
def State.terminate (s : State) (reason : Reason) : State :=
  let pos := s.tunedPos
  let s := { s with
    index := pos.getD s.index
    ends := ⟨reason, s.entries.length, s.outcomes⟩ :: s.ends }
  { (s.send .stopped (pos.bind (s.entries[·]?)) (some reason)).reset with running := false }

/-- `active_slots` -/
def State.activeSlots (s : State) : List Int :=
  (s.entries ++ s.pending.getD []).map Entry.slot

/-- `_drained` -/
def State.drained (s : State) : Bool := s.activeSlots.any (· ∈ s.paused)

/-- `_next_index`, assigned: a pending list is adopted here, and the scan goes
on relative to the current entry. -/
def State.advance (s : State) (offset : Nat) : State :=
  match s.pending with
  | some new =>
    let ref := (s.entries[s.index]?).map Entry.ref
    { s with
      entries := new
      pending := none
      failStreak := 0
      index := match new.findIdx? (fun e => some e.ref = ref) with
        | some pos => (pos + offset) % new.length
        | none => s.index % new.length
      visits := []
      outcomes := [] }
  | none => { s with index := (s.index + offset) % s.entries.length }

/-! ## lock and hold -/

def State.enqueue (s : State) (p : Party) : State := { s with lock := s.lock ++ [p] }

def State.release (s : State) (p : Party) : State := { s with lock := s.lock.erase p }

/-- The beginning of `hold`: the flag first, then the lock. -/
def State.beginHold (s : State) (p : Party) : State :=
  { s with held := true, holdGen := s.holdGen + 1, resume := false, visits := [] }.enqueue p

/-- What an `await` returns with. -/
inductive Applied
  | ok
  | failed
  | updating
  | raised
deriving DecidableEq, Repr

inductive Carrier
  | yes
  | no
  | failed
  | updating
  | raised
deriving DecidableEq, Repr

inductive Event
  | go
  | applied (r : Applied)
  | read (r : Carrier) (expired : Bool)
  | routed (ok : Bool)
deriving DecidableEq, Repr

/-- A `hold` that goes on, returns or raises. -/
inductive HoldResult
  | on (phase : HoldPhase)
  | returned
  | raised
deriving DecidableEq, Repr

/-- `_route` has returned; a failure is only logged. -/
def State.setRoute (s : State) (entry : Entry) (ok : Bool) : State :=
  { s with
    routed := some entry.ref
    txRoute := if ok then some entry.target else s.txRoute }

/-- `hold` from the lock on.  The entry to route is looked up again after the
frame was sent. -/
def State.holdStep (s : State) (p : Party) (reason : Reason) (keyed : Option Module) :
    HoldPhase → Event → Option (State × HoldResult)
  | .waiting, .go =>
    if s.lock.head? = some p then
      if !s.running || s.stopping then some (s.release p, .returned)
      else
        let pos := s.tunedPos
        some ({ s with index := pos.getD s.index }.emit .held (some reason) pos.isNone,
          .on (.emitting pos))
    else none
  | .emitting (some pos), .go =>
    if s.routed = s.tuned then some (s.release p, .returned)
    else match s.entries[pos]? with
      | none => some (s.release p, .raised)
      | some entry =>
        if keyed = some entry.target ∨ (keyed = none ∧ s.keys = []) then
          some (s, .on (.routing entry))
        else some (s.release p, .returned)
  | .emitting none, .go => some (s.release p, .returned)
  | .routing entry, .routed ok => some ((s.setRoute entry ok).release p, .returned)
  | _, _ => none

/-! ## runner -/

/-- `_finish`: an external stop owns the shutdown. -/
def State.finish (s : State) (reason : Reason) : State :=
  if s.stopping then { s with runner := .dead }
  else { s.terminate reason with runner := .dead }

/-- `_step`, on the lock. -/
def State.queue (s : State) (v : Visit) (op : Op) : State :=
  { s.enqueue .runner with runner := .queued v op }

/-- The runner calls `hold`. -/
def State.ownHold (s : State) : State := { s.beginHold .runner with runner := .hold .waiting }

/-- The top of the loop of `_run`, up to the next `await`. -/
def State.loop (s : State) : State :=
  if s.held then { s with runner := .parked }
  else if s.stopping then { s with runner := .dead }
  else match s.entries[s.index]? with
    | none => s.finish .internalError
    | some entry =>
      let s := { s with skip := false, visitGen := s.holdGen, visits := s.index :: s.visits }
      if s.keys = [] then s.queue ⟨entry, false⟩ (.emit .scanning) else s.ownHold

/-- `_HeldSignal`: the visit ends without a result, and the loop goes on. -/
def State.aborted (s : State) : State := { s with outcomes := .aborted :: s.outcomes }.loop

/-- A visit has returned. -/
def State.visited (s : State) (reachable : Bool) : State :=
  if reachable then
    ({ s with failStreak := 0, outcomes := .reachable :: s.outcomes }.advance 1).loop
  else
    let s := { s with failStreak := s.failStreak + 1, outcomes := .failed :: s.outcomes }
    if s.entries.length ≤ s.failStreak then s.finish .noReachableEntries
    else (s.advance 1).loop

/-- The top of the listen loop. -/
def State.listen (s : State) (v : Visit) : State :=
  if s.skip then s.visited true else s.queue v (.carrier false)

/-- The top of the loop on a carrier. -/
def State.rest (s : State) (v : Visit) : State :=
  if s.skip then s.visited true else { s with runner := .sleeping v true }

/-- Carrier in the listen window: the route follows, unless a transmitter is
keyed. -/
def State.found (s : State) (v : Visit) : State :=
  if s.keys = [] then s.queue v .route
  else if s.held || s.stopping then s.aborted
  else s.ownHold

/-- The runner is resumed by what it awaited. -/
def State.runnerStep (s : State) (e : Event) : Option State :=
  match s.runner, e with
  | .fresh, .go => some s.loop
  | .parked, .go =>
    if s.resume then some (s.advance 0).loop
    else if s.drained then some (s.finish .moduleUpdate)
    else none
  | .queued v op, .go =>
    if s.lock.head? = some .runner then
      if s.held || s.stopping || s.visitGen ≠ s.holdGen then some (s.release .runner).aborted
      else if s.drained then some ((s.release .runner).finish .moduleUpdate)
      else match op with
        | .emit report => some { s.emit report none false with runner := .inFlight v op }
        | _ => some { s with runner := .inFlight v op }
    else none
  | .inFlight v (.emit .scanning), .go => some ((s.release .runner).queue v .apply)
  | .inFlight v (.emit _), .go => some ((s.release .runner).rest v)
  | .inFlight v .apply, .applied r =>
    let s := s.release .runner
    match r with
    | .ok => some ({ s with tuned := some v.entry.ref }.listen v)
    | .failed => some ({ s with tuned := none }.visited false)
    | .updating => some ({ s with tuned := none }.finish .moduleUpdate)
    | .raised => some (s.finish .internalError)
  | .inFlight v (.carrier parked), .read r expired =>
    let s := s.release .runner
    match r with
    | .failed => some (s.visited false)
    | .updating => some (s.finish .moduleUpdate)
    | .raised => some (s.finish .internalError)
    | .yes =>
      if !parked then some (s.found v)
      else if v.hang then some (s.queue { v with hang := false } (.emit .active))
      else some (s.rest v)
    | .no =>
      if !parked then
        if expired then some (s.visited true) else some { s with runner := .sleeping v false }
      else if !v.hang then some (s.queue { v with hang := true } (.emit .hang))
      else if expired then some (s.visited true)
      else some (s.rest v)
  | .inFlight v .route, .routed ok =>
    some (((s.setRoute v.entry ok).release .runner).queue v (.emit .active))
  | .sleeping v false, .go => some (s.listen v)
  | .sleeping v true, .go => some (s.queue v (.carrier true))
  | .hold phase, e =>
    match s.holdStep .runner .ptt none phase e with
    | some (s, .on phase) => some { s with runner := .hold phase }
    | some (s, .returned) => some s.aborted
    | some (s, .raised) => some (s.finish .internalError)
    | none => none
  | _, _ => none

/-! ## broker -/

/-- `start`, once nothing runs. -/
def State.begin (s : State) (scanId : String) (entries : List Entry) : State :=
  let s := { s.reset with scanId := some scanId, entries }
  if entries = [] then s.terminate .emptyScanList
  else { s with running := true, runner := .fresh }

/-- `stop`, up to the lock; `next` is what the caller does after it. -/
def State.callStop (s : State) (reason : Reason) (next : Option Start) : State :=
  if !s.running || s.stopping then s
  else { s.enqueue .broker with stopping := true, barrier := false, caller := .stop reason next }

/-- A `hold` of the broker returns; the module that it was for is keyed now. -/
def State.holdReturned (s : State) (keyed : Option Module) : State :=
  { s with
    caller := .idle
    barrier := s.running && !s.stopping
    keys := match keyed with
      | some m => m :: s.keys
      | none => s.keys }

/-- `hold`, called by the broker. -/
def State.callHold (s : State) (reason : Reason) (keyed : Option Module) : State :=
  if !s.running || s.held || s.stopping then s.holdReturned keyed
  else { s.beginHold .broker with caller := .hold reason keyed .waiting }

inductive Action
  | stop
  | hold
  | resume
  | skip
  | other
deriving DecidableEq, Repr

/-- `control` -/
def State.control (s : State) (scanId : String) (action : Action) : State :=
  if !s.running || s.scanId ≠ some scanId then s
  else match action with
    | .stop => s.callStop .operator none
    | .hold => s.callHold .operator none
    | .resume => if s.held then { s with held := false, resume := true, barrier := false } else s
    | .skip =>
      if s.held then { s.advance 1 with held := false, resume := true, barrier := false }
      else { s with skip := true }
    | .other => s

/-- `update` -/
def State.update (s : State) (scanId : String) (entries : List Entry) : State :=
  if !s.running || s.scanId ≠ some scanId then s
  else if entries = [] then s.callStop .emptyScanList none
  else { s with pending := some entries }

/-- The broker's call goes on.  `stop` cancels the runner while it has the
lock, so that no step is cut short. -/
def State.callerStep (s : State) (e : Event) : Option State :=
  match s.caller with
  | .hold reason keyed phase =>
    match s.holdStep .broker reason keyed phase e with
    | some (s, .on phase) => some { s with caller := .hold reason keyed phase }
    | some (s, .returned) => some (s.holdReturned keyed)
    | some (s, .raised) => some { s with caller := .idle }
    | none => none
  | .stop reason next =>
    if s.lock.head? = some .broker ∧ e = .go then
      let s := { (s.release .broker).release .runner with runner := .dead }
      let s := { s.terminate reason with caller := .idle }
      match next with
      | none => some s
      | some start => some (s.begin start.scanId start.entries)
    else none
  | .idle => none

/-! ## steps -/

/-- Calls of the broker. -/
inductive Call
  | start (scanId : String) (entries : List Entry)
  | update (scanId : String) (entries : List Entry)
  | control (scanId : String) (action : Action)
  | hold (reason : Reason) (keyed : Option Module)
  | disconnect
  | shutdown
deriving DecidableEq, Repr

inductive Label
  | call (c : Call)
  | broker (e : Event)
  | runner (e : Event)
  | keys (ms : List Module)
  | paused (slots : List Int)
  | txRoute (m : Option Module)
deriving DecidableEq, Repr

/-- A call up to its first `await`.  Calls come one at a time, so no stop is under
way when another call is made. -/
def State.call (s : State) : Call → State
  | .start scanId entries =>
    if s.running then s.callStop .replaced (some ⟨scanId, entries⟩) else s.begin scanId entries
  | .update scanId entries => s.update scanId entries
  | .control scanId action => s.control scanId action
  | .hold reason keyed => s.callHold reason keyed
  | .disconnect => s.callStop .disconnect none
  | .shutdown => s.callStop .shutdown none

def step (s : State) : Label → Option State
  | .call c => if s.caller = .idle then some (s.call c) else none
  | .broker e => s.callerStep e
  | .runner e => s.runnerStep e
  | .keys ms => some { s with keys := ms }
  | .paused slots => some { s with paused := slots }
  | .txRoute m => some { s with txRoute := m }

end StationManager.Agent.Scanner
