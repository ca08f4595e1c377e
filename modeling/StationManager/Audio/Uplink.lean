import StationManager.Lib.Transition

/-!
# StationManager.Audio.Uplink

The transmit and diagnostic half of the agent's `AudioEngine`, as asyncio tasks that
are suspended at their awaits.  One task dispatches the server's messages one after the
other; beside it run hot-plug refreshes, the two safety timers of the mic and the
background measurement of a diagnostic.  A step resumes one task and runs it to its
next await.

* `_tx_lock` and `_diag_lock` name their owner; a task that waits for one can be resumed
  once it is free.
* A bridge is started and stopped in a thread.  Its record says how far that has come:
  `started` and `stopped` are set when the awaiting task is resumed, `stopRequested`
  when the thread is handed the stop.
* Cancelling a task that sleeps ends it, so a disarmed timer is gone; a cancelled
  measurement is marked and is resumed with the exception.
-/

namespace StationManager.Audio.Uplink

abbrev BridgeId := Nat

abbrev TaskId := Nat

abbrev Slot := Int

inductive Kind where
  | tx
  | diag
deriving DecidableEq, Repr

/-- How far a bridge has come; its start is in the thread as soon as there is a record. -/
structure Bridge where
  kind : Kind
  started : Bool := false
  stopRequested : Bool := false
  stopped : Bool := false
deriving DecidableEq, Repr

/-- The engine's `_tx`. -/
structure Tx where
  bridge : BridgeId
  slot : Slot
  module : String
deriving DecidableEq, Repr

/-- The engine's `_diag`. -/
structure Diag where
  bridge : BridgeId
  slot : Slot
  ref : Nat
deriving DecidableEq, Repr

inductive Timer where
  | deadMan
  | tot
deriving DecidableEq, Repr

/-- Who holds a lock. -/
inductive Owner where
  | server
  | task (i : TaskId)
deriving DecidableEq, Repr

inductive Anchor where
  | c
  | u
  | other
deriving DecidableEq, Repr

/-- A message of the server; a slot that is no int is none.  `isMic` says whether the
reference of a frame is the mic's. -/
inductive Message where
  | micState (active : Bool) (slot : Option Slot) (module : String)
  | media (ref : Nat) (isMic : Bool)
  | diagCommand (anchor : Anchor) (slot : Option Slot) (ref : Nat)
  | other
  /-- the connection ends -/
  | closed
deriving DecidableEq, Repr

/-! ## where tasks are suspended -/

/-- What the dispatcher goes on with after `_teardown_tx`. -/
inductive AfterTx where
  | micOff
  | startTx (slot : Slot) (module : String)
  | close
deriving DecidableEq, Repr

/-- What the dispatcher goes on with after `_teardown_diag`. -/
inductive AfterDiag where
  | micOn (slot : Slot) (module : String)
  | close
deriving DecidableEq, Repr

/-- The dispatcher. -/
inductive Serve where
  | idle
  | micOffLock
  | micOnLock (slot : Slot) (module : String)
  | resolveTx (slot : Slot) (module : String)
  | stopTx (b : BridgeId) (k : AfterTx)
  | sendOff (k : AfterTx)
  | startTx (b : BridgeId)
  | failTx (b : BridgeId)
  | diagLock (k : AfterDiag)
  | stopDiag (b : BridgeId) (task : Option TaskId) (k : AfterDiag)
  | resolveDiag (slot : Slot) (ref : Nat)
  | startDiag (b : BridgeId) (slot : Slot) (ref : Nat)
  | failDiag (b : BridgeId)
  /-- a diagnostic at anchor C runs in its thread -/
  | runC
  | reply
  | closeRx
  | closed
deriving DecidableEq, Repr

/-- What a background task goes on with after `_teardown_diag`. -/
inductive TaskAfterDiag where
  | refresh (diag : Diag)
  | measurement (cancelled : Bool)
deriving DecidableEq, Repr

/-- The slots of a refresh, and those that enumerated again in place. -/
structure Refresh where
  slots : List Slot
  rebuild : List Slot
deriving DecidableEq, Repr

/-- The other tasks.  `none` as a refresh is a timer that has fired. -/
inductive Task where
  | refreshRx (r : Refresh)
  | txLock (r : Refresh)
  | stopTx (b : BridgeId) (r : Option Refresh)
  | sendOff (r : Option Refresh)
  | measure (b : BridgeId)
  | diagLock (k : TaskAfterDiag)
  | stopDiag (b : BridgeId) (task : Option TaskId) (k : TaskAfterDiag)
  | emit
deriving DecidableEq, Repr

structure Engine where
  serve : Serve := .idle
  tasks : Table TaskId Task := .empty
  /-- timers whose sleep has not ended -/
  timers : Table TaskId Timer := .empty
  bridges : Table BridgeId Bridge := .empty
  nextTask : TaskId := 0
  nextBridge : BridgeId := 0
  /-- measurements that a teardown has cancelled -/
  cancelled : List TaskId := []
  tx : Option Tx := none
  deadMan : Option TaskId := none
  deadManToken : Option TaskId := none
  tot : Option TaskId := none
  micActive : Bool := false
  txLock : Option Owner := none
  diag : Option Diag := none
  diagTask : Option TaskId := none
  diagLock : Option Owner := none
  closed : Bool := false

/-- What the environment answers at a resumption: the next message, whether a node was
found, whether a start succeeded, whether the running bridge is alive, and whether the
mic is registered. -/
structure Answer where
  message : Message := .other
  nodeFound : Bool := true
  startOk : Bool := true
  alive : Bool := true
  registered : Bool := true
deriving DecidableEq, Repr

namespace Engine

/-! ## timers -/

/-- Cancel the sleeping task behind a reference. -/
def cancelTimer (timers : Table TaskId Timer) : Option TaskId → Table TaskId Timer
  | none => timers
  | some i => timers.erase i

/-- `_disarm_dead_man` -/
def disarmDeadMan (s : Engine) : Engine :=
  { s with timers := cancelTimer s.timers s.deadMan, deadManToken := none, deadMan := none }

/-- `_disarm_tot` -/
def disarmTot (s : Engine) : Engine := { s with timers := cancelTimer s.timers s.tot, tot := none }

/-- `_arm_dead_man`; the token is the task's own. -/
def armDeadMan (s : Engine) : Engine :=
  let s := s.disarmDeadMan
  { s with
    nextTask := s.nextTask + 1
    timers := s.timers.insert s.nextTask .deadMan
    deadManToken := some s.nextTask
    deadMan := some s.nextTask }

/-- `_arm_tot` -/
def armTot (s : Engine) : Engine :=
  let s := s.disarmTot
  { s with
    nextTask := s.nextTask + 1
    timers := s.timers.insert s.nextTask .tot
    tot := some s.nextTask }

/-! ## bridges -/

/-- Hand the stop of a bridge, if there is one, to a thread. -/
def requestStop (s : Engine) (b : Option BridgeId) : Engine :=
  { s with
    bridges := match b with
      | none => s.bridges
      | some b => s.bridges.modify b fun x => { x with stopRequested := true } }

def markStopped (s : Engine) (b : BridgeId) : Engine :=
  { s with bridges := s.bridges.modify b fun x => { x with stopped := true } }

def markStarted (s : Engine) (b : BridgeId) : Engine :=
  { s with bridges := s.bridges.modify b fun x => { x with started := true } }

/-- Make a bridge and hand its start to a thread. -/
def newBridge (s : Engine) (kind : Kind) : Engine :=
  { s with nextBridge := s.nextBridge + 1, bridges := s.bridges.insert s.nextBridge { kind } }

/-! ## teardowns -/

/-- `_teardown_tx` up to its first await, which is the stop of the bridge if there is one. -/
def teardownTx (s : Engine) : Engine :=
  { (s.disarmDeadMan.disarmTot).requestStop (s.tx.map Tx.bridge) with tx := none }

/-- The body of `_teardown_diag` under the lock, up to its first await. -/
def clearDiag (s : Engine) (owner : Owner) : Engine :=
  { s.requestStop (s.diag.map Diag.bridge) with
    diagLock := some owner
    diagTask := none
    diag := none }

/-- The rest of `_teardown_diag`: cancel the measurement unless it is the caller, and
give the lock back. -/
def leaveDiag (s : Engine) (owner : Owner) (task : Option TaskId) : Engine :=
  { s with
    diagLock := none
    cancelled := match task with
      | none => s.cancelled
      | some i => if owner = .task i then s.cancelled else i :: s.cancelled }

/-! ## the dispatcher -/

/-- The part of `_start_tx` that makes the new bridge. -/
def makeTx (s : Engine) (slot : Slot) (module : String) : Engine :=
  { s.newBridge .tx with
    tx := some { bridge := s.nextBridge, slot, module }
    serve := .startTx s.nextBridge }

/-- The dispatcher after `_teardown_tx` returned. -/
def afterTx (s : Engine) : AfterTx → Engine
  | .micOff => { s with txLock := none, serve := .idle }
  | .startTx slot module => s.makeTx slot module
  | .close => { s with serve := .diagLock .close }

def serveTeardownTx (s : Engine) (k : AfterTx) : Engine :=
  match s.tx with
  | none => s.teardownTx.afterTx k
  | some tx => { s.teardownTx with serve := .stopTx tx.bridge k }

/-- The dispatcher after `_teardown_diag` returned. -/
def afterDiag (s : Engine) : AfterDiag → Engine
  | .micOn slot module => { s with serve := .micOnLock slot module }
  | .close => { s with serve := .closed }

/-- The running bridge serves the route already. -/
def keepsTx (s : Engine) (slot : Slot) (module : String) (e : Answer) : Bool :=
  match s.tx with
  | none => false
  | some tx => decide (tx.slot = slot) && decide (tx.module = module) && e.alive

/-- `_start_tx` under the lock, up to the lookup of the node: a keepalive for the running
bridge changes nothing. -/
def startTx (s : Engine) (slot : Slot) (module : String) (e : Answer) : Engine :=
  if s.keepsTx slot module e || !e.registered then { s with serve := .idle }
  else { s with txLock := some .server, serve := .resolveTx slot module }

/-- `on_diag_command` up to its first await. -/
def onDiagCommand (s : Engine) (anchor : Anchor) (slot : Option Slot) (ref : Nat) : Engine :=
  match slot with
  | none => { s with serve := .reply }
  | some slot =>
    if anchor = .other ∨ s.tx ≠ none ∨ s.micActive = true ∨ s.diag ≠ none then
      { s with serve := .reply }
    else if anchor = .u then { s with serve := .resolveDiag slot ref }
    else { s with serve := .runC }

/-- `on_media_frame`: frames of a diagnostic go to its bridge, those of the mic to the
transmitter, where they pet the dead-man. -/
def onMediaFrame (s : Engine) (ref : Nat) (isMic : Bool) : Engine :=
  if (s.diag.map Diag.ref) = some ref then s
  else if s.tx = none ∨ isMic = false then s
  else s.armDeadMan

/-- `_dispatch` of a message up to its first await, and the `finally` that stops the
engine. -/
def dispatch (s : Engine) : Message → Engine
  | .micState false _ _ => { s with micActive := false, serve := .micOffLock }
  | .micState true none _ => s
  | .micState true (some slot) module =>
    { s with micActive := true, serve := .diagLock (.micOn slot module) }
  | .media ref isMic => s.onMediaFrame ref isMic
  | .diagCommand anchor slot ref => s.onDiagCommand anchor slot ref
  | .other => s
  | .closed => { s with closed := true, serve := .closeRx }

/-- Resume the dispatcher. -/
def resumeServe (s : Engine) (e : Answer) : Option Engine :=
  match s.serve with
  | .idle => some (s.dispatch e.message)
  | .micOffLock =>
    if s.txLock = none then
      some (({ s with txLock := some .server }).serveTeardownTx .micOff)
    else none
  | .micOnLock slot module => if s.txLock = none then some (s.startTx slot module e) else none
  | .resolveTx slot module =>
    if e.nodeFound then
      some (if s.tx = none then s.makeTx slot module
        else s.serveTeardownTx (.startTx slot module))
    else some { s with txLock := none, serve := .idle }
  | .stopTx b k => some { s.markStopped b with serve := .sendOff k }
  | .sendOff k => some (s.afterTx k)
  | .startTx b =>
    if e.startOk then
      some { (s.markStarted b).armDeadMan.armTot with txLock := none, serve := .idle }
    else some { s.requestStop (some b) with tx := none, serve := .failTx b }
  | .failTx b => some { s.markStopped b with txLock := none, serve := .idle }
  | .diagLock k =>
    if s.diagLock = none then
      match s.diag with
      | none => some (((s.clearDiag .server).leaveDiag .server s.diagTask).afterDiag k)
      | some diag => some { s.clearDiag .server with serve := .stopDiag diag.bridge s.diagTask k }
    else none
  | .stopDiag b task k => some (((s.markStopped b).leaveDiag .server task).afterDiag k)
  | .resolveDiag slot ref =>
    if e.nodeFound then
      some { s.newBridge .diag with serve := .startDiag s.nextBridge slot ref }
    else some { s with serve := .reply }
  | .startDiag b slot ref =>
    if e.startOk then
      some { s.markStarted b with
        diag := some { bridge := b, slot, ref }
        diagTask := some s.nextTask
        nextTask := s.nextTask + 1
        tasks := s.tasks.insert s.nextTask (.measure b)
        serve := .idle }
    else some { s.requestStop (some b) with serve := .failDiag b }
  | .failDiag b => some { s.markStopped b with serve := .reply }
  | .runC => some { s with serve := .reply }
  | .reply => some { s with serve := .idle }
  | .closeRx => some (s.serveTeardownTx .close)
  | .closed => none

/-! ## the other tasks -/

/-- A refresh finds the slot gone, or enumerated again. -/
def affected (r : Refresh) (slot : Slot) : Bool :=
  decide (slot ∉ r.slots) || decide (slot ∈ r.rebuild)

/-- A background task is suspended at its next await, or ends. -/
def suspend (s : Engine) (i : TaskId) (next : Option Task) : Engine :=
  { s with
    tasks := match next with
      | none => s.tasks.erase i
      | some task => s.tasks.modify i fun _ => task }

/-- The last part of `refresh`, on the diagnostic. -/
def refreshDiag (s : Engine) (i : TaskId) (r : Refresh) : Engine :=
  s.suspend i ((s.diag.filter fun diag => affected r diag.slot).map fun diag =>
    .diagLock (.refresh diag))

/-- A background task after `_teardown_tx` returned. -/
def taskAfterTx (s : Engine) (i : TaskId) : Option Refresh → Engine
  | none => s.suspend i none
  | some r => ({ s with txLock := none }).refreshDiag i r

/-- The transmitter part of `refresh`, under the lock. -/
def refreshTx (s : Engine) (i : TaskId) (r : Refresh) : Engine :=
  match s.tx with
  | none => s.refreshDiag i r
  | some tx =>
    if affected r tx.slot then
      ({ s.teardownTx with txLock := some (.task i) }).suspend i
        (some (.stopTx tx.bridge (some r)))
    else s.refreshDiag i r

/-- What a background task does after `_teardown_diag` returned what it cleared: a refresh
answers the command it aborted, a measurement emits its result unless it was cancelled. -/
def taskAfterDiag (torn : Option BridgeId) : TaskAfterDiag → Option Task
  | .refresh diag => if torn = some diag.bridge then some .emit else none
  | .measurement true => none
  | .measurement false => some .emit

/-- Resume a background task that was not cancelled. -/
def resumeTask (s : Engine) (i : TaskId) : Task → Option Engine
  | .refreshRx r => some (s.suspend i (some (.txLock r)))
  | .txLock r => if s.txLock = none then some (s.refreshTx i r) else none
  | .stopTx b r => some ((s.markStopped b).suspend i (some (.sendOff r)))
  | .sendOff r => some (s.taskAfterTx i r)
  | .measure _ => some (s.suspend i (some (.diagLock (.measurement false))))
  | .diagLock k =>
    if s.diagLock = none then
      match s.diag with
      | none =>
        some (((s.clearDiag (.task i)).leaveDiag (.task i) s.diagTask).suspend i
          (taskAfterDiag none k))
      | some diag =>
        some ((s.clearDiag (.task i)).suspend i (some (.stopDiag diag.bridge s.diagTask k)))
    else none
  | .stopDiag b task k =>
    some (((s.markStopped b).leaveDiag (.task i) task).suspend i (taskAfterDiag (some b) k))
  | .emit => some (s.suspend i none)

/-- A lock after a task that may hold it has ended. -/
def release (lock : Option Owner) (i : TaskId) : Option Owner :=
  if lock = some (.task i) then none else lock

/-- Resume a task with the `CancelledError`: a measurement still runs its `finally`, any
other await lets go of the lock that its task holds and ends it. -/
def throwTask (s : Engine) (i : TaskId) (task : Task) : Engine :=
  let s := { s with cancelled := s.cancelled.filter (· ≠ i) }
  match task with
  | .measure _ => s.suspend i (some (.diagLock (.measurement true)))
  | _ => ({ s with txLock := release s.txLock i, diagLock := release s.diagLock i }).suspend i none

/-- A timer that has detached itself tears the transmitter down. -/
def timerTeardown (s : Engine) (i : TaskId) : Engine :=
  { s.teardownTx with
    tasks := match s.tx with
      | none => s.tasks
      | some tx => s.tasks.insert i (.stopTx tx.bridge none) }

/-- The sleep of a timer ends; a dead-man that is no longer the current one does nothing. -/
def fire (s : Engine) (i : TaskId) : Timer → Engine
  | .deadMan =>
    if s.deadManToken = some i then
      ({ s with
        timers := s.timers.erase i
        deadMan := none
        deadManToken := none }).timerTeardown i
    else { s with timers := s.timers.erase i }
  | .tot => ({ s with timers := s.timers.erase i, tot := none }).timerTeardown i

end Engine

/-- What the event loop does next. -/
inductive Label where
  | serve (e : Answer)
  | task (i : TaskId)
  | fire (i : TaskId)
  /-- the supervisor schedules a refresh -/
  | refresh (r : Refresh)
deriving DecidableEq, Repr

open Uplink.Engine

def step (s : Engine) : Label → Option Engine
  | .serve e => s.resumeServe e
  | .task i => match s.tasks.get? i with
      | none => none
      | some task => if i ∈ s.cancelled then some (s.throwTask i task) else s.resumeTask i task
  | .fire i => (s.timers.get? i).map (s.fire i)
  | .refresh r =>
    if s.closed then none
    else some { s with
      nextTask := s.nextTask + 1
      tasks := s.tasks.insert s.nextTask (.refreshRx r) }

end StationManager.Audio.Uplink
