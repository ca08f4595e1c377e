import StationManager.Agent.ModuleOta
import StationManager.Deployments.Download
import StationManager.Lib.Directory
import StationManager.Lib.Transition

/-!
# StationManager.Agent.SimBackend

`SimBackend` of the station agent, one call to the file system after the other: a
flash swaps the harness binary and leaves the marker `pending` until the binary
is verified, and a rollback puts the old binary back.

A call works, or it raises, or the agent ends before it.  What was done stays
done: a crash is one of the agent and not of the machine, so syncing changes
nothing.
-/

namespace StationManager.Agent.SimBackend

/-- The names in `sim_dir`. -/
inductive Name
  | live
  | new
  | prev
  | rb
  | pending
deriving DecidableEq

/-- A flash: the image under its path, if it can be read, and the pinned checksum. -/
structure Job where
  image : Option Bytes
  checksum : String

/-- `_SHA_RE` -/
def isDigest (text : String) : Bool :=
  let digits := if text.toList.getLast? = some '\n' then text.toList.dropLast else text.toList
  digits.length = 64 && digits.all fun c => c.isDigit || ('a' ≤ c && c ≤ 'f')

/-- Who waits for a rollback. -/
inductive Caller
  /-- `flash`, which found the marker of an earlier one -/
  | reflash (job : Job)
  /-- `flash`, after its installation failed -/
  | failed
  | afterVerify
  | recover
  | startupRecover
  /-- nobody -/
  | direct

/-- The next call. -/
inductive Pc
  | idle
  -- `_stage`
  | stageClear (job : Job)
  | stageCreate (job : Job)
  | stageCopy (job : Job)
  | stageHash (job : Job)
  | stageDrop
  -- `_refresh_prev`
  | prevClear
  | prevLink
  -- `_touch_pending`
  | pendingTouch
  | pendingSync
  | pendingSyncDir
  -- `_cleanup_before_pending`
  | cleanNew
  | cleanPending
  | install
  | installSync
  | restart
  -- `rollback`
  | rbClear (k : Caller)
  | rbLink (k : Caller)
  | rbReplace (k : Caller)
  | rbUnlink (k : Caller)
  | rbSync (k : Caller)
  | rbRestart (k : Caller)
  | rbDropNew (k : Caller)
  | rbDropRb (k : Caller)
  | rbDropPending (k : Caller)
  | rbEnd (k : Caller)
  -- `after_verify` of a success
  | verifiedClear
  | verifiedSync

/-- What the last operation returned. -/
inductive Returned
  | flash (outcome : FlashOutcome)
  | recover (outcome : Option FlashOutcome)
  | rollback (done : Bool)
  | nothing
deriving DecidableEq

/-- `before` is the live binary before the last flash, `passed` the last one that was
reported as verified, and `committed` the last one whose marker was removed for it. -/
structure State where
  dir : Directory Name Bytes
  pc : Pc
  returned : Option Returned
  before : Option Bytes
  passed : Option Bytes
  committed : Option Bytes

inductive Operation
  /-- `present` says whether the module is still in its slot. -/
  | flash (present : Bool) (job : Job)
  | afterVerify (success : Bool)
  | rollback
  | recover
  | startupRecover

inductive Label
  | call (op : Operation)
  /-- The next call works. -/
  | ok
  /-- The next call raises; a copy has written a part. -/
  | error (written : Bytes)
  /-- The agent ends and is started again. -/
  | crash (written : Bytes)

namespace State

def goto (s : State) (pc : Pc) : State := { s with pc }

def exit (s : State) (r : Returned) : State := { s with pc := .idle, returned := some r }

/-- `rollback` -/
def startRollback (s : State) (k : Caller) : State :=
  s.goto (if s.dir.has .prev then .rbClear k else .rbUnlink k)

/-- The steps of a flash begin. -/
def startStage (s : State) (job : Job) : State :=
  { s with pc := .stageClear job, before := s.dir.content .live }

/-- A rollback has ended. -/
def endRollback (s : State) (done : Bool) : Caller → State
  | .reflash job => if done then s.startStage job else s.exit (.flash .transient)
  | .failed => s.exit (.flash .rolledBack)
  | .afterVerify | .startupRecover => s.exit .nothing
  | .recover => s.exit (.recover (some .rolledBack))
  | .direct => s.exit (.rollback done)

/-- The next call raises. -/
def fail (s : State) (written : Bytes) : State :=
  match s.pc with
  | .idle => s
  | .stageCopy _ => { s with dir := s.dir.write .new written }.goto .cleanNew
  | .stageClear _ | .stageCreate _ | .stageHash _ | .stageDrop | .prevClear | .prevLink
  | .pendingTouch | .pendingSync | .pendingSyncDir => s.goto .cleanNew
  | .cleanNew => s.goto .cleanPending
  | .cleanPending => s.exit (.flash .transient)
  | .install | .installSync | .restart => s.startRollback .failed
  | .rbClear k | .rbLink k | .rbReplace k | .rbUnlink k | .rbSync k | .rbRestart k
  | .rbDropNew k | .rbDropRb k | .rbDropPending k | .rbEnd k => s.endRollback false k
  | .verifiedClear | .verifiedSync => s.exit .nothing

/-- The next call changes the directory, or raises. -/
def change (s : State) (dir : Option (Directory Name Bytes)) (pc : Pc) : State :=
  dir.elim (s.fail []) fun dir => { s with dir, pc }

/-- The next call works. -/
def advance (sha256 : Bytes → String) (s : State) : State :=
  match s.pc with
  | .idle => s
  | .stageClear job =>
    let s := { s with dir := s.dir.unlink .new }
    if isDigest job.checksum.toLower then s.goto (.stageCreate job)
    else s.exit (.flash .transient)
  | .stageCreate job => s.change (s.dir.create .new []) (.stageCopy job)
  | .stageCopy job => s.change (job.image.map (s.dir.write .new)) (.stageHash job)
  | .stageHash job =>
    s.goto (if (s.dir.content .new).map sha256 = some job.checksum.toLower then .prevClear
      else .stageDrop)
  | .stageDrop => { s with dir := s.dir.unlink .new }.exit (.flash .transient)
  | .prevClear =>
    { s with dir := s.dir.unlink .prev }.goto
      (if s.dir.has .live then .prevLink else .pendingTouch)
  | .prevLink => s.change (s.dir.link .live .prev) .pendingTouch
  | .pendingTouch => { s with dir := s.dir.touch .pending [] }.goto .pendingSync
  | .pendingSync => s.goto .pendingSyncDir
  | .pendingSyncDir => s.goto .install
  | .cleanNew => { s with dir := s.dir.unlink .new }.goto .cleanPending
  | .cleanPending => { s with dir := s.dir.unlink .pending }.exit (.flash .transient)
  | .install => s.change (s.dir.replace .new .live) .installSync
  | .installSync => s.goto .restart
  | .restart => s.exit (.flash .ok)
  | .rbClear k => { s with dir := s.dir.unlink .rb }.goto (.rbLink k)
  | .rbLink k => s.change (s.dir.link .prev .rb) (.rbReplace k)
  | .rbReplace k => s.change (s.dir.replace .rb .live) (.rbSync k)
  | .rbUnlink k => { s with dir := s.dir.unlink .live }.goto (.rbSync k)
  | .rbSync k => s.goto (.rbRestart k)
  | .rbRestart k => s.goto (.rbDropNew k)
  | .rbDropNew k => { s with dir := s.dir.unlink .new }.goto (.rbDropRb k)
  | .rbDropRb k => { s with dir := s.dir.unlink .rb }.goto (.rbDropPending k)
  | .rbDropPending k => { s with dir := s.dir.unlink .pending }.goto (.rbEnd k)
  | .rbEnd k => s.endRollback true k
  | .verifiedClear =>
    { s with dir := s.dir.unlink .pending, committed := s.dir.content .live }.goto .verifiedSync
  | .verifiedSync => s.exit .nothing

/-- An operation is called. -/
def call (s : State) : Operation → State
  | .flash present job =>
    if !present then s.exit (.flash .transient)
    else if s.dir.has .pending then s.startRollback (.reflash job)
    else s.startStage job
  | .afterVerify true => { s with passed := s.dir.content .live }.goto .verifiedClear
  | .afterVerify false =>
    if s.dir.has .pending then s.startRollback .afterVerify else s.exit .nothing
  | .rollback => s.startRollback .direct
  | .recover => if s.dir.has .pending then s.startRollback .recover else s.exit (.recover none)
  | .startupRecover =>
    if s.dir.has .pending then s.startRollback .startupRecover else s.exit .nothing

/-- The agent ends. -/
def crash (s : State) (written : Bytes) : State :=
  match s.pc with
  | .stageCopy _ => { s with dir := s.dir.write .new written, pc := .idle, returned := none }
  | _ => { s with pc := .idle, returned := none }

end State

/-- Operations are called one after the other. -/
def step (sha256 : Bytes → String) (s : State) : Label → Option State
  | .call op => if s.pc matches .idle then some (s.call op) else none
  | .ok => if s.pc matches .idle then none else some (s.advance sha256)
  | .error written => if s.pc matches .idle then none else some (s.fail written)
  | .crash written => some (s.crash written)

end StationManager.Agent.SimBackend
