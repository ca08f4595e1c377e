import StationManager.Agent.Descriptor
import StationManager.Lib.Raising
import StationManager.Lib.Text

/-!
# StationManager.Agent.ModuleOta

One cycle of the agent's module firmware update, `ModuleOta.run_once`: recover a
flash that a restart interrupted, or ask the server for an instruction, check it
against the live module, pause the slot, download, flash, verify and report.

What the HTTP client, the module's probe, the flash backend, the control plane
and the clock answer is a `World`: the answer to the n-th question of the cycle.
A poll loop has fuel, and a cycle that uses it up does not return.
-/

namespace StationManager.Agent

/-- What a backend makes of a flash. -/
inductive FlashOutcome
  | ok
  | rejected
  | transient
  | rolledBack
  | dfuStuck
deriving DecidableEq, Repr

namespace ModuleOta

/-! ## constants -/

/-- `SETTLE_S` -/
def settleS : Rat := 45

/-- `CONFIRM_S` -/
def confirmS : Rat := 40

/-- `VERIFY_TIMEOUT_S` -/
def verifyTimeoutS : Nat := 180

/-- `VERIFY_POLL_S` -/
def verifyPollS : Rat := 5

/-- `CONFIRM_GRACE_S` -/
def confirmGraceS : Rat := 3 * verifyPollS

/-- `DFU_STUCK_MSG` -/
def dfuStuckMsg : String := "Modul hängt im DFU-Modus — Power-Cycle nötig"

/-- `API_PREFIX` -/
def apiStart : String := "/api/v1/module-firmware/"

/-- `_ARTIFACT_SUFFIX.get(artifact, "bin")` -/
def artifactSuffix (artifact : String) : String :=
  if artifact = "sim" then "native_sim" else "bin"

/-- `BUILDABLE` -/
def buildable : List String := ["dfu", "sim"]

/-! ## data -/

/-- An exception: the name of its type and its text. -/
structure Exn where
  type : String
  text : String
deriving DecidableEq

/-- `f"agent error: {type(exc).__name__}: {exc}"` -/
def Exn.agentError (e : Exn) : String := "agent error: " ++ e.type ++ ": " ++ e.text

/-- What a module says about itself.  `variant` and `version` are printed; a
missing one is the empty text. -/
structure Identity where
  uid : Option String
  variant : String
  version : String
deriving DecidableEq

/-- The control plane's last entry of a slot: the id and the uid of its modules. -/
structure Snapshot where
  modules : List (String × Option String)
deriving DecidableEq

/-- `_module_id` -/
def moduleId (snapshot : Option Snapshot) (uid : String) : String :=
  ((((snapshot.map (·.modules)).getD []).find? fun m => m.2 = some uid).map (·.1)).getD ""

/-- What a cycle is told to do. -/
structure Instruction where
  convergenceId : Int
  slot : Int
  moduleUid : String
  variant : String
  targetVersion : String
  artifact : String
  downloadUrl : String
  checksum : String
  sizeBytes : Int
deriving DecidableEq

/-- The JSON body of a response. -/
inductive Payload
  /-- `resp.json()` raises -/
  | malformed
  /-- anything but an object -/
  | other
  | object (field : String → Option Json)

structure Response where
  statusCode : Nat
  payload : Payload

inductive Phase
  | downloaded
  | flashing
deriving DecidableEq

/-- `Marker` -/
structure Marker where
  convergenceId : Int
  slot : Int
  moduleUid : String
  targetVersion : String
  oldVersion : String
  artifact : String
  path : String
  phase : Phase
  dfuAttempts : Nat := 0
  snapshot : Option Snapshot
  checksum : String
deriving DecidableEq

/-- The marker file; `corrupt` is whatever is not a marker. -/
inductive MarkerFile
  | absent
  | corrupt
  | stored (m : Marker)
deriving DecidableEq

/-- What a cycle comes to. -/
inductive Result
  | busy
  | failed
  | rejected
  | rolledBack
  | success
deriving DecidableEq

/-- The statuses that the server is told. -/
inductive Status
  | downloading
  | flashing
  | verifying
  | failed
  | rejected
  | rolledBack
deriving DecidableEq

/-- A frame for the browser or a request to the control plane. -/
inductive Event
  | started (slot : Int) (module target : String) (conv : Int)
  | stuck (slot : Int) (module msg : String)
  | finished (slot : Int) (module : String) (result : Result) (target : String)
  | forget (slot : Int)
  | refresh (force : Bool)
deriving DecidableEq

/-- What a cycle does that its cleanup or the server has to know about. -/
inductive Act
  | check
  | status (conv : Int) (status : Status) (message : String)
  | commit (conv : Int) (version : String)
  | pause (slot : Int)
  | download (path : String)
  /-- the marker of an interrupted flash is taken up -/
  | recover (m : Marker)
deriving DecidableEq

/-- The reports that end an attempt. -/
def Act.terminal : Act → Bool
  | .status _ .failed _ | .status _ .rejected _ | .status _ .rolledBack _ => true
  | .commit _ _ => true
  | _ => false

/-- The surroundings of a cycle. -/
structure World where
  /-- `module_ota_enabled` -/
  enabled : Bool
  /-- `dfu-util` and the slots' configuration are there -/
  dfuReady : Nat → Bool
  /-- `sim_dir` is there -/
  simReady : Nat → Bool
  autoBackends : Bool
  settle : String → Rat
  confirm : String → Rat
  hasControl : Bool
  hasAudio : Bool
  fwDir : String
  /-- a path resolves to a file directly in `fwDir` -/
  inFwDir : String → Bool
  /-- Python's `str` -/
  str : Json → String
  /-- Python's `bool` -/
  truthy : Json → Bool
  request : Nat → Except Exn (Option Response)
  readIdentity : Nat → Except Exn (Option Identity)
  /-- `none`: the backend has no such probe -/
  isStuck : Nat → Option (Except Exn Bool)
  lastInventory : Nat → Except Exn (Option Snapshot)
  slotBusy : Nat → Except Exn Bool
  slotActive : Nat → Except Exn Bool
  barrier : Nat → Except Exn Unit
  makeDirs : Nat → Except Exn Unit
  download : Nat → Except Exn Bool
  /-- a download leaves a file, complete or not -/
  leavesImage : Nat → Bool
  save : Nat → Except Exn Unit
  markerReads : Nat → Bool
  flash : Nat → Except Exn FlashOutcome
  recover : Nat → Except Exn (Option FlashOutcome)
  /-- the marker file that a backend leaves: it counts its attempts there -/
  leavesMarker : Nat → MarkerFile
  afterVerify : Nat → Except Exn Unit
  clock : Nat → Rat
  /-- a file that is there can be removed -/
  removes : Nat → Bool

/-- The agent between two cycles, and what it has done so far. -/
structure State where
  pool : List String
  /-- the registry of `slot_pause` -/
  paused : Int → Option (Option Snapshot)
  marker : MarkerFile
  image : String → Bool
  events : List Event
  acts : List Act
  /-- questions asked so far -/
  asked : Nat

abbrev M := Prog State Exn

/-- Ask the world. -/
def ask {α : Type} (f : Nat → Except Exn α) : M α :=
  .answer (fun s => f s.asked) fun s => { s with asked := s.asked + 1 }

/-- Ask what does not raise. -/
def query {α : Type} (f : Nat → α) : M α := ask fun n => .ok (f n)

def act (a : Act) : M Unit := .change fun s => { s with acts := s.acts ++ [a] }

/-! ## instructions -/

/-- `_SHA_RE`; its `$` also matches before a final newline. -/
def isSha (text : String) : Bool :=
  let digits := if text.toList.getLast? = some '\n' then text.toList.dropLast else text.toList
  digits.length = 64 &&
    digits.all fun c => c.isDigit || ('a' ≤ c && c ≤ 'f') || ('A' ≤ c && c ≤ 'F')

section Cycle

variable (w : World)

/-- An `int` that is not a `bool`. -/
def jsonInt? : Json → Option Int
  | .scalar (.int n) => some n
  | _ => none

/-- The checks of `_parse_instruction` on the printed fields. -/
def Instruction.valid (i : Instruction) : Bool :=
  0 < i.sizeBytes && i.moduleUid ≠ "" && i.targetVersion ≠ "" && isSha i.checksum &&
    startsWith i.downloadUrl apiStart && !occursIn ".." i.downloadUrl &&
    !i.downloadUrl.toList.any isSpace

/-- `_parse_instruction`; a malformed instruction is logged and dropped. -/
def parseInstruction : Payload → Option Instruction
  | .malformed => none
  | .other => none
  | .object field => do
    let conv ← (field "convergence_id").bind jsonInt?
    let slot ← (field "slot").bind fun v => int? (w.str v).toList
    let size ← (field "size_bytes").bind jsonInt?
    let uid ← field "module_uid"
    let target ← field "target_version"
    let artifact ← field "artifact"
    let url ← field "download_url"
    let checksum ← field "checksum_sha256"
    let instr : Instruction :=
      { convergenceId := conv
        slot
        moduleUid := w.str uid
        variant := (((field "variant").filter w.truthy).map w.str).getD ""
        targetVersion := w.str target
        artifact := w.str artifact
        downloadUrl := w.str url
        checksum := (w.str checksum).toLower
        sizeBytes := size }
    if instr.valid then some instr else none

/-! ## the server -/

/-- `_check` -/
def check : M (Option Instruction) := do
  act .check
  let resp ← ask w.request
  match resp with
  | none => pure none
  | some resp => pure (if resp.statusCode = 200 then parseInstruction w resp.payload else none)

/-- `_status`: whatever comes of the request is logged only. -/
def status (conv : Int) (st : Status) (message : String) : M Unit := do
  act (.status conv st message)
  Prog.tryCatch (do let _ ← ask w.request; pure ()) fun _ => pure ()

/-- `_commit` -/
def commit (conv : Int) (version : String) : M Result := do
  act (.commit conv version)
  Prog.tryCatch
    (do
      let resp ← ask w.request
      pure (if resp.map (·.statusCode) = some 409 then .rolledBack else .success))
    fun _ => pure .success

/-! ## the control plane -/

/-- `_event`, `_forget_slot` and `_refresh`: without a control plane nothing
happens, and its exceptions are logged only. -/
def event (e : Event) : M Unit :=
  .change fun s => if w.hasControl then { s with events := s.events ++ [e] } else s

/-- `self._control.last_inventory_entry(slot) if self._control else None` -/
def lastInventoryEntry : M (Option Snapshot) :=
  if w.hasControl then ask w.lastInventory else pure none

/-- `self._control is not None and self._control.slot_busy(slot)` -/
def slotBusy : M Bool := if w.hasControl then ask w.slotBusy else pure false

/-- `_busy` -/
def busy : M Bool := do
  let keyed ← slotBusy w
  if keyed then pure true
  else if w.hasAudio then ask w.slotActive
  else pure false

/-- `slot_pause.pause` -/
def State.pause (slot : Int) (snapshot : Option Snapshot) (s : State) : State :=
  { s with
    paused := fun k => if k = slot then some snapshot else s.paused k
    acts := s.acts ++ [.pause slot] }

/-- `slot_pause.resume` -/
def State.resume (slot : Int) (s : State) : State :=
  { s with paused := fun k => if k = slot then none else s.paused k }

def pause (slot : Int) (snapshot : Option Snapshot) : M Unit := .change (.pause slot snapshot)

def resume (slot : Int) : M Unit := .change (.resume slot)

/-- A timeout of the device lock is an answer, every other exception goes on. -/
def onTimeout {α : Type} (x : M α) (a : α) : M α :=
  Prog.tryCatch x fun e => if e.type = "TimeoutError" then pure a else Prog.raise e

/-- `_pause_when_idle`.  Its `finally` resumes the slot unless it is idle, also
where an exception goes on. -/
def pauseWhenIdle (slot : Int) (snapshot : Option Snapshot) : M Bool := do
  pause slot snapshot
  let idle ← Prog.tryCatch
    (onTimeout (do ask w.barrier; let b ← busy w; pure (!b)) false)
    fun e => do resume slot; Prog.raise e
  if idle then pure true
  else do
    resume slot
    pure false

/-! ## files -/

/-- `os.path.join` -/
def joinPath (dir name : String) : String :=
  if dir = "" ∨ dir.toList.getLast? = some '/' then dir ++ name else dir ++ "/" ++ name

/-- `_UNSAFE_FILENAME_RE.sub("_", target)` -/
def safeTarget (target : String) : String :=
  String.ofList (target.toList.map fun c =>
    if c.isAlphanum || c = '.' || c = '_' || c = '-' then c else '_')

/-- The name of the file that an instruction's image is downloaded to. -/
def imageName (i : Instruction) : String :=
  "conv" ++ toString i.convergenceId ++ "-" ++ safeTarget i.targetVersion ++ "." ++
    artifactSuffix i.artifact

/-- `Marker.clear` -/
def clearMarker : M Unit := do
  let ok ← query w.removes
  .change fun s => if ok then { s with marker := .absent } else s

/-- `Marker.save`: the file is replaced, or the exception leaves it as it was. -/
def saveMarker (m : Marker) : M Unit := do
  ask w.save
  .change fun s => { s with marker := .stored m }

/-- The checks of `Marker.load` that the fields' types leave open. -/
def Marker.valid (m : Marker) : Bool := (m.checksum = "" || isSha m.checksum) && w.inFwDir m.path

/-- `Marker.load` on what the file holds: a marker that does not pass is discarded. -/
def readMarker (reads : Bool) : MarkerFile → M (Option Marker)
  | .absent => pure none
  | .corrupt => do
    clearMarker w
    pure none
  | .stored m =>
    if reads && m.valid w then pure (some { m with checksum := m.checksum.toLower })
    else do
      clearMarker w
      pure none

/-- `Marker.load` -/
def loadMarker : M (Option Marker) := do
  let reads ← query w.markerReads
  let file ← Prog.read (·.marker)
  readMarker w reads file

/-- `_remove_image` -/
def removeImage (path : String) : M Unit :=
  if w.inFwDir path then do
    let ok ← query w.removes
    .change fun s => { s with image := fun p => if p = path ∧ ok then false else s.image p }
  else pure ()

/-- `ota.download_firmware_resumable` to the path -/
def download (path : String) : M Bool := do
  act (.download path)
  let left ← query w.leavesImage
  .change fun s => { s with image := fun p => if p = path then left else s.image p }
  ask w.download

/-! ## backends -/

/-- `detect_backends` -/
def detectBackends (n : Nat) : List String :=
  if w.enabled then
    (if w.dfuReady n then ["dfu"] else []) ++ (if w.simReady n then ["sim"] else [])
  else []

/-- `_executable` of what is detected -/
def executable (pool : List String) (n : Nat) : List String :=
  (detectBackends w n).filter fun name => name ∈ pool || (w.autoBackends && name ∈ buildable)

/-- `_sync_backends` -/
def syncBackends : M (List String) :=
  .answer (fun s => .ok (executable w s.pool s.asked)) fun s =>
    { s with
      pool := s.pool ++ (executable w s.pool s.asked).filter (· ∉ s.pool)
      asked := s.asked + 1 }

/-- What a backend did besides: the marker file is as it left it. -/
def backendCall {α : Type} (f : Nat → Except Exn α) : M α := do
  let file ← query w.leavesMarker
  .change fun s => { s with marker := file }
  ask f

/-- `backend.recover`; no backend knows nothing. -/
def recover (backend : Option String) : M (Option FlashOutcome) :=
  if backend.isSome then backendCall w w.recover else pure none

/-- `backend.after_verify`; no backend does nothing. -/
def afterVerify (backend : Option String) : M Unit :=
  if backend.isSome then ask w.afterVerify else pure ()

/-- `_dfu_stuck` -/
def dfuStuck : M Bool := do
  let stuck ← query w.isStuck
  match stuck with
  | some (.ok b) => pure b
  | _ => pure false

/-! ## verification -/

/-- What a poll of the module comes to. -/
inductive Poll
  | wrong (version : String)
  | confirmed (version : String)
  /-- the time is up -/
  | timedOut (confirmUntil : Option Rat)
  | again (confirmUntil : Option Rat)

/-- `end` -/
def pollUntil (deadline : Rat) : Option Rat → Rat
  | none => deadline
  | some c => if deadline < c + confirmGraceS then c + confirmGraceS else deadline

/-- The end of a poll that decided nothing. -/
def pollEnd (deadline now : Rat) (confirmUntil : Option Rat) : Poll :=
  if now ≥ pollUntil deadline confirmUntil then .timedOut confirmUntil else .again confirmUntil

/-- One round of the loop of `_verify`. -/
def poll (target : String) (settleUntil deadline confirm now : Rat) (identity : Option Identity)
    (confirmUntil : Option Rat) : Poll :=
  match identity with
  | none => pollEnd deadline now confirmUntil
  | some identity =>
    if now < settleUntil then pollEnd deadline now confirmUntil
    else if identity.version ≠ target then .wrong identity.version
    else
      let c := confirmUntil.getD (now + confirm)
      if now ≥ c then .confirmed identity.version else pollEnd deadline now (some c)

/-- The text of a verification that ran out of time. -/
def timedOutMessage (target : String) (confirmUntil : Option Rat) : String :=
  if confirmUntil.isSome then
    "module stopped reporting " ++ reprStr target ++ " before it was confirmed"
  else "module did not come back within " ++ toString verifyTimeoutS ++ " s"

/-- `after_verify(slot, False)` and the report. -/
def reportRolledBack (m : Marker) (backend : Option String) (message : String) : M Result := do
  afterVerify w backend
  status w m.convergenceId .rolledBack message
  pure .rolledBack

/-- The loop of `_verify` -/
def verifyLoop (m : Marker) (backend : Option String) (settleUntil deadline confirm : Rat) :
    Nat → Option Rat → M Result
  | 0, _ => Prog.diverge
  | fuel + 1, confirmUntil => do
    let identity ← ask w.readIdentity
    let now ← query w.clock
    match poll m.targetVersion settleUntil deadline confirm now identity confirmUntil with
    | .wrong version =>
      reportRolledBack w m backend
        ("module came back with version " ++ reprStr version ++ " instead of " ++
          reprStr m.targetVersion)
    | .confirmed version => do
      afterVerify w backend
      commit w m.convergenceId version
    | .timedOut confirmUntil =>
      reportRolledBack w m backend (timedOutMessage m.targetVersion confirmUntil)
    | .again confirmUntil => verifyLoop m backend settleUntil deadline confirm fuel confirmUntil

/-- `_verify` -/
def verify (fuel : Nat) (m : Marker) (backend : Option String) (started : Rat) : M Result :=
  verifyLoop w m backend (started + (backend.map w.settle).getD settleS)
    (started + verifyTimeoutS) ((backend.map w.confirm).getD confirmS) fuel none

/-! ## the cycle -/

/-- `_OUTCOME_STATUS`; a flash that worked has no entry. -/
def outcomeStatus : FlashOutcome → Option (Status × Result × String)
  | .ok => none
  | .rejected => some (.rejected, .rejected, "device rejected the firmware image")
  | .transient => some (.failed, .failed, "flash failed (transient)")
  | .rolledBack => some (.rolledBack, .rolledBack, "module rolled back the firmware")
  | .dfuStuck => some (.rolledBack, .rolledBack, dfuStuckMsg)

/-- The notice of a module that hangs, and the end of its last known entry. -/
def noteStuck (slot : Int) (moduleId : String) : M Unit := do
  event w (.stuck slot moduleId dfuStuckMsg)
  event w (.forget slot)

/-- `_report_outcome` -/
def reportOutcome (m : Marker) (outcome : FlashOutcome) (moduleId : String) : M Result :=
  match outcomeStatus outcome with
  | none => Prog.raise ⟨"KeyError", "<FlashOutcome.OK: 'ok'>"⟩
  | some (st, result, message) =>
    if outcome = .dfuStuck then do
      noteStuck w m.slot moduleId
      status w m.convergenceId st message
      pure result
    else do
      status w m.convergenceId st message
      pure result

/-- `_finish` -/
def finish (m : Marker) (moduleId : String) (result : Result) : M Unit := do
  resume m.slot
  event w (.finished m.slot moduleId result m.targetVersion)
  event w (.refresh true)
  removeImage w m.path
  clearMarker w

/-- The flash of `_download_and_flash` and what follows it. -/
def flashAndVerify (fuel : Nat) (m : Marker) (backend : String) (moduleId : String) :
    M Result := do
  let outcome ← backendCall w w.flash
  let flashedAt ← query w.clock
  if outcome = .ok then do
    status w m.convergenceId .verifying ""
    verify w fuel m (some backend) flashedAt
  else reportOutcome w m outcome moduleId

/-- `_download_and_flash` -/
def downloadAndFlash (fuel : Nat) (m : Marker) (backend : String) (moduleId : String) :
    M Result := do
  status w m.convergenceId .downloading ""
  ask w.makeDirs
  let ok ← download w m.path
  if ok then do
    saveMarker w m
    status w m.convergenceId .flashing ""
    saveMarker w { m with phase := .flashing }
    flashAndVerify w fuel { m with phase := .flashing } backend moduleId
  else do
    status w m.convergenceId .failed "download or checksum verification failed"
    pure .failed

/-- The handler around the work on a paused slot. -/
def reportingErrors (conv : Int) (x : M Result) : M Result :=
  Prog.tryCatch x fun e => do
    status w conv .failed e.agentError
    pure .failed

/-- The end of `_finish_from_marker`'s `try`: what became of the flash. -/
def recoverFlash (fuel : Nat) (m : Marker) (backend : Option String) : M Result :=
  match m.phase with
  | .downloaded => do
    let identity ← ask w.readIdentity
    if identity.map (·.version) = some m.targetVersion then commit w m.convergenceId m.targetVersion
    else do
      status w m.convergenceId .failed "agent restarted before flashing"
      pure .failed
  | .flashing => do
    let outcome ← recover w backend
    match outcome with
    | none | some .ok => do
      let now ← query w.clock
      verify w fuel m backend now
    | some outcome => reportOutcome w m outcome (moduleId m.snapshot m.moduleUid)

/-- The `try` of `_finish_from_marker`; `none` keeps the marker. -/
def recoverPaused (fuel : Nat) (m : Marker) (backend : Option String) : M (Option Result) := do
  pause m.slot m.snapshot
  let drained ← onTimeout (do ask w.barrier; pure true) false
  if drained then do
    let result ← recoverFlash w fuel m backend
    pure (some result)
  else pure none

/-- `_finish_from_marker` -/
def finishFromMarker (fuel : Nat) (active : List String) (m : Marker) : M Result := do
  act (.recover m)
  let backend := if m.artifact ∈ active then some m.artifact else none
  let result ← Prog.tryCatch (recoverPaused w fuel m backend) fun e => do
    status w m.convergenceId .failed e.agentError
    pure (some .failed)
  match result with
  | none => do
    resume m.slot
    event w (.refresh false)
    pure .busy
  | some result => do
    finish w m (moduleId m.snapshot m.moduleUid) result
    pure result

/-- The marker of an instruction. -/
def Instruction.marker (i : Instruction) (oldVersion : String) (snapshot : Option Snapshot) :
    Marker where
  convergenceId := i.convergenceId
  slot := i.slot
  moduleUid := i.moduleUid
  targetVersion := i.targetVersion
  oldVersion := oldVersion
  artifact := i.artifact
  path := joinPath w.fwDir (imageName i)
  phase := .downloaded
  snapshot := snapshot
  checksum := i.checksum

/-- The work of `run_once` on the paused slot, and its `finally`. -/
def flashPaused (fuel : Nat) (m : Marker) (moduleId : String) : M Result := do
  let result ← reportingErrors w m.convergenceId do
    event w (.started m.slot moduleId m.targetVersion m.convergenceId)
    event w (.refresh false)
    downloadAndFlash w fuel m m.artifact moduleId
  finish w m moduleId result
  pure result

/-- A module that does not answer with the instruction's uid. -/
def reportMissing (i : Instruction) : M Result := do
  let stuck ← dfuStuck w
  if stuck then do
    let snapshot ← lastInventoryEntry w
    -- without an entry the browser could not match the notice to a module
    if moduleId snapshot i.moduleUid ≠ "" then do
      noteStuck w i.slot (moduleId snapshot i.moduleUid)
      status w i.convergenceId .failed dfuStuckMsg
      pure .failed
    else do
      event w (.forget i.slot)
      status w i.convergenceId .failed dfuStuckMsg
      pure .failed
  else do
    status w i.convergenceId .failed
      ("module " ++ i.moduleUid ++ " not found in slot " ++ toString i.slot)
    pure .failed

/-- An idle slot is paused and flashed. -/
def updateIdle (fuel : Nat) (i : Instruction) (oldVersion : String) : M Result := do
  let occupied ← busy w
  if occupied then pure .busy
  else do
    let snapshot ← lastInventoryEntry w
    if moduleId snapshot i.moduleUid = "" then pure .busy
    else do
      let idle ← pauseWhenIdle w i.slot snapshot
      if idle then
        flashPaused w fuel (i.marker w oldVersion snapshot) (moduleId snapshot i.moduleUid)
      else pure .busy

/-- `run_once` on an instruction. -/
def runInstruction (fuel : Nat) (active : List String) (i : Instruction) : M Result :=
  if i.artifact ∉ active then do
    status w i.convergenceId .failed ("artifact backend " ++ reprStr i.artifact ++ " unavailable")
    pure .failed
  else do
    let identity ← ask w.readIdentity
    match identity.filter (·.uid = some i.moduleUid) with
    | none => reportMissing w i
    | some live =>
      if live.variant ≠ "" ∧ i.variant ≠ "" ∧ live.variant ≠ i.variant then do
        status w i.convergenceId .rejected
          ("variant mismatch: slot has " ++ reprStr live.variant ++ ", image is for " ++
            reprStr i.variant)
        pure .rejected
      else if live.version = i.targetVersion then commit w i.convergenceId i.targetVersion
      else updateIdle w fuel i live.version

/-- `run_once` without a marker -/
def runChecked (fuel : Nat) (active : List String) : M (Option Result) := do
  let instr ← check w
  match instr with
  | none => pure none
  | some instr => do
    let result ← runInstruction w fuel active instr
    pure (some result)

/-- `run_once` -/
def runOnce (fuel : Nat) : M (Option Result) := do
  let active ← syncBackends w
  if active = [] then pure none
  else do
    let marker ← loadMarker w
    match marker with
    | some m => do
      let result ← finishFromMarker w fuel active m
      pure (some result)
    | none => runChecked w fuel active

end Cycle

end ModuleOta
end StationManager.Agent
