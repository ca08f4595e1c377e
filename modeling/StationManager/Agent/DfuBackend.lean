import StationManager.Agent.ModuleOta
import StationManager.Lib.Transition

/-!
# StationManager.Agent.DfuBackend

The `dfu-util` backend of the module firmware update, with the agent stopping at any point.

`DfuBackend.flash` downloads the image of a marker to a module; `DfuBackend.recover` does so
again for a module that hangs in DFU mode after a restart.  Both go through `_download_loop`,
which counts its retries in the marker and saves it before each (`Marker.save` replaces the
file at once and durably).  A call is a sequence of accesses, to files or to `dfu-util`; the
process may die between any two, and then only the files are left.

The first download of a flash is free and a recovery has none, so that the downloads of a
marker never exceed one plus the retries in the file (`Budgeted`).
-/

namespace StationManager.Agent.Dfu

open ModuleOta (Marker isSha)

/-- `DFU_MAX_RETRIES` -/
def dfuMaxRetries : Nat := 2

/-! ## the output of dfu-util -/

/-- What follows a literal at the start of a text. -/
def afterLiteral? (literal : String) (text : List Char) : Option (List Char) :=
  if literal.toList.isPrefixOf text then some (text.drop literal.length) else none

/-- `_REJECTION_RE` at the start of a text: the status. -/
def rejectionStatus? (text : List Char) : Option Nat := do
  let rest ← afterLiteral? "DFU state(" text
  let (_, rest) ← leadingDecimal? Char.isDigit rest
  let rest ← afterLiteral? ") = dfuERROR, status(" rest
  let (status, rest) ← leadingDecimal? Char.isDigit rest
  let _ ← afterLiteral? ")" rest
  pure status

/-- `is_device_rejection` -/
def isDeviceRejection (output : String) : Bool :=
  (List.range (output.length + 1)).any fun n =>
    (rejectionStatus? (output.toList.drop n)).any fun status => status ≠ 0

example : isDeviceRejection "DFU state(10) = dfuERROR, status(10) = corrupt" = true := by
  decide +kernel

example : isDeviceRejection "Determining device status: state = dfuERROR, status = 10" = false := by
  decide +kernel

/-! ## the state -/

/-- The files: the marker, what is read at a path, and whether the path resolves to a file
directly in `module_fw_dir`. -/
structure Disk where
  marker : Option Marker
  content : String → Option String
  inFwDir : String → Bool

/-- Where a call stands; what it does next. -/
inductive Place
  /-- `flash`: look up the port in the slots' configuration -/
  | port
  /-- read who is in the slot -/
  | identity (port : String)
  /-- take the device lock, detach and wait -/
  | detach (port : String)
  /-- `recover`: look up the port -/
  | recoverPort
  /-- `in_dfu_mode` -/
  | dfuMode (port : String)
  /-- check the image -/
  | image (port : String)
  /-- the top of `_download_loop` -/
  | loop (port : String) (retry : Bool)
  /-- `marker.save()` -/
  | save (port : String)
  /-- run `dfu-util -D` -/
  | download (port : String)
  /-- `dfu-util` is running -/
  | downloading (port : String)
  /-- `in_dfu_mode` after a failed download -/
  | probe (port : String)
deriving DecidableEq, Repr

/-- A call of `flash` or `recover` with the marker object in memory. -/
structure Call where
  marker : Marker
  recovering : Bool
  place : Place

/-- A download that was started: what it was about and what the image was at that time. -/
structure Download where
  recovering : Bool
  port : String
  path : String
  content : Option String
  inFwDir : Bool
deriving DecidableEq, Repr

structure State where
  disk : Disk
  call : Option Call
  /-- the downloads so far, the last first -/
  started : List Download := []
  /-- what the calls have returned, the last first -/
  returned : List (Option FlashOutcome) := []

/-- What a call is told. -/
inductive Answer
  | port (port : Option String)
  | uid (uid : Option String)
  /-- the device lock was taken, or timed out -/
  | locked (ok : Bool)
  | inDfuMode (yes : Bool)
  /-- the marker was saved, or an exception left the file as it was -/
  | saved (ok : Bool)
  /-- `dfu-util` has ended -/
  | finished (rc : Int) (output : String)
  /-- nothing but the files -/
  | files
deriving DecidableEq, Repr

inductive Label
  | answer (a : Answer)
  /-- the process dies -/
  | crash
  /-- the marker is loaded and its flash recovered -/
  | recover
  /-- while no call runs, anything happens to the images -/
  | files (content : String → Option String) (inFwDir : String → Bool)
  /-- the marker is removed -/
  | clear

/-! ## calls -/

namespace State

def goto (s : State) (c : Call) (place : Place) : State := { s with call := some { c with place } }

/-- Return from a call; a recovery that went well returns `None`. -/
def returns (s : State) (c : Call) (outcome : FlashOutcome) : State :=
  { s with
    call := none
    returned := (if c.recovering ∧ outcome = .ok then none else some outcome) :: s.returned }

/-- `return None` of `recover` -/
def returnsNone (s : State) : State := { s with call := none, returned := none :: s.returned }

end State

section

variable (sha256 : String → String)

/-- `_image_matches` -/
def imageMatches (disk : Disk) (m : Marker) : Bool :=
  m.checksum ≠ "" && (disk.content m.path).any fun content => sha256 content = m.checksum.toLower

/-- The next step of a call. -/
def advance (s : State) (c : Call) : Place → Answer → Option State
  | .port, .port none => some (s.returns c .transient)
  | .port, .port (some port) => some (s.goto c (.identity port))
  | .identity port, .uid uid =>
    some (if uid = some c.marker.moduleUid then s.goto c (.detach port)
      else s.returns c .transient)
  | .detach port, .locked ok =>
    some (if ok then s.goto c (.loop port false) else s.returns c .transient)
  | .recoverPort, .port none => some s.returnsNone
  | .recoverPort, .port (some port) => some (s.goto c (.dfuMode port))
  | .dfuMode port, .inDfuMode yes => some (if yes then s.goto c (.image port) else s.returnsNone)
  | .image port, .files =>
    some (if s.disk.inFwDir c.marker.path && imageMatches sha256 s.disk c.marker then
        s.goto c (.loop port true)
      else s.returns c .dfuStuck)
  | .loop port false, .files => some (s.goto c (.download port))
  | .loop port true, .files =>
    some (if dfuMaxRetries ≤ c.marker.dfuAttempts then s.returns c .dfuStuck
      else s.goto
        { c with marker := { c.marker with dfuAttempts := c.marker.dfuAttempts + 1 } }
        (.save port))
  | .save port, .saved true =>
    some (({ s with disk := { s.disk with marker := some c.marker } } : State).goto c
      (.download port))
  | .save _, .saved false => some { s with call := none }
  | .download port, .files =>
    some (({ s with started := { recovering := c.recovering, port, path := c.marker.path
                                 content := s.disk.content c.marker.path
                                 inFwDir := s.disk.inFwDir c.marker.path } :: s.started } :
      State).goto c (.downloading port))
  | .downloading port, .finished rc output =>
    some (if rc = 0 then s.returns c .ok
      else if isDeviceRejection output then s.returns c .rejected
      else s.goto c (.probe port))
  | .probe port, .inDfuMode yes =>
    some (if yes then s.goto c (.loop port true) else s.returns c .transient)
  | _, _ => none

/-- `Marker.load` for a flash that was interrupted; a marker that does not pass the checks is
discarded. -/
def recover (s : State) : State :=
  match s.disk.marker with
  | none => s
  | some m =>
    if (m.checksum = "" || isSha m.checksum) && s.disk.inFwDir m.path then
      { s with call := some ⟨{ m with checksum := m.checksum.toLower }, true, .recoverPort⟩ }
    else { s with disk := { s.disk with marker := none } }

def step (s : State) : Label → Option State
  | .answer a =>
    match s.call with
    | none => none
    | some c => advance sha256 s c c.place a
  | .crash => some { s with call := none }
  | .recover => if s.call.isNone then some (recover s) else none
  | .files content inFwDir =>
    if s.call.isNone then some { s with disk := { s.disk with content, inFwDir } } else none
  | .clear => if s.call.isNone then some { s with disk := { s.disk with marker := none } } else none

/-- A new marker is in its file, and `flash` is called. -/
def init (m : Marker) (content : String → Option String) (inFwDir : String → Bool) : State where
  disk := { marker := some { m with dfuAttempts := 0 }, content, inFwDir }
  call := some ⟨{ m with dfuAttempts := 0 }, false, .port⟩

end

/-! ## the budget -/

/-- How far the retries in memory are ahead of the file. -/
def Place.ahead : Place → Nat
  | .save _ => 1
  | _ => 0

/-- How many downloads there can have been, given the retries in the file. -/
def Place.allowed (retries : Nat) : Place → Nat
  | .port | .identity _ | .detach _ | .loop _ false | .download _ => retries
  | _ => retries + 1

/-- The image has not been checked yet. -/
def Place.unchecked : Place → Bool
  | .recoverPort | .dfuMode _ | .image _ => true
  | _ => false

/-- The same marker up to its retries and the case of its checksum. -/
structure Kept (m m' : Marker) : Prop where
  path : m'.path = m.path
  checksum : m'.checksum.toLower = m.checksum.toLower

theorem toLower_toLower_char (c : Char) : c.toLower.toLower = c.toLower := by
  unfold Char.toLower
  split
  · next h =>
    -- a lower-case letter is past the upper-case ones
    rw [dif_neg]
    intro h'
    have hle := UInt32.le_iff_toNat_le.mp h.2
    have hge := UInt32.le_iff_toNat_le.mp h.1
    have hle' := UInt32.le_iff_toNat_le.mp h'.2
    simp [UInt32.toNat_add] at hge hle hle'
    omega
  · rfl

theorem toLower_toLower (s : String) : s.toLower.toLower = s.toLower := by
  have hcomp : Char.toLower ∘ Char.toLower = Char.toLower := funext toLower_toLower_char
  change (s.map Char.toLower).map Char.toLower = s.map Char.toLower
  rw [String.map_map, hcomp]

/-- The image at a path is in the firmware directory and has the marker's checksum. -/
def Verified (sha256 : String → String) (m : Marker) (path : String) (content : Option String)
    (inFwDir : Bool) : Prop :=
  path = m.path ∧ inFwDir = true ∧ ∃ c, content = some c ∧ sha256 c = m.checksum.toLower

/-- What a call may still do. -/
structure Call.Budgeted (sha256 : String → String) (m : Marker) (s : State) (c : Call) : Prop where
  kept : Kept m c.marker
  retries : c.marker.dfuAttempts ≤ dfuMaxRetries
  file : ∃ f, s.disk.marker = some f ∧ c.marker.dfuAttempts = f.dfuAttempts + c.place.ahead ∧
    s.started.length ≤ c.place.allowed f.dfuAttempts
  image : c.recovering = true → c.place.unchecked = false →
    Verified sha256 m c.marker.path (s.disk.content c.marker.path) (s.disk.inFwDir c.marker.path)

/-- The invariant: the downloads so far are at most one more than the retries in the file, and
every download of a recovery was of a verified image. -/
structure Budgeted (sha256 : String → String) (m : Marker) (s : State) : Prop where
  total : s.started.length ≤ 1 + dfuMaxRetries
  file : ∀ f, s.disk.marker = some f → Kept m f ∧ f.dfuAttempts ≤ dfuMaxRetries ∧
    s.started.length ≤ f.dfuAttempts + 1
  call : ∀ c, s.call = some c → c.Budgeted sha256 m s
  downloads : ∀ d ∈ s.started, d.recovering = true → Verified sha256 m d.path d.content d.inFwDir

section steps

variable {sha256 : String → String} {m : Marker} {s s' : State} {c : Call}

/-- A call that ends leaves the budget as it is. -/
theorem Budgeted.idle (h : Budgeted sha256 m s) (hcall : s'.call = none)
    (hdisk : s'.disk = s.disk) (hstarted : s'.started = s.started) : Budgeted sha256 m s' := by
  refine ⟨by rw [hstarted]; exact h.total, ?_, by simp [hcall], ?_⟩
  · rw [hdisk, hstarted]
    exact h.file
  · rw [hstarted]
    exact h.downloads

/-- A call goes on to a place that allows as much. -/
theorem Budgeted.goto (h : Budgeted sha256 m s) (hc : c.Budgeted sha256 m s) {place : Place}
    (hahead : place.ahead = c.place.ahead) (hallowed : ∀ n, c.place.allowed n ≤ place.allowed n)
    (himage : c.recovering = true → place.unchecked = false → c.place.unchecked = false ∨
      Verified sha256 m c.marker.path (s.disk.content c.marker.path)
        (s.disk.inFwDir c.marker.path)) : Budgeted sha256 m (s.goto c place) := by
  refine ⟨h.total, h.file, fun c' hc' => ?_, h.downloads⟩
  cases hc'
  obtain ⟨f, hf, hretries, hlength⟩ := hc.file
  refine ⟨hc.kept, hc.retries, ⟨f, hf, ?_, Nat.le_trans hlength (hallowed _)⟩, fun hr hp => ?_⟩
  · rw [hretries, ← hahead]
  · rcases himage hr hp with hchecked | hverified
    · exact hc.image hr hchecked
    · exact hverified

/-- The next retry is counted. -/
theorem Budgeted.retry (h : Budgeted sha256 m s) (hc : c.Budgeted sha256 m s) {port : String}
    (hplace : c.place = .loop port true) (hleft : ¬ dfuMaxRetries ≤ c.marker.dfuAttempts) :
    Budgeted sha256 m (s.goto
      { c with marker := { c.marker with dfuAttempts := c.marker.dfuAttempts + 1 } }
      (.save port)) := by
  refine ⟨h.total, h.file, fun c' hc' => ?_, h.downloads⟩
  cases hc'
  obtain ⟨f, hf, hretries, hlength⟩ := hc.file
  rw [hplace] at hretries hlength
  refine ⟨⟨hc.kept.path, hc.kept.checksum⟩, Nat.not_le.mp hleft, ⟨f, hf, ?_, hlength⟩, ?_⟩
  · show c.marker.dfuAttempts + 1 = f.dfuAttempts + 1
    rw [hretries]
    rfl
  · intro hr _
    exact hc.image hr (by rw [hplace]; rfl)

/-- The retry is in the file before it runs. -/
theorem Budgeted.saved (h : Budgeted sha256 m s) (hc : c.Budgeted sha256 m s) {port : String}
    (hplace : c.place = .save port) :
    Budgeted sha256 m (({ s with disk := { s.disk with marker := some c.marker } } : State).goto c
      (.download port)) := by
  obtain ⟨f, -, hretries, hlength⟩ := hc.file
  rw [hplace] at hretries hlength
  have hle : s.started.length ≤ c.marker.dfuAttempts := by
    rw [hretries]
    exact hlength
  refine ⟨h.total, fun f hf => ?_, fun c' hc' => ?_, h.downloads⟩
  · cases hf
    exact ⟨hc.kept, hc.retries, Nat.le_succ_of_le hle⟩
  · cases hc'
    refine ⟨hc.kept, hc.retries, ⟨c.marker, rfl, rfl, hle⟩, fun hr _ => ?_⟩
    exact hc.image hr (by rw [hplace]; rfl)

/-- A download starts. -/
theorem Budgeted.started (h : Budgeted sha256 m s) (hc : c.Budgeted sha256 m s) {port : String}
    (hplace : c.place = .download port) {d : Download} (hrec : d.recovering = c.recovering)
    (hpath : d.path = c.marker.path) (hcontent : d.content = s.disk.content c.marker.path)
    (hin : d.inFwDir = s.disk.inFwDir c.marker.path) :
    Budgeted sha256 m (({ s with started := d :: s.started } : State).goto c
      (.downloading port)) := by
  obtain ⟨f, hf, hretries, hlength⟩ := hc.file
  rw [hplace] at hretries hlength
  have hfile := h.file f hf
  have hlength' : s.started.length + 1 ≤ f.dfuAttempts + 1 := Nat.succ_le_succ hlength
  have himage : c.recovering = true → Verified sha256 m c.marker.path
      (s.disk.content c.marker.path) (s.disk.inFwDir c.marker.path) :=
    fun hr => hc.image hr (by rw [hplace]; rfl)
  refine ⟨?_, fun f' hf' => ?_, fun c' hc' => ?_, fun d' hd' hr => ?_⟩
  · have := hfile.2.1
    simp only [State.goto, List.length_cons]
    omega
  · have heq : f = f' := Option.some.inj (hf.symm.trans hf')
    subst heq
    exact ⟨hfile.1, hfile.2.1, hlength'⟩
  · cases hc'
    exact ⟨hc.kept, hc.retries, ⟨f, hf, hretries, hlength'⟩, fun hr _ => himage hr⟩
  · rcases List.mem_cons.mp hd' with rfl | hd'
    · rw [hpath, hcontent, hin]
      exact himage (hrec ▸ hr)
    · exact h.downloads d' hd' hr

/-- The image that a recovery is about to flash. -/
theorem verified_of_checked (hc : c.Budgeted sha256 m s)
    (h : (s.disk.inFwDir c.marker.path && imageMatches sha256 s.disk c.marker) = true) :
    Verified sha256 m c.marker.path (s.disk.content c.marker.path)
      (s.disk.inFwDir c.marker.path) := by
  simp only [imageMatches, Bool.and_eq_true, Option.any_eq_true, decide_eq_true_eq] at h
  obtain ⟨hin, -, content, hcontent, hsha⟩ := h
  exact ⟨hc.kept.path, hin, content, hcontent, hsha.trans hc.kept.checksum⟩

/-- A call goes on to a place of the same kind. -/
theorem Budgeted.on (h : Budgeted sha256 m s) (hc : c.Budgeted sha256 m s) {q place : Place}
    (hplace : c.place = q) (hahead : place.ahead = q.ahead)
    (hallowed : ∀ n, q.allowed n = place.allowed n) (hchecked : q.unchecked = place.unchecked) :
    Budgeted sha256 m (s.goto c place) := by
  subst hplace
  refine h.goto hc hahead (fun n => Nat.le_of_eq (hallowed n)) fun _ hplace => .inl ?_
  rw [hchecked, hplace]

theorem Budgeted.advance (h : Budgeted sha256 m s) (hc : c.Budgeted sha256 m s) {q : Place}
    (hplace : c.place = q) {a : Answer} (hs : advance sha256 s c q a = some s') :
    Budgeted sha256 m s' := by
  unfold Dfu.advance at hs
  split at hs
  · -- `flash`
    cases hs
    exact h.idle rfl rfl rfl
  · cases hs
    exact h.on hc hplace rfl (fun _ => rfl) rfl
  · cases hs
    split
    · exact h.on hc hplace rfl (fun _ => rfl) rfl
    · exact h.idle rfl rfl rfl
  · cases hs
    split
    · exact h.on hc hplace rfl (fun _ => rfl) rfl
    · exact h.idle rfl rfl rfl
  · -- `recover`
    cases hs
    exact h.idle rfl rfl rfl
  · cases hs
    exact h.on hc hplace rfl (fun _ => rfl) rfl
  · cases hs
    split
    · exact h.on hc hplace rfl (fun _ => rfl) rfl
    · exact h.idle rfl rfl rfl
  · cases hs
    split
    · next hchecked =>
      refine h.goto hc (by rw [hplace]; rfl) (fun n => by rw [hplace]; exact Nat.le_refl _) ?_
      exact fun _ _ => .inr (verified_of_checked hc hchecked)
    · exact h.idle rfl rfl rfl
  · -- `_download_loop`
    cases hs
    exact h.on hc hplace rfl (fun _ => rfl) rfl
  · cases hs
    split
    · exact h.idle rfl rfl rfl
    · next hleft => exact h.retry hc hplace hleft
  · cases hs
    exact h.saved hc hplace
  · cases hs
    exact h.idle rfl rfl rfl
  · cases hs
    exact h.started hc hplace rfl rfl rfl rfl
  · cases hs
    split
    · exact h.idle rfl rfl rfl
    · split
      · exact h.idle rfl rfl rfl
      · exact h.on hc hplace rfl (fun _ => rfl) rfl
  · cases hs
    split
    · exact h.on hc hplace rfl (fun _ => rfl) rfl
    · exact h.idle rfl rfl rfl
  · cases hs

theorem Budgeted.recover (h : Budgeted sha256 m s) (hidle : s.call = none) :
    Budgeted sha256 m (Dfu.recover s) := by
  unfold Dfu.recover
  cases hm : s.disk.marker with
  | none => exact h
  | some f =>
    obtain ⟨hkept, hretries, hlength⟩ := h.file f hm
    simp only
    split
    · refine ⟨h.total, h.file, fun c hc => ?_, h.downloads⟩
      cases hc
      refine ⟨⟨hkept.path, ?_⟩, hretries, ⟨f, hm, rfl, hlength⟩, by simp [Place.unchecked]⟩
      rw [toLower_toLower, hkept.checksum]
    · exact ⟨h.total, by simp, by simp [hidle], h.downloads⟩

theorem Budgeted.step (h : Budgeted sha256 m s) {l : Label} (hs : step sha256 s l = some s') :
    Budgeted sha256 m s' := by
  cases l with
  | answer a =>
    simp only [Dfu.step] at hs
    cases hc : s.call with
    | none => simp [hc] at hs
    | some c =>
      simp only [hc] at hs
      exact h.advance (h.call c hc) rfl hs
  | crash =>
    cases hs
    exact h.idle rfl rfl rfl
  | recover =>
    simp only [Dfu.step] at hs
    split at hs
    · next hidle =>
      cases hs
      exact h.recover (Option.isNone_iff_eq_none.mp hidle)
    · cases hs
  | files content inFwDir =>
    simp only [Dfu.step] at hs
    split at hs
    · next hidle =>
      cases hs
      have hnone := Option.isNone_iff_eq_none.mp hidle
      exact ⟨h.total, h.file, by simp [hnone], h.downloads⟩
    · cases hs
  | clear =>
    simp only [Dfu.step] at hs
    split at hs
    · next hidle =>
      cases hs
      have hnone := Option.isNone_iff_eq_none.mp hidle
      exact ⟨h.total, by simp, by simp [hnone], h.downloads⟩
    · cases hs

theorem budgeted_init (sha256 : String → String) (m : Marker) (content : String → Option String)
    (inFwDir : String → Bool) : Budgeted sha256 m (init m content inFwDir) := by
  refine ⟨Nat.zero_le _, fun f hf => ?_, fun c hc => ?_, by simp [init]⟩
  · cases hf
    exact ⟨⟨rfl, rfl⟩, Nat.zero_le _, Nat.zero_le _⟩
  · cases hc
    exact ⟨⟨rfl, rfl⟩, Nat.zero_le _, ⟨_, rfl, rfl, Nat.zero_le _⟩, by simp⟩

end steps

/-- **The retry budget survives crashes.**  However the downloads end, and wherever the agent
is stopped and started again: for one marker at most `1 + DFU_MAX_RETRIES` downloads are
started, over its flash and all later recoveries; and every image that a recovery starts to
download lies in the firmware directory and has the marker's checksum. -/
theorem dfu_budget (sha256 : String → String) (m : Marker) (content : String → Option String)
    (inFwDir : String → Bool) {s : State}
    (hs : Reachable (step sha256) (fun _ _ => True) (init m content inFwDir) s) :
    s.started.length ≤ 1 + dfuMaxRetries ∧
      ∀ d ∈ s.started, d.recovering = true → d.path = m.path ∧ d.inFwDir = true ∧
        ∃ image, d.content = some image ∧ sha256 image = m.checksum.toLower := by
  have h : Budgeted sha256 m s :=
    hs.invariant (budgeted_init sha256 m content inFwDir) fun _ _ _ h _ hstep => h.step hstep
  exact ⟨h.total, h.downloads⟩

namespace Sample

def digest : String := String.ofList (List.replicate 64 'a')

def marker : Marker :=
  { convergenceId := 7, slot := 1, moduleUid := "u", targetVersion := "2", oldVersion := "1"
    artifact := "dfu", path := "/fw/a.bin", phase := .flashing, snapshot := none
    checksum := digest }

/-- The image is complete, and no other file is there. -/
def start : State :=
  init marker (fun path => if path = "/fw/a.bin" then some "image" else none) fun _ => true

/-- A recovery up to the top of the loop. -/
def recovery : List Label :=
  [.recover, .answer (.port (some "1-1")), .answer (.inDfuMode true), .answer .files]

/-- A retry up to the start of its download. -/
def retry : List Label := [.answer .files, .answer (.saved true), .answer .files]

/-- The agent is stopped in the first download, and again in the second retry. -/
def stopped : List Label :=
  [.answer (.port (some "1-1")), .answer (.uid (some "u")), .answer (.locked true),
    .answer .files, .answer .files, .crash] ++ recovery ++ retry ++
  [.answer (.finished 74 ""), .answer (.inDfuMode true)] ++ retry ++ [.crash] ++ recovery ++
  [.answer .files]

end Sample

/-- Three downloads, and the next recovery gives up. -/
theorem dfu_budget_stopped :
    ∃ s, run (step fun _ => Sample.digest) Sample.start Sample.stopped = some s ∧
      s.started.map (·.recovering) = [true, true, false] ∧ s.returned = [some .dfuStuck] ∧
      s.started.length ≤ 1 + dfuMaxRetries := by
  have hrun : (run (step fun _ => Sample.digest) Sample.start Sample.stopped).map
      (fun s => (s.started.map (·.recovering), s.returned)) =
      some ([true, true, false], [some .dfuStuck]) := by decide +kernel
  obtain ⟨s, hs, hfacts⟩ := Option.map_eq_some_iff.mp hrun
  obtain ⟨hstarted, hreturned⟩ := Prod.mk.inj hfacts
  exact ⟨s, hs, hstarted, hreturned,
    (dfu_budget (fun _ => Sample.digest) Sample.marker _ _ (reachable_of_run hs)).1⟩

end StationManager.Agent.Dfu
