import StationManager.Lib.Raising
import StationManager.Lib.Table

/-!
# StationManager.Provisioning.Job

`_run_provisioning_job`: bake a fresh device key into a station image, upload the
bundle, make the key the station's, and mark the job ready.  The key, the object
store and the job are written one after the other with no transaction around them,
and two handlers undo what they can: the inner one deletes the bundle again, the
outer one marks the job failed.

Every call that leaves the process may raise.  A call that raises may still have had
its effect, so a fault says whether it had.
-/

namespace StationManager.Provisioning

abbrev Bytes := List UInt8

/-- `ProvisioningJob.Status` -/
inductive Status where
  | pending
  | running
  | ready
  | downloaded
  | expired
  | failed
deriving DecidableEq, Repr

/-- `ImageRelease`, as far as a job reads it. -/
structure ImageRelease where
  tag : String
  machine : String
  s3Key : String
deriving DecidableEq, Repr

structure ProvisioningJob where
  id : String
  stationId : Pk
  imageRelease : ImageRelease
  status : Status := .pending
  errorMessage : String := ""
  outputS3Key : String := ""
  outputSizeBytes : Option Nat := none
  readyAt : Option Time := none
  expiresAt : Option Time := none
deriving DecidableEq, Repr

/-- The key of a station; only the public half is stored. -/
structure DeviceKey where
  currentPublicKey : String
  nextPublicKey : Option String := none
  isActive : Bool := true
  createdAt : Time
  lastSeen : Option Time := none
deriving DecidableEq, Repr

inductive EventType where
  | provisioningReady
  | provisioningFailed
deriving DecidableEq, Repr

/-- What a job reads and writes: the keys by station, the object store, its own row
and the station's audit log. -/
structure World where
  deviceKeys : Table Pk DeviceKey
  objects : Table String Bytes
  job : ProvisioningJob
  audit : List (EventType × String)

/-! ## the environment -/

/-- The calls of a job that may raise, in the order of the code. -/
inductive Call where
  | generateKeypair
  | openStream
  | decompress
  | inject
  | compress
  | upload
  | rotateKey
  | saveReady
  | auditReady
  | deleteBundle
  | saveFailed
  | auditFailed
deriving DecidableEq, Repr

/-- An exception, and whether the call had its effect all the same. -/
structure Fault where
  text : String
  applied : Bool := false
deriving DecidableEq, Repr

/-- The settings, the tools and the faults that a job meets. -/
structure Env where
  serverPublicUrl : String
  /-- the private and the public half that `generate_keypair` draws -/
  keypair : String × String
  decompress : Bytes → Bytes
  inject : Bytes → String → String → Bytes
  compress : Bytes → Bytes
  now : Time
  fault : Call → Option Fault

namespace Env

open Prog

def raises (env : Env) (c : Call) : Bool := (env.fault c).isSome

/-- The call has its effect, whether it raises or not. -/
def done (env : Env) (c : Call) : Bool := (env.fault c).all Fault.applied

/-- A call that only returns something. -/
def call (env : Env) (c : Call) (f : World → Except String α) : Prog World String α :=
  match env.fault c with
  | none => answer f id
  | some fault => raise fault.text

/-- A call that writes. -/
def write (env : Env) (c : Call) (f : World → World) : Prog World String Unit :=
  match env.fault c with
  | none => change f
  | some fault => do
      change (if fault.applied then f else id)
      raise fault.text

end Env

open Prog

/-! ## the job -/

/-- `render_config` -/
def renderConfig (serverUrl : String) (stationId : Pk) : String :=
  "server_url: " ++ serverUrl ++ "\n" ++
  "station_id: " ++ toString stationId ++ "\n" ++
  "ed25519_key_path: /etc/stationagent/device_key.pem\n" ++
  "heartbeat_interval: 60\n" ++
  "ota_check_interval: 5\n" ++
  "download_dir: /tmp/station-agent\n" ++
  "log_level: INFO\n" ++
  "terminal_enabled: true\n" ++
  "terminal_shell: /bin/sh\n" ++
  "bootloader: auto\n"

/-- `_provisioning_output_key` -/
def provisioningOutputKey (job : ProvisioningJob) : String :=
  "provisioning/" ++ job.id ++ "/oe5xrx-station-" ++ toString job.stationId ++ "-" ++
    job.imageRelease.machine ++ "-" ++ job.imageRelease.tag ++ ".wic.bz2"

/-- `PROVISIONING_EXPIRY`, one hour. -/
def provisioningExpiry : Time := 3600 * 1000000

/-- `_best_effort_audit_log` -/
def bestEffortAuditLog (env : Env) (c : Call) (event : EventType) (message : String) :
    Prog World String Unit :=
  tryCatch (env.write c fun w => { w with audit := w.audit ++ [(event, message)] })
    fun _ => return ()

/-- The image of the release with the configuration and a private key in it. -/
def baked (env : Env) (job : ProvisioningJob) (base : Bytes) (privatePem : String) : Bytes :=
  env.compress (env.inject (env.decompress base)
    (renderConfig env.serverPublicUrl job.stationId) privatePem)

/-- The block over the temporary directory: fetch, decompress, inject, compress. -/
def buildBundle (env : Env) (job : ProvisioningJob) (privatePem : String) :
    Prog World String Bytes := do
  let base ← env.call .openStream fun w =>
    match w.objects.get? job.imageRelease.s3Key with
    | none => .error ("The specified key does not exist: " ++ job.imageRelease.s3Key)
    | some base => .ok base
  let image ← env.call .decompress fun _ => .ok (env.decompress base)
  let image ← env.call .inject fun _ => .ok
    (env.inject image (renderConfig env.serverPublicUrl job.stationId) privatePem)
  env.call .compress fun _ => .ok (env.compress image)

/-- `DeviceKey.objects.update_or_create` -/
def rotate (env : Env) (station : Pk) (publicB64 : String) (keys : Table Pk DeviceKey) :
    Table Pk DeviceKey :=
  (keys.insert station { currentPublicKey := publicB64, createdAt := env.now }).modify station
    fun key => { key with currentPublicKey := publicB64, isActive := true, nextPublicKey := none }

/-- The `update_fields` of a job that is ready. -/
def markReady (env : Env) (outKey : String) (out : Bytes) (row : ProvisioningJob) :
    ProvisioningJob :=
  { row with
    outputS3Key := outKey
    outputSizeBytes := some out.length
    status := .ready
    readyAt := some env.now
    expiresAt := some (env.now + provisioningExpiry) }

/-- Make the new key the station's and record the bundle on the job. -/
def record (env : Env) (job : ProvisioningJob) (publicB64 outKey : String) (out : Bytes) :
    Prog World String Unit := do
  env.write .rotateKey fun w =>
    { w with deviceKeys := rotate env job.stationId publicB64 w.deviceKeys }
  env.write .saveReady fun w => { w with job := markReady env outKey out w.job }
  bestEffortAuditLog env .auditReady .provisioningReady
    ("Bundle ready: " ++ toString out.length ++ " bytes for " ++ job.imageRelease.tag)

/-- `record`, and the bundle deleted again if that raises. -/
def recordOrDelete (env : Env) (job : ProvisioningJob) (publicB64 outKey : String) (out : Bytes) :
    Prog World String Unit :=
  tryCatch (record env job publicB64 outKey out) fun text => do
    tryCatch (env.write .deleteBundle fun w => { w with objects := w.objects.erase outKey })
      fun _ => return ()
    raise text

/-- The body of the outer `try`. -/
def provision (env : Env) (job : ProvisioningJob) : Prog World String Unit :=
  if env.serverPublicUrl = "" then
    raise ("SERVER_PUBLIC_URL must be set — provisioning bakes it into the station-agent config " ++
      "inside the rootfs. Empty value would silently produce non-functional images.")
  else do
    let (privatePem, publicB64) ← env.call .generateKeypair fun _ => .ok env.keypair
    let out ← buildBundle env job privatePem
    let outKey := provisioningOutputKey job
    env.write .upload fun w => { w with objects := w.objects.put outKey out }
    recordOrDelete env job publicB64 outKey out

/-- `_run_provisioning_job` -/
def runProvisioningJob (env : Env) (job : ProvisioningJob) : Prog World String Unit :=
  tryCatch (provision env job) fun text => do
    env.write .saveFailed fun w =>
      { w with job := { w.job with status := .failed, errorMessage := text } }
    bestEffortAuditLog env .auditFailed .provisioningFailed ("Provisioning failed: " ++ text)

/-! ## calls -/

variable {env : Env} {job : ProvisioningJob} {w w' : World} {c : Call}
  {E : String → World → Prop}

theorem wp_call {f : World → Except String α} {Q : α → World → Prop}
    (hok : env.raises c = false → ∀ a, f w = .ok a → Q a w)
    (herror : (env.raises c = false → ∀ a, f w ≠ .ok a) → ∀ text, E text w) :
    wp (env.call c f) Q E w := by
  unfold Env.call
  cases hfault : env.fault c with
  | none =>
    refine wp_answer (hok (by simp [Env.raises, hfault])) fun text htext => ?_
    exact herror (fun _ a ha => by rw [ha] at htext; cases htext) text
  | some fault => exact wp_raise (herror (by simp [Env.raises, hfault]) fault.text)

/-- A write is done, or raises before or after it was done. -/
theorem wp_write {f : World → World} {Q : Unit → World → Prop}
    (hok : env.raises c = false → Q () (f w))
    (hraise : env.raises c = true → ∀ text, E text (if env.done c then f w else w)) :
    wp (env.write c f) Q E w := by
  unfold Env.write
  cases hfault : env.fault c with
  | none => exact wp_change (hok (by simp [Env.raises, hfault]))
  | some fault =>
    have hE := hraise (by simp [Env.raises, hfault]) fault.text
    have hdone : env.done c = fault.applied := by simp [Env.done, hfault]
    rw [hdone] at hE
    refine wp_bind (wp_change (wp_raise ?_))
    cases happlied : fault.applied <;> simpa [happlied] using hE

/-- A property that does not look at the audit log survives an entry. -/
theorem wp_audit {event : EventType} {message : String} {Q : Unit → World → Prop}
    (hsame : Q () w) (hentry : Q () { w with audit := w.audit ++ [(event, message)] }) :
    wp (bestEffortAuditLog env c event message) Q E w := by
  refine wp_tryCatch (wp_write (fun _ => hentry) fun _ _ => wp_pure ?_)
  split
  · exact hentry
  · exact hsame

/-! ## the bundle -/

/-- The job gets as far as the key: nothing raises up to the upload. -/
structure Env.Uploads (env : Env) (job : ProvisioningJob) (w : World) : Prop where
  url : env.serverPublicUrl ≠ ""
  calls : ∀ c ∈ [Call.generateKeypair, .openStream, .decompress, .inject, .compress, .upload],
    env.raises c = false
  base : ∃ base, w.objects.get? job.imageRelease.s3Key = some base

theorem wp_buildBundle {privatePem : String} : wp (buildBundle env job privatePem)
    (fun out w' => w' = w ∧ (∀ c ∈ [Call.openStream, .decompress, .inject, .compress],
        env.raises c = false) ∧
      ∃ base, w.objects.get? job.imageRelease.s3Key = some base ∧
        out = baked env job base privatePem)
    (fun _ w' => w' = w ∧ ¬env.Uploads job w) w := by
  refine wp_bind (wp_call (fun hopen base hbase => ?_) fun hno _ => ⟨rfl, fun h => ?_⟩)
  · refine wp_bind (wp_call (fun hdec image himage => ?_)
      fun hno _ => ⟨rfl, fun h => hno (h.calls .decompress (by simp)) _ rfl⟩)
    refine wp_bind (wp_call (fun hinj injected hinjected => ?_)
      fun hno _ => ⟨rfl, fun h => hno (h.calls .inject (by simp)) _ rfl⟩)
    refine wp_call (fun hcomp out hout => ⟨rfl, ?_, base, ?_, ?_⟩)
      fun hno _ => ⟨rfl, fun h => hno (h.calls .compress (by simp)) _ rfl⟩
    · simp [hopen, hdec, hinj, hcomp]
    · cases hget : w.objects.get? job.imageRelease.s3Key with
      | none => simp [hget] at hbase
      | some stored => simpa [hget] using hbase
    · cases himage
      cases hinjected
      cases hout
      rfl
  · obtain ⟨base, hget⟩ := h.base
    exact hno (h.calls .openStream (by simp)) base (by simp [hget])

/-! ## what a job leaves behind -/

/-- The job points at a stored bundle, and the station's key is the one baked into it. -/
def Recorded (env : Env) (job : ProvisioningJob) (w w' : World) : Prop :=
  (∃ key, w'.deviceKeys.get? job.stationId = some key ∧
      key.currentPublicKey = env.keypair.2) ∧
    ∃ base, w.objects.get? job.imageRelease.s3Key = some base ∧
      w'.objects.get? w'.job.outputS3Key = some (baked env job base env.keypair.1)

/-- What is claimed of a finished job. -/
def KeyKept (env : Env) (job : ProvisioningJob) (w w' : World) : Prop :=
  (w'.job.status = .failed →
      w'.deviceKeys.get? job.stationId = w.deviceKeys.get? job.stationId) ∧
    (w'.job.status = .ready → Recorded env job w w')

/-- The new key is written and what comes after it raises.  Then the job is marked failed,
with another key than before; or it stays ready, with its bundle deleted. -/
structure Env.LosesKey (env : Env) (job : ProvisioningJob) (w : World) : Prop where
  uploads : env.Uploads job w
  rotated : env.done .rotateKey = true
  raised : env.raises .rotateKey = true ∨ env.raises .saveReady = true
  lost : if env.done .saveFailed then
      (rotate env job.stationId env.keypair.2 w.deviceKeys).get? job.stationId ≠
        w.deviceKeys.get? job.stationId
    else env.raises .rotateKey = false ∧ env.done .saveReady = true ∧ env.done .deleteBundle = true

theorem get?_rotate (env : Env) (station : Pk) (publicB64 : String) (keys : Table Pk DeviceKey) :
    ∃ key, (rotate env station publicB64 keys).get? station = some key ∧
      key.currentPublicKey = publicB64 := by
  rw [rotate, Table.get?_modify_self, Table.get?_insert, if_pos rfl]
  exact ⟨_, rfl, rfl⟩

/-- What the outer handler finds. -/
inductive Interrupted (env : Env) (job : ProvisioningJob) (w w' : World) : Prop where
  /-- the key was not written -/
  | early (hsafe : ¬(env.Uploads job w ∧ env.done .rotateKey = true))
      (hkeys : w'.deviceKeys = w.deviceKeys) (hjob : w'.job = w.job)
  /-- the key was written, the job was not -/
  | unready (huploads : env.Uploads job w) (hdone : env.done .rotateKey = true)
      (hraised : env.raises .rotateKey = true ∨
        env.raises .saveReady = true ∧ env.done .saveReady = false)
      (hkeys : w'.deviceKeys = rotate env job.stationId env.keypair.2 w.deviceKeys)
      (hjob : w'.job = w.job)
  /-- both were written, and the bundle deleted if that works -/
  | ready (huploads : env.Uploads job w) (hrotated : env.raises .rotateKey = false)
      (hraised : env.raises .saveReady = true) (hdone : env.done .saveReady = true)
      (hkeys : w'.deviceKeys = rotate env job.stationId env.keypair.2 w.deviceKeys)
      (hjob : w'.job.status = .ready) (base : Bytes)
      (hbase : w.objects.get? job.imageRelease.s3Key = some base)
      (hbundle : w'.objects.get? w'.job.outputS3Key =
        if env.done .deleteBundle then none else some (baked env job base env.keypair.1))

theorem done_of_not_raises (h : env.raises c = false) : env.done c = true := by
  cases hfault : env.fault c <;> simp_all [Env.raises, Env.done]

/-- The world after the inner handler. -/
def cleaned (env : Env) (outKey : String) (w : World) : World :=
  if env.done .deleteBundle then { w with objects := w.objects.erase outKey } else w

@[simp] theorem cleaned_deviceKeys (outKey : String) :
    (cleaned env outKey w).deviceKeys = w.deviceKeys := by
  unfold cleaned
  split <;> rfl

@[simp] theorem cleaned_job (outKey : String) : (cleaned env outKey w).job = w.job := by
  unfold cleaned
  split <;> rfl

theorem get?_cleaned (outKey : String) : (cleaned env outKey w).objects.get? outKey =
    if env.done .deleteBundle then none else w.objects.get? outKey := by
  unfold cleaned
  split
  · simp [Table.get?_erase]
  · rfl

theorem wp_recordOrDelete (huploads : env.Uploads job w) {base : Bytes}
    (hbase : w.objects.get? job.imageRelease.s3Key = some base) (outKey : String) (w₁ : World)
    (hkeys : w₁.deviceKeys = w.deviceKeys) (hjob : w₁.job = w.job)
    (hout : w₁.objects.get? outKey = some (baked env job base env.keypair.1)) :
    wp (recordOrDelete env job env.keypair.2 outKey (baked env job base env.keypair.1))
      (fun _ w' => w'.job.status = .ready ∧ Recorded env job w w' ∧ ¬env.LosesKey job w)
      (fun _ w' => Interrupted env job w w') w₁ := by
  have hhandler : ∀ text w₂, Interrupted env job w (cleaned env outKey w₂) →
      wp (do
          tryCatch (env.write .deleteBundle fun w => { w with objects := w.objects.erase outKey })
            fun _ => return ()
          raise text : Prog World String Unit)
        (fun _ w' => w'.job.status = .ready ∧ Recorded env job w w' ∧ ¬env.LosesKey job w)
        (fun _ w' => Interrupted env job w w') w₂ := fun text w₂ h => by
    refine wp_bind (wp_tryCatch (wp_write (fun hdel => ?_) fun _ _ => wp_pure (wp_raise h)))
    rw [cleaned, if_pos (done_of_not_raises hdel)] at h
    exact wp_raise h
  refine wp_tryCatch (wp_bind (wp_write (fun hrot => wp_bind (wp_write (fun hsave => ?_)
    fun hsave text => hhandler text _ ?_)) fun hrot text => hhandler text _ ?_))
  · have hnot : ¬env.LosesKey job w := fun h => by simpa [hrot, hsave] using h.raised
    exact wp_audit ⟨rfl, ⟨get?_rotate _ _ _ _, base, hbase, hout⟩, hnot⟩
      ⟨rfl, ⟨get?_rotate _ _ _ _, base, hbase, hout⟩, hnot⟩
  · -- the job write raises
    cases hsaved : env.done .saveReady with
    | false =>
      exact .unready huploads (done_of_not_raises hrot) (.inr ⟨hsave, hsaved⟩) (by simp [hkeys])
        (by simp [hjob])
    | true =>
      refine .ready huploads hrot hsave hsaved (by simp [hkeys]) (by simp [markReady]) base hbase ?_
      simp [markReady, get?_cleaned, hout]
  · -- the key write raises
    cases hdone : env.done .rotateKey with
    | false => exact .early (by simp [hdone]) (by simp [hkeys]) (by simp [hjob])
    | true => exact .unready huploads hdone (.inl hrot) (by simp [hkeys]) (by simp [hjob])

theorem wp_provision : wp (provision env job)
    (fun _ w' => w'.job.status = .ready ∧ Recorded env job w w' ∧ ¬env.LosesKey job w)
    (fun _ w' => Interrupted env job w w') w := by
  have hearly : ∀ {w'}, ¬env.Uploads job w → w'.deviceKeys = w.deviceKeys → w'.job = w.job →
      Interrupted env job w w' := fun hno => .early fun h => hno h.1
  refine wp_ite (fun hurl => wp_raise (hearly (fun h => h.url hurl) rfl rfl)) fun hurl => ?_
  refine wp_bind (wp_call (fun hgen pair hpair => ?_) fun hno _ => hearly (fun h => ?_) rfl rfl)
  · cases hpair
    refine wp_bind (wp_mono wp_buildBundle ?_ fun _ _ h => ?_)
    · rintro out w' ⟨rfl, hcalls, base, hbase, rfl⟩
      refine wp_bind (wp_write (fun hup => ?_) fun hup _ => hearly (fun h => ?_) ?_ ?_)
      · have huploads : env.Uploads job w' := ⟨hurl, by simpa [hgen, hup] using hcalls, base, hbase⟩
        exact wp_recordOrDelete huploads hbase _ _ rfl rfl (by simp [Table.get?_put])
      · simp [h.calls .upload (by simp)] at hup
      · split <;> rfl
      · split <;> rfl
    · obtain ⟨rfl, hno⟩ := h
      exact hearly hno rfl rfl
  · exact hno (h.calls .generateKeypair (by simp)) _ rfl

/-- The job is marked failed: what counts is whether the key has changed. -/
theorem keyKept_of_failed (hw : Interrupted env job w w') (hdone : env.done .saveFailed = true)
    {w'' : World} (hkeys : w''.deviceKeys = w'.deviceKeys) (hstatus : w''.job.status = .failed) :
    KeyKept env job w w'' ↔ ¬env.LosesKey job w := by
  have hkept : KeyKept env job w w'' ↔
      w'.deviceKeys.get? job.stationId = w.deviceKeys.get? job.stationId := by
    simp [KeyKept, hstatus, hkeys]
  rw [hkept]
  have hwritten : env.Uploads job w → env.done .rotateKey = true →
      (env.raises .rotateKey = true ∨ env.raises .saveReady = true) →
      w'.deviceKeys = rotate env job.stationId env.keypair.2 w.deviceKeys →
      (w'.deviceKeys.get? job.stationId = w.deviceKeys.get? job.stationId ↔
        ¬env.LosesKey job w) := fun huploads hrot hraised hkeys' => by
    rw [hkeys']
    refine ⟨fun hsame h => ?_, fun h => Classical.not_not.mp fun hne => ?_⟩
    · have hlost := h.lost
      rw [if_pos hdone] at hlost
      exact hlost hsame
    · exact h ⟨huploads, hrot, hraised, by rwa [if_pos hdone]⟩
  cases hw with
  | early hsafe hkeys' _ =>
    exact iff_of_true (by rw [hkeys']) fun h => hsafe ⟨h.uploads, h.rotated⟩
  | unready huploads hrot hraised hkeys' _ =>
    exact hwritten huploads hrot (hraised.imp_right And.left) hkeys'
  | ready huploads hrot hraised _ hkeys' =>
    exact hwritten huploads (done_of_not_raises hrot) (.inr hraised) hkeys'

/-- The job could not be marked failed: it is still running, or ready. -/
theorem keyKept_of_unsaved (hrunning : w.job.status = .running) (hw : Interrupted env job w w')
    (hdone : env.done .saveFailed = false) :
    KeyKept env job w w' ↔ ¬env.LosesKey job w := by
  have hlost : env.LosesKey job w → env.raises .rotateKey = false ∧ env.done .saveReady = true ∧
      env.done .deleteBundle = true := fun h => by
    simpa [hdone] using h.lost
  cases hw with
  | early hsafe _ hjob =>
    exact iff_of_true (by simp [KeyKept, hjob, hrunning]) fun h => hsafe ⟨h.uploads, h.rotated⟩
  | unready _ _ hraised _ hjob =>
    refine iff_of_true (by simp [KeyKept, hjob, hrunning]) fun h => ?_
    obtain ⟨hrot, hsaved, -⟩ := hlost h
    simp [hrot, hsaved] at hraised
  | ready huploads hrot hraised hsaved hkeys hjob base hbase hbundle =>
    have hkept : KeyKept env job w w' ↔ env.done .deleteBundle = false := by
      obtain ⟨key, hkey, hpublic⟩ := get?_rotate env job.stationId env.keypair.2 w.deviceKeys
      simp only [KeyKept, Recorded, hjob, hkeys, hkey, hbundle, hbase]
      cases env.done .deleteBundle <;> simp [hpublic]
    rw [hkept]
    refine ⟨fun hdel h => ?_, fun h => ?_⟩
    · rw [(hlost h).2.2] at hdel
      cases hdel
    · refine Bool.eq_false_iff.mpr fun hdel =>
        h ⟨huploads, done_of_not_raises hrot, .inr hraised, ?_⟩
      simp [hdone, hrot, hsaved, hdel]

theorem wp_runProvisioningJob (hrunning : w.job.status = .running) :
    wp (runProvisioningJob env job) (fun _ w' => KeyKept env job w w' ↔ ¬env.LosesKey job w)
      (fun _ w' => KeyKept env job w w' ↔ ¬env.LosesKey job w) w := by
  refine wp_tryCatch (wp_mono wp_provision (fun _ w' hw => ?_) fun text w' hw => ?_)
  · exact iff_of_true ⟨fun hfailed => by simp [hw.1] at hfailed, fun _ => hw.2.1⟩ hw.2.2
  · refine wp_bind (wp_write (fun hsave => wp_audit ?_ ?_) fun _ _ => ?_)
    · exact keyKept_of_failed hw (done_of_not_raises hsave) rfl rfl
    · exact keyKept_of_failed hw (done_of_not_raises hsave) rfl rfl
    · split
      · next hdone => exact keyKept_of_failed hw hdone rfl rfl
      · next hdone => exact keyKept_of_unsaved hrunning hw (by simpa using hdone)

/-! ## every run ends -/

theorem ends_call (f : World → Except String α) : (env.call c f).Ends := by
  unfold Env.call
  cases env.fault c with
  | none => exact .answer _ _
  | some fault => exact .raise _

theorem ends_write (f : World → World) : (env.write c f).Ends := by
  unfold Env.write
  cases env.fault c with
  | none => exact .change _
  | some fault => exact .bind (.change _) fun _ => .raise _

theorem ends_audit (event : EventType) (message : String) :
    (bestEffortAuditLog env c event message).Ends :=
  .tryCatch (ends_write _) fun _ => .pure _

theorem ends_provision : (provision env job).Ends := by
  refine .ite (.raise _) (.bind (ends_call _) fun pair => .bind ?_ fun out => ?_)
  · exact .bind (ends_call _) fun _ => .bind (ends_call _) fun _ => .bind (ends_call _) fun _ =>
      ends_call _
  · refine .bind (ends_write _) fun _ => .tryCatch ?_ fun text => ?_
    · exact .bind (ends_write _) fun _ => .bind (ends_write _) fun _ => ends_audit _ _
    · exact .bind (.tryCatch (ends_write _) fun _ => .pure _) fun _ => .raise _

theorem ends_runProvisioningJob : (runProvisioningJob env job).Ends :=
  .tryCatch ends_provision fun _ => .bind (ends_write _) fun _ => ends_audit _ _

/-- **A failed provisioning keeps the live key exactly if the key is not lost**: whatever
raises, a job that ends failed has left the station's key alone, and one that ends ready has
made the key of its stored bundle the station's; except where the new key was written and the
rest raised. -/
theorem provisioning_keeps_live_key (env : Env) (job : ProvisioningJob) (w : World)
    (hrunning : w.job.status = .running) :
    (∃ outcome w', runProvisioningJob env job w = some (outcome, w') ∧ (w'.job.status = .failed →
        w'.deviceKeys.get? job.stationId = w.deviceKeys.get? job.stationId) ∧
      (w'.job.status = .ready → (∃ key, w'.deviceKeys.get? job.stationId = some key ∧
          key.currentPublicKey = env.keypair.2) ∧
        ∃ base, w.objects.get? job.imageRelease.s3Key = some base ∧
          w'.objects.get? w'.job.outputS3Key = some (baked env job base env.keypair.1))) ↔
      ¬env.LosesKey job w := by
  have hwp : wp (runProvisioningJob env job) _ _ w := wp_runProvisioningJob hrunning
  obtain ⟨outcome, w', hrun, hok, herror⟩ := ends_runProvisioningJob.outcome hwp
  have hiff : KeyKept env job w w' ↔ ¬env.LosesKey job w := by
    cases outcome with
    | error text => exact herror text rfl
    | ok _ => exact hok () rfl
  rw [← hiff]
  refine ⟨?_, fun hkept => ⟨outcome, w', hrun, hkept⟩⟩
  rintro ⟨outcome', w'', hrun', hkept⟩
  rw [hrun] at hrun'
  cases hrun'
  exact hkept

/-! ## a station that is provisioned again -/

/-- Tools that leave their traces in the bundle, and the faults of one run. -/
def workbench (fault : Call → Option Fault) : Env where
  serverPublicUrl := "https://stations"
  keypair := ("new-private", "new-public")
  decompress := fun base => base
  inject := fun image _ privatePem => image ++ privatePem.toUTF8.toList
  compress := fun image => image
  now := 0
  fault := fault

def claimed : ProvisioningJob where
  id := "7"
  stationId := 1
  imageRelease := { tag := "v1", machine := "rpi", s3Key := "images/v1" }
  status := .running

def store : World where
  deviceKeys := Table.empty.insert 1 { currentPublicKey := "old-public", createdAt := 0 }
  objects := Table.empty.insert "images/v1" [1, 2, 3]
  job := claimed
  audit := []

/-- A run whose upload raises. -/
theorem provisioning_keeps_live_key_upload :
    let env := workbench fun c => if c = .upload then some { text := "timeout" } else none
    ∃ outcome w', runProvisioningJob env claimed store = some (outcome, w') ∧
      (w'.job.status = .failed → w'.deviceKeys.get? 1 = store.deviceKeys.get? 1) ∧
      (w'.job.status = .ready →
        (∃ key, w'.deviceKeys.get? 1 = some key ∧ key.currentPublicKey = "new-public") ∧
        ∃ base, store.objects.get? "images/v1" = some base ∧
          w'.objects.get? w'.job.outputS3Key = some (baked env claimed base "new-private")) := by
  intro env
  refine (provisioning_keeps_live_key env claimed store rfl).mpr fun h => ?_
  have hup := h.uploads.calls .upload (by simp)
  cases hup

/-- The job write after the key write raises: the job is failed, the bundle deleted, and
the key of the station is one that nobody has. -/
theorem failed_provisioning_rotates_key :
    (runProvisioningJob
        (workbench fun c => if c = .saveReady then some { text := "connection lost" } else none)
        claimed store).map (fun r => (r.2.job.status, r.2.job.errorMessage,
          (r.2.deviceKeys.get? 1).map DeviceKey.currentPublicKey,
          r.2.objects.entries.map Prod.fst)) =
      some (.failed, "connection lost", some "new-public", ["images/v1"]) ∧
    (store.deviceKeys.get? 1).map DeviceKey.currentPublicKey = some "old-public" := by
  decide +kernel

end StationManager.Provisioning
