import StationManager.Deployments.Download

/-!
# StationManager.Agent.Download

`download_firmware_resumable` of the station agent: the file that is there already
decides what is asked for, and the answer whether it is continued, replaced or
dropped for a second request from the start.

The answers to the requests, what the disk does and SHA-256 are parameters.
A download that reports success has the file of the checksum after at most two
requests, whatever the answers are; with the answers of
`StationManager.Deployments.Download` it succeeds.
-/

namespace StationManager.Agent.Download

open Deployments

/-- What the disk does in one attempt. -/
structure Disk where
  /-- `os.remove` works. -/
  removes : Bool := true
  /-- The directory can be made. -/
  makesDir : Bool := true
  /-- The file can be opened for writing. -/
  opens : Bool := true
  /-- Writing fails after so many bytes. -/
  full : Option Nat := none
  /-- The file can be read for its checksum. -/
  reads : Bool := true

/-- The world of a download. -/
structure World where
  /-- `sha256(...).hexdigest()` -/
  sha256 : Bytes → String
  /-- The answer to a request with this number and this `Range` header, if there is one,
  and whether reading its body raises at the end. -/
  http : Nat → String → Option (FileResponse × Bool)
  /-- The disk during the attempt that starts with this request. -/
  disk : Nat → Disk

/-- What a download returns, with the file it leaves and the number of requests. -/
structure Outcome where
  ok : Bool
  file : Option Bytes
  requests : Nat

/-- `os.remove`, with its error ignored. -/
def Disk.remove (d : Disk) (file : Option Bytes) : Option Bytes := if d.removes then none else file

/-- `_verify_checksum` -/
def verifyChecksum (sha256 : Bytes → String) (d : Disk) (expected : String) (n : Nat)
    (file : Option Bytes) : Outcome :=
  if expected = "" then ⟨true, file, n⟩
  else
    match if d.reads then file else none with
    | none => ⟨false, d.remove file, n⟩
    | some content =>
      if sha256 content = expected then ⟨true, file, n⟩ else ⟨false, d.remove file, n⟩

/-- What is known before the request. -/
inductive Plan
  /-- The file has the expected size. -/
  | verify
  | request (existing : Nat) (file : Option Bytes)

/-- The part of the download before its request. -/
def plan (d : Disk) (resume : Bool) (expectedSize : Option Nat) (file : Option Bytes) : Plan :=
  match file with
  | none => .request 0 none
  | some content =>
    if !resume then .request 0 file
    else if expectedSize = some content.length then .verify
    else if expectedSize.any (· < content.length) then .request 0 (d.remove file)
    else .request content.length file

/-- The `Range` header of a request. -/
def rangeHeader (existing : Nat) : String := if 0 < existing then s!"bytes={existing}-" else ""

/-- The start that `Content-Range` reports: the group of `bytes\s+(\d+)-` -/
def reportedStart (r : FileResponse) : Option Nat :=
  match "bytes".toList.isPrefixOf? (r.contentRange.getD "").toList with
  | some (c :: rest) =>
    if isSpace c then
      match leadingDecimal? isDecimal (rest.dropWhile isSpace) with
      | some (start, '-' :: _) => some start
      | _ => none
    else none
  | _ => none

/-- The body is written behind `base` and the checksum is verified. -/
def writeBody (w : World) (n : Nat) (expected : String) (file : Option Bytes) (base : Bytes)
    (r : FileResponse) (raises : Bool) : Outcome :=
  let d := w.disk n
  let body := r.chunks.flatten
  if !d.makesDir then ⟨false, file, n + 1⟩
  else if !d.opens then ⟨false, d.remove file, n + 1⟩
  else
    match d.full.filter (· < body.length) with
    | some k => ⟨false, d.remove (some (base ++ body.take k)), n + 1⟩
    | none =>
      if raises then ⟨false, d.remove (some (base ++ body)), n + 1⟩
      else verifyChecksum w.sha256 d expected (n + 1) (some (base ++ body))

theorem plan_fresh (d : Disk) (expectedSize : Option Nat) (file : Option Bytes) :
    plan d false expectedSize file = .request 0 file := by
  cases file <;> rfl

/-- The request is skipped for a file of the expected size. -/
theorem plan_verify {d : Disk} {resume : Bool} {expectedSize : Option Nat} {file : Option Bytes}
    (h : plan d resume expectedSize file = .verify) :
    ∃ content, file = some content ∧ expectedSize = some content.length := by
  cases file with
  | none => cases h
  | some content =>
    unfold plan at h
    dsimp only at h
    split at h
    · cases h
    · split at h
      · next hsize => exact ⟨content, rfl, hsize⟩
      · split at h <;> cases h

/-- A download resumes behind the file that is there. -/
theorem plan_resume {d : Disk} {resume : Bool} {expectedSize : Option Nat}
    {file file' : Option Bytes} {existing : Nat}
    (h : plan d resume expectedSize file = .request existing file') (hpos : 0 < existing) :
    ∃ content, file = some content ∧ file' = some content ∧ existing = content.length := by
  cases file with
  | none =>
    cases h
    cases hpos
  | some content =>
    unfold plan at h
    dsimp only at h
    split at h
    · cases h
      cases hpos
    · split at h
      · cases h
      · split at h
        · cases h
          cases hpos
        · cases h
          exact ⟨content, rfl, rfl, rfl⟩

/-- `download_firmware_resumable`, where `n` requests have been made before. -/
def downloadFirmwareResumable (w : World) (expected : String) (resume : Bool)
    (expectedSize : Option Nat) (n : Nat) (file : Option Bytes) : Outcome :=
  match _hplan : plan (w.disk n) resume expectedSize file with
  | .verify => verifyChecksum w.sha256 (w.disk n) expected n file
  | .request existing file =>
    match w.http n (rangeHeader existing) with
    | none => ⟨false, file, n + 1⟩
    | some (r, raises) =>
      if hrestart : 0 < existing ∧ (r.status = 416 ∨
          r.status = 206 ∧ reportedStart r ≠ some existing) then
        downloadFirmwareResumable w expected false none (n + 1) ((w.disk n).remove file)
      else if r.status = 200 then writeBody w n expected file [] r raises
      else if r.status = 206 then
        writeBody w n expected file (if 0 < existing then file.getD [] else []) r raises
      else ⟨false, file, n + 1⟩
termination_by resume.toNat
decreasing_by
  cases resume with
  | true => decide
  | false =>
    rw [plan_fresh] at _hplan
    cases _hplan
    exact absurd hrestart.1 (Nat.lt_irrefl _)

/-! ## every answer -/

section
variable {w : World} {expected : String} {resume : Bool} {expectedSize : Option Nat} {n : Nat}
  {file : Option Bytes}

/-- How a download ends: a second attempt is made only where the first was to resume. -/
theorem download_cases {P : Outcome → Prop}
    (hverify : P (verifyChecksum w.sha256 (w.disk n) expected n file))
    (hfail : ∀ file, P ⟨false, file, n + 1⟩)
    (hwrite : ∀ file base r raises, P (writeBody w n expected file base r raises))
    (hrestart : resume = true →
      ∀ file, P (downloadFirmwareResumable w expected false none (n + 1) file)) :
    P (downloadFirmwareResumable w expected resume expectedSize n file) := by
  rw [downloadFirmwareResumable]
  split
  · exact hverify
  · next existing file' hplan =>
    split
    · exact hfail _
    · split
      · next hagain =>
        refine hrestart ?_ _
        cases resume with
        | true => rfl
        | false =>
          rw [plan_fresh] at hplan
          cases hplan
          exact absurd hagain.1 (Nat.lt_irrefl _)
      · split
        · exact hwrite _ _ _ _
        · split
          · exact hwrite _ _ _ _
          · exact hfail _

theorem verifyChecksum_requests {d : Disk} :
    (verifyChecksum w.sha256 d expected n file).requests = n := by
  unfold verifyChecksum
  split
  · rfl
  · split
    · rfl
    · split <;> rfl

theorem writeBody_requests {base : Bytes} {r : FileResponse} {raises : Bool} :
    (writeBody w n expected file base r raises).requests = n + 1 := by
  unfold writeBody
  dsimp only
  repeat' split
  all_goals first
    | rfl
    | exact verifyChecksum_requests

theorem download_requests :
    (downloadFirmwareResumable w expected resume expectedSize n file).requests ≤
      n + 1 + resume.toNat := by
  refine download_cases (P := fun o => o.requests ≤ n + 1 + resume.toNat) ?_ ?_ ?_ ?_
  · exact Nat.le_trans (Nat.le_of_eq verifyChecksum_requests) (by omega)
  · exact fun _ => Nat.le_add_right _ _
  · exact fun _ _ _ _ => Nat.le_trans (Nat.le_of_eq writeBody_requests) (Nat.le_add_right _ _)
  · rintro rfl file'
    -- the second attempt makes one request
    refine download_cases (P := fun o => o.requests ≤ n + 2) ?_ ?_ ?_ ?_
    · exact Nat.le_trans (Nat.le_of_eq verifyChecksum_requests) (Nat.le_succ _)
    · exact fun _ => Nat.le_refl _
    · exact fun _ _ _ _ => Nat.le_of_eq writeBody_requests
    · intro h
      cases h

/-- Success means that the file has the checksum. -/
def Outcome.Verified (sha256 : Bytes → String) (expected : String) (o : Outcome) : Prop :=
  o.ok = true → ∃ content, o.file = some content ∧ sha256 content = expected

theorem verified_fail (file : Option Bytes) : Outcome.Verified w.sha256 expected ⟨false, file, n⟩ :=
  fun h => by cases h

theorem verified_verifyChecksum {d : Disk} (hne : expected ≠ "") :
    (verifyChecksum w.sha256 d expected n file).Verified w.sha256 expected := by
  unfold verifyChecksum
  rw [if_neg hne]
  split
  · exact verified_fail _
  · next content hread =>
    split
    · next hsum =>
      refine fun _ => ⟨content, ?_, hsum⟩
      split at hread
      · exact hread
      · cases hread
    · exact verified_fail _

theorem verified_writeBody {base : Bytes} {r : FileResponse} {raises : Bool} (hne : expected ≠ "") :
    (writeBody w n expected file base r raises).Verified w.sha256 expected := by
  unfold writeBody
  dsimp only
  repeat' split
  all_goals first
    | exact verified_fail _
    | exact verified_verifyChecksum hne

theorem verified_download (hne : expected ≠ "") :
    (downloadFirmwareResumable w expected resume expectedSize n file).Verified w.sha256
      expected := by
  refine download_cases (P := Outcome.Verified w.sha256 expected) (verified_verifyChecksum hne)
    (fun _ => verified_fail _) (fun _ _ _ _ => verified_writeBody hne) fun _ _ => ?_
  exact download_cases (P := Outcome.Verified w.sha256 expected) (verified_verifyChecksum hne)
    (fun _ => verified_fail _) (fun _ _ _ _ => verified_writeBody hne) fun h => by cases h

end

/-! ## the answers of the endpoint -/

theorem reportedStart_eq {r : FileResponse} {start stop total : Nat}
    (h : r.contentRange = some s!"bytes {start}-{stop}/{total}") :
    reportedStart r = some start := by
  have hrest : "bytes".toList.isPrefixOf? (s!"bytes {start}-{stop}/{total}").toList =
      some (' ' :: ((toString start).toList ++
        '-' :: ((toString stop).toList ++ '/' :: (toString total).toList))) := by
    show "bytes".toList.isPrefixOf?
      ("bytes " ++ toString start ++ "-" ++ toString stop ++ "/" ++ toString total).toList = _
    simp only [String.toList_append, List.append_assoc]
    rfl
  rw [reportedStart, h, Option.getD_some, hrest]
  dsimp only
  rw [if_pos (by decide), dropWhile_isSpace_toString,
    leadingDecimal?_toString start _ (by decide)]
  rfl

/-- The endpoint answers every request, and the disk works. -/
structure World.Works (w : World) (a : Artifact) : Prop where
  http : ∀ n range, w.http n range = some (a.get range, false)
  disk : ∀ n, w.disk n = {}

section
variable {w : World} {a : Artifact} {F : Bytes} {resume : Bool} {expectedSize : Option Nat}
  {n : Nat} {file : Option Bytes}

/-- Where the body completes the file, the download succeeds. -/
theorem World.Works.writeBody_ok (hw : w.Works a) {base : Bytes} {r : FileResponse}
    (hbody : base ++ r.chunks.flatten = F) :
    (writeBody w n (w.sha256 F) file base r false).ok = true := by
  simp [writeBody, hw.disk, hbody, verifyChecksum]

/-- A request without a range succeeds. -/
theorem World.Works.full_ok (hw : w.Works a) (ha : a.Serves F) {file' : Option Bytes}
    (hplan : plan (w.disk n) resume expectedSize file = .request 0 file') :
    (downloadFirmwareResumable w (w.sha256 F) resume expectedSize n file).ok = true := by
  obtain ⟨hstatus, hbody⟩ := ha.get_full
  rw [downloadFirmwareResumable]
  split
  · next h => rw [hplan] at h; cases h
  · next existing file'' h =>
    rw [hplan] at h
    cases h
    rw [hw.http]
    simp only [Nat.lt_irrefl, false_and, dite_false, rangeHeader, if_false, hstatus, if_true]
    exact hw.writeBody_ok (by simpa using hbody)

/-- The content that is there already, if any, is a beginning of `F` or longer than it. -/
def Resumable (F : Bytes) (file : Option Bytes) : Prop :=
  ∀ content, file = some content → content <+: F ∨ F.length < content.length

/-- **With the answers of the endpoint** a download succeeds. -/
theorem World.Works.download_ok (hw : w.Works a) (ha : a.Serves F)
    (hsize : expectedSize = none ∨ expectedSize = some F.length) (hfile : Resumable F file) :
    (downloadFirmwareResumable w (w.sha256 F) resume expectedSize n file).ok = true := by
  cases hplan : plan (w.disk n) resume expectedSize file with
  | verify =>
    obtain ⟨content, rfl, hlen⟩ := plan_verify hplan
    have hsame : content = F := by
      rcases hsize with hnone | hsome
      · rw [hnone] at hlen
        cases hlen
      · have hlength : F.length = content.length := Option.some.inj (hsome.symm.trans hlen)
        rcases hfile content rfl with hpre | hlong
        · exact hpre.eq_of_length hlength.symm
        · exact absurd hlength (Nat.ne_of_lt hlong)
    rw [downloadFirmwareResumable]
    split
    · simp [verifyChecksum, hw.disk, hsame]
    · next h => rw [hplan] at h; cases h
  | request existing file' =>
    rcases Nat.eq_zero_or_pos existing with rfl | hpos
    · exact hw.full_ok ha hplan
    obtain ⟨content, rfl, rfl, rfl⟩ := plan_resume hplan hpos
    have hfresh : (downloadFirmwareResumable w (w.sha256 F) false none (n + 1)
        ((w.disk n).remove (some content))).ok = true := hw.full_ok ha (plan_fresh _ _ _)
    rw [downloadFirmwareResumable]
    split
    · next h => rw [hplan] at h; cases h
    · next existing file' h =>
      rw [hplan] at h
      cases h
      rw [hw.http, rangeHeader, if_pos hpos]
      dsimp only
      rcases ha.get_open content.length with h416 | ⟨hlt, h206, ⟨stop, total, hrange⟩, hbody⟩
      · rw [dif_pos ⟨hpos, .inl h416⟩]
        exact hfresh
      · have hstay : ¬(0 < content.length ∧ ((a.get s!"bytes={content.length}-").status = 416 ∨
            (a.get s!"bytes={content.length}-").status = 206 ∧
              reportedStart (a.get s!"bytes={content.length}-") ≠ some content.length)) := by
          rw [h206, reportedStart_eq hrange]
          simp
        rw [dif_neg hstay, h206, if_neg (by decide), if_pos rfl, if_pos hpos]
        refine hw.writeBody_ok ?_
        rw [hbody]
        have hpre : content <+: F :=
          (hfile content rfl).resolve_right (Nat.lt_asymm hlt)
        obtain ⟨rest, rfl⟩ := hpre
        simp

end

/-- **Resumable download.**  Whatever is answered, at most two requests are made, and success
means that the file is `F`, where `expected` is its checksum and SHA-256 has no
collisions.  The endpoint's answers lead to success unless the file that is there is no
beginning of `F` and not longer than it. -/
theorem resumable_download (w : World) (F : Bytes) (resume : Bool) (expectedSize : Option Nat)
    (file : Option Bytes) (hsha : Function.Injective w.sha256) (hne : w.sha256 F ≠ "") :
    let o := downloadFirmwareResumable w (w.sha256 F) resume expectedSize 0 file
    o.requests ≤ 2 ∧ (o.ok = true → o.file = some F) ∧
      ∀ a : Artifact, w.Works a → a.Serves F →
        (expectedSize = none ∨ expectedSize = some F.length) → Resumable F file →
          o.ok = true ∧ o.file = some F := by
  intro o
  have hfile : o.ok = true → o.file = some F := by
    intro hok
    obtain ⟨content, hcontent, hsum⟩ := verified_download hne hok
    rw [hcontent, hsha hsum]
  refine ⟨?_, hfile, fun a hw ha hsize hres => ?_⟩
  · refine Nat.le_trans download_requests ?_
    cases resume <;> decide
  · have hok : o.ok = true := hw.download_ok ha hsize hres
    exact ⟨hok, hfile hok⟩

/-! ## an example -/

/-- A checksum without collisions. -/
def plainSum (b : Bytes) : String := String.ofList ('x' :: b.map fun u => Char.ofNat u.toNat)

theorem plainSum_injective : Function.Injective plainSum := by
  intro a b h
  have hlist := List.tail_eq_of_cons_eq (String.ofList_injective h)
  refine (List.map_inj_right fun x y hxy => ?_).mp hlist
  have hnat : ∀ u : UInt8, (Char.ofNat u.toNat).toNat = u.toNat := by
    intro u
    have hlt := u.toNat_lt
    have hvalid : u.toNat.isValidChar := .inl (by omega)
    rw [Char.ofNat, dif_pos hvalid]
    exact UInt32.toNat_ofNatLT
  exact UInt8.toNat_inj.mp (by rw [← hnat x, hxy, hnat y])

def image : Bytes := [1, 2, 3]

def storedImage : Artifact := ⟨image, some 3, true⟩

def workingWorld : World where
  sha256 := plainSum
  http _ range := some (storedImage.get range, false)
  disk _ := {}

/-- The download goes on behind the first byte. -/
theorem resumable_download_partial :
    let o := downloadFirmwareResumable workingWorld (plainSum image) true (some 3) 0 (some [1])
    o.requests ≤ 2 ∧ o.file = some image := by
  have hne : plainSum image ≠ "" := by decide
  obtain ⟨hrequests, -, hserved⟩ :=
    resumable_download workingWorld image true (some 3) (some [1]) plainSum_injective hne
  refine ⟨hrequests, (hserved storedImage ⟨fun _ _ => rfl, fun _ => rfl⟩ ⟨rfl, .inr rfl⟩ (.inr rfl)
    fun content hcontent => .inl ?_).2⟩
  cases hcontent
  exact ⟨[2, 3], rfl⟩

end StationManager.Agent.Download
