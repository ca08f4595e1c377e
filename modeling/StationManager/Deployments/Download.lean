import StationManager.Lib.Text

/-!
# StationManager.Deployments.Download

`DeploymentDownloadView.get` once it has opened the stored object: the answer to
a request with or without a `Range` header.  The download view of module
firmware handles ranges in the same way.
-/

namespace StationManager

abbrev Bytes := List UInt8

namespace Deployments

/-- A stored object.  `size` is the size that the release declares, and a backend that
cannot seek raises. -/
structure Artifact where
  content : Bytes
  size : Option Int
  seekable : Bool

/-- An answer, with the chunks of its body. -/
structure FileResponse where
  status : Nat
  contentRange : Option String := none
  contentLength : Option Nat := none
  acceptRanges : Option String := none
  detail : Option String := none
  chunks : List Bytes := []

/-- The groups of `bytes=(\d+)-(\d*)` -/
def parseRange (header : String) : Option (Nat × Option Nat) :=
  match ("bytes=".toList.isPrefixOf? header.toList).bind (leadingDecimal? isDecimal) with
  | some (start, ['-']) => some (start, none)
  | some (start, '-' :: rest) => (decimal? rest).map fun stop => (start, some stop)
  | _ => none

/-- `CHUNK` -/
def chunkSize : Nat := 1048576

/-- `iterator`: the stream is read in chunks until it ends or `remaining` bytes are
sent. -/
def readChunks (stream : Bytes) (remaining : Option Nat) : List Bytes :=
  let toRead := remaining.elim chunkSize (min chunkSize)
  let chunk := stream.take toRead
  if _h : chunk = [] then []
  else chunk :: readChunks (stream.drop toRead) (remaining.map fun r => r - chunk.length)
termination_by stream.length
decreasing_by
  have hsome := mt List.take_eq_nil_iff.mpr _h
  have hpos : 0 < stream.length := List.length_pos_iff.mpr fun he => hsome (.inr he)
  have hread : toRead ≠ 0 := fun he => hsome (.inl he)
  rw [List.length_drop]
  omega

namespace Artifact

/-- A size that is missing or not positive is unknown. -/
def totalSize (a : Artifact) : Option Nat :=
  a.size.bind fun n => if 0 < n then some n.toNat else none

/-- The headers that every streamed answer has. -/
def stream (a : Artifact) (status start : Nat) (length : Option Nat)
    (contentRange : Option String) : FileResponse where
  status := status
  contentRange := contentRange
  contentLength := length
  acceptRanges := some (if a.seekable then "bytes" else "none")
  chunks := readChunks (a.content.drop start) length

def notSatisfiable (total : Option Nat) : FileResponse where
  status := 416
  contentRange := total.map fun n => s!"bytes */{n}"
  detail := some "Requested range not satisfiable."

/-- `get`, with the `Range` header of the request. -/
def get (a : Artifact) (range : String) : FileResponse :=
  if range = "" then a.stream 200 0 a.totalSize none
  else
    match a.totalSize with
    | none => notSatisfiable none
    | some total =>
      match parseRange range with
      | none => a.stream 200 0 (some total) none
      | some (start, stop) =>
        let stop := stop.getD (total - 1)
        if total ≤ start || stop < start || !a.seekable then notSatisfiable (some total)
        else
          let stop := min stop (total - 1)
          a.stream 206 start (some (stop - start + 1)) (some s!"bytes {start}-{stop}/{total}")

end Artifact

/-! ## what is sent -/

/-- The chunks are what was asked for, in pieces. -/
theorem flatten_readChunks (stream : Bytes) (remaining : Option Nat) :
    (readChunks stream remaining).flatten = remaining.elim stream fun n => stream.take n := by
  fun_induction readChunks stream remaining with
  | case1 stream remaining toRead chunk h =>
    have hnil := List.take_eq_nil_iff.mp h
    cases remaining with
    | none =>
      rcases hnil with hread | hempty
      · exact absurd hread (by decide)
      · simp [hempty]
    | some n =>
      rcases hnil with hread | hempty
      · have hzero : n = 0 := by
          simp only [toRead, Option.elim_some, chunkSize] at hread
          omega
        simp [hzero]
      · simp [hempty]
  | case2 stream remaining toRead chunk h ih =>
    rw [List.flatten_cons, ih]
    cases remaining with
    | none => exact List.take_append_drop toRead stream
    | some n =>
      simp only [Option.map_some, Option.elim_some]
      have hle : toRead ≤ n := Nat.min_le_right _ _
      have hlen : chunk.length = min toRead stream.length := List.length_take
      rcases Nat.le_total toRead stream.length with hfull | hshort
      · rw [hlen, Nat.min_eq_left hfull, ← List.take_add, Nat.add_sub_cancel' hle]
      · rw [List.drop_eq_nil_of_le hshort, List.take_nil, List.append_nil,
          List.take_of_length_le (Nat.le_trans hshort hle)]
        exact List.take_of_length_le hshort

/-- The range that the agent asks for is understood. -/
theorem parseRange_open (n : Nat) : parseRange s!"bytes={n}-" = some (n, none) := by
  have hrest : "bytes=".toList.isPrefixOf? (s!"bytes={n}-").toList =
      some ((toString n).toList ++ ['-']) := by
    show "bytes=".toList.isPrefixOf? ("bytes=" ++ toString n ++ "-").toList = _
    rw [String.toList_append, String.toList_append, List.append_assoc]
    rfl
  rw [parseRange, hrest, Option.bind_some, leadingDecimal?_toString n [] (by decide)]
  rfl

/-- What the endpoint declares is right, or it declares nothing. -/
structure Artifact.Serves (a : Artifact) (F : Bytes) : Prop where
  content : a.content = F
  size : a.totalSize = none ∨ a.totalSize = some F.length

theorem Artifact.Serves.body {a : Artifact} {F : Bytes} (h : a.Serves F) :
    (readChunks a.content a.totalSize).flatten = F := by
  rw [flatten_readChunks, h.content]
  rcases h.size with hsize | hsize <;> rw [hsize]
  · rfl
  · exact List.take_length

/-- Without a range the whole content is sent. -/
theorem Artifact.Serves.get_full {a : Artifact} {F : Bytes} (h : a.Serves F) :
    (a.get "").status = 200 ∧ (a.get "").chunks.flatten = F := by
  rw [Artifact.get, if_pos rfl]
  exact ⟨rfl, h.body⟩

/-- A resumed request is answered with the rest from there on, or it is refused. -/
theorem Artifact.Serves.get_open {a : Artifact} {F : Bytes} (h : a.Serves F) (n : Nat) :
    (a.get s!"bytes={n}-").status = 416 ∨ n < F.length ∧ (a.get s!"bytes={n}-").status = 206 ∧
        (∃ stop total : Nat,
          (a.get s!"bytes={n}-").contentRange = some s!"bytes {n}-{stop}/{total}") ∧
        (a.get s!"bytes={n}-").chunks.flatten = F.drop n := by
  have hne : s!"bytes={n}-" ≠ "" := by
    intro he
    have hp := parseRange_open n
    rw [he] at hp
    cases hp
  rw [Artifact.get, if_neg hne]
  rcases h.size with hsize | hsize
  · rw [hsize]
    exact .inl rfl
  · simp only [hsize, parseRange_open, Option.getD_none]
    split
    · exact .inl rfl
    · next hin =>
      simp only [Bool.or_eq_true, decide_eq_true_eq, not_or] at hin
      have hlt : n < F.length := Nat.not_le.mp hin.1.1
      refine .inr ⟨hlt, rfl, ⟨_, _, rfl⟩, ?_⟩
      show (readChunks (a.content.drop n) _).flatten = _
      rw [flatten_readChunks, h.content]
      refine List.take_of_length_le ?_
      rw [List.length_drop]
      omega

end Deployments
end StationManager
