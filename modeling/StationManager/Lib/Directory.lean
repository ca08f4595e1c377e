/-!
# StationManager.Lib.Directory

A directory with hard links: names stand for inodes, and inodes have contents.
`replace` is POSIX `rename`, which does nothing when both names are links to the
same inode.  The lemmas say what each call does to the content under a name.
-/

namespace StationManager

universe u v

/-- No name stands for an inode that has not been made. -/
structure Directory (ν : Type u) (β : Type v) where
  entry : ν → Option Nat
  data : Nat → β
  fresh : Nat
  made : ∀ n i, entry n = some i → i < fresh

namespace Directory

variable {ν : Type u} {β : Type v} {d d' : Directory ν β} {n m old new : ν} {x : β}

/-- The content under a name. -/
def content (d : Directory ν β) (n : ν) : Option β := (d.entry n).map d.data

/-- `lexists` -/
def has (d : Directory ν β) (n : ν) : Bool := (d.entry n).isSome

/-- Write the file under a name. -/
def write (d : Directory ν β) (n : ν) (x : β) : Directory ν β :=
  { d with data := fun i => if d.entry n = some i then x else d.data i }

/-- No other name stands for the file. -/
def Unlinked (d : Directory ν β) (n : ν) : Prop := ∀ m, m ≠ n → d.has n → d.entry m ≠ d.entry n

theorem has_eq : d.has n = (d.content n).isSome := by simp [has, content]

theorem content_eq_none : d.content n = none ↔ d.has n = false := by
  rw [has_eq]
  cases d.content n <;> simp

/-- Writing a file that has one name changes no other. -/
theorem content_write (h : d.Unlinked n) (hm : m ≠ n) : (d.write n x).content m = d.content m := by
  simp only [content, write]
  cases he : d.entry m with
  | none => rfl
  | some i =>
    refine congrArg some (if_neg fun hn => h m hm ?_ (he.trans hn.symm))
    simp [has, hn]

variable [DecidableEq ν]

/-- Let names that a change selects stand for an inode of the directory, or for none. -/
def rebind (d : Directory ν β) (f : ν → Option Nat) (h : ∀ n i, f n = some i → i < d.fresh) :
    Directory ν β := { d with entry := f, made := h }

/-- `unlink`; a missing name is no error. -/
def unlink (d : Directory ν β) (n : ν) : Directory ν β :=
  d.rebind (fun m => if m = n then none else d.entry m) fun m i h => by
    split at h
    · cases h
    · exact d.made m i h

/-- `link`, unless the old name is missing or the new one taken. -/
def link (d : Directory ν β) (old new : ν) : Option (Directory ν β) :=
  if d.has old && !d.has new then
    some (d.rebind (fun m => if m = new then d.entry old else d.entry m) fun m i h => by
      split at h
      · exact d.made old i h
      · exact d.made m i h)
  else none

/-- `rename`, unless the old name is missing. -/
def replace (d : Directory ν β) (old new : ν) : Option (Directory ν β) :=
  if d.has old then
    if d.entry old = d.entry new then some d
    else some (d.rebind
      (fun m => if m = new then d.entry old else if m = old then none else d.entry m)
      fun m i h => by
        split at h
        · exact d.made old i h
        · split at h
          · cases h
          · exact d.made m i h)
  else none

/-- Make a new file under a name, which must not be taken. -/
def create (d : Directory ν β) (n : ν) (x : β) : Option (Directory ν β) :=
  if d.has n then none
  else some {
    entry := fun m => if m = n then some d.fresh else d.entry m
    data := fun i => if i = d.fresh then x else d.data i
    fresh := d.fresh + 1
    made := fun m i h => by
      split at h
      · cases h
        exact Nat.lt_succ_self _
      · exact Nat.lt_succ_of_lt (d.made m i h) }

/-- Open a name for writing, which makes the file if it is missing. -/
def touch (d : Directory ν β) (n : ν) (x : β) : Directory ν β := (d.create n x).getD d

@[simp] theorem content_unlink : (d.unlink n).content m = if m = n then none else d.content m := by
  simp only [content, unlink, rebind]
  split <;> rfl

@[simp] theorem has_unlink : (d.unlink n).has m = (decide (m ≠ n) && d.has m) := by
  by_cases h : m = n <;> simp [has_eq, h]

theorem link_eq_some (new : ν) (hold : d.has old = true) (hnew : d.has new = false) :
    ∃ d', d.link old new = some d' := by
  simp [link, hold, hnew]

theorem content_link (h : d.link old new = some d') :
    d'.content m = if m = new then d.content old else d.content m := by
  unfold link at h
  split at h
  · cases h
    simp only [content, rebind]
    split <;> rfl
  · cases h

theorem has_link (h : d.link old new = some d') (hne : m ≠ new) : d'.has m = d.has m := by
  rw [has_eq, has_eq, content_link h, if_neg hne]

theorem replace_eq_some (new : ν) (hold : d.has old = true) :
    ∃ d', d.replace old new = some d' := by
  unfold replace
  rw [if_pos hold]
  split
  · exact ⟨_, rfl⟩
  · exact ⟨_, rfl⟩

/-- The name that was moved away keeps its content or is gone. -/
theorem content_replace (h : d.replace old new = some d') (hm : m ≠ old) :
    d'.content m = if m = new then d.content old else d.content m := by
  unfold replace at h
  split at h
  · split at h
    · next hsame =>
      cases h
      split
      · next hnew => rw [hnew, content, content, hsame]
      · rfl
    · cases h
      simp only [content, rebind, if_neg hm]
      split <;> rfl
  · cases h

theorem has_replace (h : d.replace old new = some d') (hold : m ≠ old) (hnew : m ≠ new) :
    d'.has m = d.has m := by
  rw [has_eq, has_eq, content_replace h hold, if_neg hnew]

theorem content_create (h : d.create n x = some d') (hm : m ≠ n) : d'.content m = d.content m := by
  unfold create at h
  split at h
  · cases h
  · cases h
    simp only [content, if_neg hm]
    cases he : d.entry m with
    | none => rfl
    | some i => simp [Nat.ne_of_lt (d.made m i he)]

theorem unlinked_create (h : d.create n x = some d') : d'.Unlinked n := by
  unfold create at h
  split at h
  · cases h
  · cases h
    intro m hm _
    simp only [if_neg hm, if_true]
    exact fun he => Nat.lt_irrefl _ (d.made m _ he)

theorem has_create (h : d.create n x = some d') : d'.has n = true := by
  unfold create at h
  split at h
  · cases h
  · cases h
    simp [has]

theorem content_touch (hm : m ≠ n) : (d.touch n x).content m = d.content m := by
  unfold touch
  cases h : d.create n x with
  | none => rfl
  | some d' => exact content_create h hm

theorem has_touch : (d.touch n x).has n = true := by
  unfold touch
  cases h : d.create n x with
  | some d' => exact has_create h
  | none =>
    unfold create at h
    split at h
    · next hn => exact hn
    · cases h

end Directory
end StationManager
