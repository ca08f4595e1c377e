import StationManager.Lib.Table

/-!
# StationManager.Lib.RowLocks

Row locks of a database: which process holds which row.  A row has at most one
holder, because the holders are a table over the rows.

A process takes several rows at once or waits (`acquire`), and gives back
everything at the end of its transaction (`release`).  Neither takes a row
away from another process (`acquire_holds`, `release_holds`).
-/

namespace StationManager

/-- The holders of the locked rows. -/
abbrev RowLocks (ρ : Type u) := Table ρ Nat

namespace RowLocks

variable {ρ : Type u} [DecidableEq ρ]

/-- No process but `i` holds the row. -/
def isFree (l : RowLocks ρ) (i : Nat) (r : ρ) : Bool := l.get? r = none ∨ l.get? r = some i

/-- Process `i` takes the rows; `none` while another process holds one of
them. -/
def acquire (l : RowLocks ρ) (i : Nat) (rs : List ρ) : Option (RowLocks ρ) :=
  if rs.all (l.isFree i) then some (rs.foldl (fun l r => l.insert r i) l) else none

/-- Process `i` gives all its rows back. -/
def release (l : RowLocks ρ) (i : Nat) : RowLocks ρ := l.filter fun _ j => j ≠ i

variable {i j : Nat} {l : RowLocks ρ} {r : ρ}

theorem isFree_of_holds (h : l.get? r = some i) : l.isFree i r = true := by
  simp [isFree, h]

/-- A row that another process holds is not free. -/
theorem eq_of_isFree (hfree : l.isFree i r = true) (hj : l.get? r = some j) : j = i := by
  simpa [isFree, hj] using hfree

theorem get?_foldl_insert (l : RowLocks ρ) (i : Nat) (rs : List ρ) (r : ρ) :
    (rs.foldl (fun l r => l.insert r i) l).get? r =
      if r ∈ rs then some ((l.get? r).getD i) else l.get? r := by
  induction rs generalizing l with
  | nil => simp
  | cons q rs ih =>
    rw [List.foldl_cons, ih, Table.get?_insert]
    by_cases hq : r = q
    · subst hq
      simp
    · simp [hq]

/-- What has been acquired is held. -/
theorem holds_of_acquire {l' : RowLocks ρ} {rs : List ρ} (h : l.acquire i rs = some l')
    (hr : r ∈ rs) : l'.get? r = some i := by
  unfold acquire at h
  split at h
  · next hall =>
    cases h
    rw [get?_foldl_insert, if_pos hr]
    have hfree := List.all_eq_true.mp hall r hr
    cases hl : l.get? r with
    | none => rfl
    | some j => rw [eq_of_isFree hfree hl]; rfl
  · cases h

/-- Acquiring rows takes none away. -/
theorem acquire_holds {l' : RowLocks ρ} {rs : List ρ} (h : l.acquire i rs = some l')
    (hj : l.get? r = some j) : l'.get? r = some j := by
  unfold acquire at h
  split at h
  · cases h
    rw [get?_foldl_insert, hj]
    simp
  · cases h

/-- Releasing its rows takes none away from another process. -/
theorem release_holds (hne : j ≠ i) (hj : l.get? r = some j) : (l.release i).get? r = some j := by
  rw [release, Table.get?_filter, hj]
  simp [hne]

end RowLocks

end StationManager
