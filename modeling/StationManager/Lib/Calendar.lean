import Mathlib.Data.Nat.Find
import Mathlib.Order.Monotone.Basic

/-!
# StationManager.Lib.Calendar

The months of the Gregorian calendar, counted from January of year 1, and the
days, counted from the first day of that month.  `monthDay` and `monthOf` are
adjoint: `monthDay m ≤ d ↔ m ≤ monthOf d`.
-/

namespace StationManager.Calendar

def isLeap (year : Nat) : Bool :=
  year % 4 = 0 && (year % 100 ≠ 0 || year % 400 = 0)

/-- The length of a month. -/
def monthLength (m : Nat) : Nat :=
  match m % 12 with
  | 1 => if isLeap (m / 12 + 1) then 29 else 28
  | 3 | 5 | 8 | 10 => 30
  | _ => 31

/-- The first day of a month. -/
def monthDay : Nat → Nat
  | 0 => 0
  | m + 1 => monthDay m + monthLength m

/-- The month of a day; no month has less than 28 days. -/
def monthOf (d : Nat) : Nat := Nat.findGreatest (fun m => monthDay m ≤ d) (d / 28)

theorem monthLength_ge (m : Nat) : 28 ≤ monthLength m := by
  unfold monthLength
  repeat' split
  all_goals decide

theorem monthDay_ge (m : Nat) : 28 * m ≤ monthDay m := by
  induction m with
  | zero => exact Nat.le_refl _
  | succ m ih =>
    have := monthLength_ge m
    rw [monthDay]
    omega

theorem monthDay_strictMono : StrictMono monthDay := by
  refine strictMono_nat_of_lt_succ fun m => ?_
  have := monthLength_ge m
  rw [monthDay]
  omega

theorem monthDay_le_iff {m d : Nat} : monthDay m ≤ d ↔ m ≤ monthOf d := by
  have hspec : monthDay (monthOf d) ≤ d :=
    Nat.findGreatest_spec (P := fun m => monthDay m ≤ d) (Nat.zero_le _) (Nat.zero_le d)
  constructor
  · intro h
    refine Nat.le_findGreatest ?_ h
    have := monthDay_ge m
    omega
  · intro h
    exact Nat.le_trans (monthDay_strictMono.monotone h) hspec

-- 2024 was a leap year
example : monthLength (2023 * 12 + 1) = 29 := by decide

end StationManager.Calendar
