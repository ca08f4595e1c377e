import StationManager.Lib.Table

/-!
# StationManager.Accounts.Models

Users and their roles at stations.  A user's level in the association is a column
of text; Django's own flags follow from it on every save.  The two uniqueness
constraints of the assignment table are fields of the table, so that a table that
breaks one cannot be built.
-/

namespace StationManager.Accounts

/-! ## users -/

/-- `Level`, from the lowest up. -/
inductive Level where
  | applicant
  | member
  | staff
  | admin
deriving DecidableEq, Repr

namespace Level

def all : List Level := [.applicant, .member, .staff, .admin]

/-- `Level.slug` -/
def slug : Level → String
  | .applicant => "applicant"
  | .member => "member"
  | .staff => "staff"
  | .admin => "admin"

/-- `Level.from_slug`; a text that names no level gives none. -/
def fromSlug (slug : String) : Option Level := all.find? fun level => level.slug = slug

/-- The value of the `IntEnum`. -/
def value : Level → Nat
  | .applicant => 1
  | .member => 2
  | .staff => 3
  | .admin => 4

end Level

/-- A row of the user table, as far as the views below read or write it. -/
structure User where
  username : String
  email : String := ""
  firstName : String := ""
  lastName : String := ""
  language : String := "de"
  password : String := ""
  membershipLevel : String := Level.applicant.slug
  isStaff : Bool := false
  isSuperuser : Bool := false
  isActive : Bool := true
  deletedAt : Option Time := none
  deletedBy : Option Pk := none
  avatar : String := ""
  bio : String := ""
  qthName : String := ""
  qrzUrl : String := ""
  phone : String := ""
  isDirectoryVisible : Bool := true
deriving DecidableEq, Repr

namespace User

/-- What the level column stands for: the higher, the more a user may do. -/
def rank (user : User) : Nat := ((Level.fromSlug user.membershipLevel).map Level.value).getD 0

/-- `Level.from_slug(user.membership_level) == Level.APPLICANT` -/
def isApplicant (user : User) : Bool := Level.fromSlug user.membershipLevel = some .applicant

/-- Columns that some save names in its `update_fields`. -/
inductive Column where
  | membershipLevel
  | isStaff
  | isSuperuser
  | isActive
  | deletedAt
  | deletedBy
deriving DecidableEq, Repr

/-- Write one column of an instance into its row. -/
def copy (saved row : User) : Column → User
  | .membershipLevel => { row with membershipLevel := saved.membershipLevel }
  | .isStaff => { row with isStaff := saved.isStaff }
  | .isSuperuser => { row with isSuperuser := saved.isSuperuser }
  | .isActive => { row with isActive := saved.isActive }
  | .deletedAt => { row with deletedAt := saved.deletedAt }
  | .deletedBy => { row with deletedBy := saved.deletedBy }

/-- The flags of the Django admin site follow from the level. -/
def derived (user : User) : User :=
  let derived := user.membershipLevel = Level.admin.slug
  { user with isStaff := derived, isSuperuser := derived }

/-- `User.save`: the row after an instance was saved over it.  Without `update_fields`
every column is written; a save that names the level writes the derived flags too. -/
def save (user : User) (updateFields : Option (List Column)) (row : User) : User :=
  match updateFields with
  | none => user.derived
  | some fields =>
    let fields := if .membershipLevel ∈ fields then fields ++ [.isStaff, .isSuperuser] else fields
    fields.foldl user.derived.copy row

end User

/-! ## station assignments -/

/-- `StationAssignment.Role` -/
inductive Role where
  | admin
  | maintainer
deriving DecidableEq, Repr

structure StationAssignment where
  user : Pk
  station : Pk
  role : Role
  assignedBy : Option Pk := none
deriving DecidableEq, Repr

namespace StationAssignment

/-- `uniq_user_per_station_assignment` and `uniq_admin_per_station`: two rows that
may not stand in the table together. -/
def Clashes (a b : StationAssignment) : Prop :=
  a.station = b.station ∧ (a.user = b.user ∨ a.role = .admin ∧ b.role = .admin)

instance (a b : StationAssignment) : Decidable (a.Clashes b) :=
  inferInstanceAs (Decidable (_ ∧ _))

theorem Clashes.symm {a b : StationAssignment} (h : a.Clashes b) : b.Clashes a :=
  ⟨h.1.symm, h.2.imp Eq.symm fun hr => ⟨hr.2, hr.1⟩⟩

end StationAssignment

/-- The assignment table. -/
structure Assignments where
  rows : Table Pk StationAssignment
  /-- the next serial key -/
  serial : Pk
  fresh : ∀ k a, rows.get? k = some a → k < serial
  unique : ∀ j k a b, rows.get? j = some a → rows.get? k = some b → a.Clashes b → j = k

namespace Assignments

def empty : Assignments where
  rows := .empty
  serial := 1
  fresh := by simp [Table.empty, Table.get?]
  unique := by simp [Table.empty, Table.get?]

/-- The first row that satisfies a condition. -/
def first? (t : Assignments) (p : StationAssignment → Bool) : Option (Pk × StationAssignment) :=
  t.rows.entries.find? fun e => p e.2

theorem get?_serial (t : Assignments) : t.rows.get? t.serial = none := by
  cases hget : t.rows.get? t.serial with
  | none => rfl
  | some b => exact absurd (t.fresh _ b hget) (Nat.lt_irrefl _)

/-- Insert a row; none is the `IntegrityError` of a violated constraint. -/
def insert (t : Assignments) (a : StationAssignment) : Option Assignments :=
  if h : ∀ e ∈ t.rows.entries, ¬ a.Clashes e.2 then
    some {
      rows := t.rows.insert t.serial a
      serial := t.serial + 1
      fresh := by
        intro k b hb
        rw [Table.get?_insert] at hb
        by_cases hk : k = t.serial
        · exact hk ▸ Nat.lt_succ_self _
        · rw [if_neg hk] at hb
          exact Nat.lt_succ_of_lt (t.fresh k b hb)
      unique := by
        have hold : ∀ k b, t.rows.get? k = some b → ¬ a.Clashes b := fun k b hb =>
          h (k, b) ((t.rows.mem_entries_iff k b).mpr hb)
        intro j k b c hb hc hclash
        rw [Table.get?_insert, t.get?_serial] at hb hc
        by_cases hj : j = t.serial <;> by_cases hk : k = t.serial
        · rw [hj, hk]
        · rw [if_pos hj, Option.getD_none, Option.some.injEq] at hb
          rw [if_neg hk] at hc
          exact absurd (hb ▸ hclash) (hold k c hc)
        · rw [if_neg hj] at hb
          rw [if_pos hk, Option.getD_none, Option.some.injEq] at hc
          exact absurd (hc ▸ hclash.symm) (hold j b hb)
        · rw [if_neg hj] at hb
          rw [if_neg hk] at hc
          exact t.unique j k b c hb hc hclash }
  else none

/-- Delete a row. -/
def delete (t : Assignments) (k : Pk) : Assignments where
  rows := t.rows.erase k
  serial := t.serial
  fresh := by
    intro j a ha
    rw [Table.get?_erase] at ha
    by_cases hj : j = k
    · simp [hj] at ha
    · exact t.fresh j a (by simpa [hj] using ha)
  unique := by
    have hsub : ∀ j a, (t.rows.erase k).get? j = some a → t.rows.get? j = some a := by
      intro j a ha
      rw [Table.get?_erase] at ha
      by_cases hj : j = k
      · simp [hj] at ha
      · simpa [hj] using ha
    intro i j a b ha hb
    exact t.unique i j a b (hsub i a ha) (hsub j b hb)

/-- The user holds the role at the station. -/
def Holds (t : Assignments) (user station : Pk) (role : Role) : Prop :=
  ∃ k a, t.rows.get? k = some a ∧ a.user = user ∧ a.station = station ∧ a.role = role

theorem first?_eq_none {t : Assignments} {p : StationAssignment → Bool} :
    t.first? p = none ↔ ∀ k a, t.rows.get? k = some a → p a = false := by
  simp only [first?, List.find?_eq_none, Bool.not_eq_true, Prod.forall, Table.mem_entries_iff]

theorem first?_eq_some {t : Assignments} {p : StationAssignment → Bool} {k : Pk}
    {a : StationAssignment} (h : t.first? p = some (k, a)) : t.rows.get? k = some a ∧ p a = true :=
  ⟨(t.rows.mem_entries_iff k a).mp (List.mem_of_find?_eq_some h),
    List.find?_some (p := fun e : Pk × StationAssignment => p e.2) h⟩

theorem holds_insert {t t' : Assignments} {a : StationAssignment} (h : t.insert a = some t') :
    t'.Holds a.user a.station a.role := by
  unfold insert at h
  split at h
  · rw [Option.some.injEq] at h
    refine ⟨t.serial, a, ?_, rfl, rfl, rfl⟩
    rw [← h, Table.get?_insert, if_pos rfl, t.get?_serial, Option.getD_none]
  · cases h

/-- The user is the station's only admin. -/
def OnlyAdmin (t : Assignments) (user station : Pk) : Prop :=
  t.Holds user station .admin ∧ ∀ other, t.Holds other station .admin → other = user

/-- By the constraint of the table an admin is the only one. -/
theorem Holds.onlyAdmin {t : Assignments} {user station : Pk} (h : t.Holds user station .admin) :
    t.OnlyAdmin user station := by
  refine ⟨h, ?_⟩
  rintro other ⟨j, b, hb, rfl, hbs, hbr⟩
  obtain ⟨k, a, ha, rfl, has, har⟩ := h
  have hjk := t.unique j k b a hb ha ⟨hbs.trans has.symm, .inr ⟨hbr, har⟩⟩
  have hab : b = a := by simpa [hjk, ha] using hb.symm
  rw [hab]

end Assignments
end StationManager.Accounts
