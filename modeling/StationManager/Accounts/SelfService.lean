import StationManager.Accounts.Models
import StationManager.Lib.Transition

/-!
# StationManager.Accounts.SelfService

Requests about one user, interleaved: an administrator changes the user's level
(`MembershipSetView.post`) or soft-deletes the account (`UserSoftDeleteView.post`)
while the user edits the own profile (`ProfileView`) or sets a password from a mailed
token (`SetPasswordView.post`).

The administrative requests write single columns.  The user's own requests load the
row when they start and later save it as a whole, so what they write is the standing
the user had at the load.
-/

namespace StationManager.Accounts.SelfService

/-! ## requests -/

/-- `AccountToken.TokenType` -/
inductive TokenType where
  | welcome
  | reset
  | verify
deriving DecidableEq, Repr

structure AccountToken where
  tokenType : TokenType
  expiresAt : Time
  usedAt : Option Time := none
deriving DecidableEq, Repr

/-- `AccountToken.is_active` -/
def AccountToken.isActive (token : AccountToken) (now : Time) : Bool :=
  token.usedAt = none ∧ now < token.expiresAt

/-- What the requests share: the user's row, the user's tokens by the hash of their
secret, and the number of roles at stations and in regions. -/
structure Account where
  row : User
  tokens : Table String AccountToken
  stationAssignments : Nat
  regionAssignments : Nat

/-- The fields of `ProfileIdentityForm`, and whether they pass its validation. -/
structure IdentityForm where
  email : String
  firstName : String
  lastName : String
  language : String
  valid : Bool := true
deriving DecidableEq, Repr

/-- The fields of `ProfileProfileForm`. -/
structure ProfileForm where
  avatar : String
  bio : String
  qthName : String
  qrzUrl : String
  phone : String
  isDirectoryVisible : Bool
  valid : Bool := true
deriving DecidableEq, Repr

/-- The hash of the token and of the new password of a `SetPasswordForm`. -/
structure PasswordForm where
  secretHash : String
  password : String
  valid : Bool := true
deriving DecidableEq, Repr

/-- A request; `isSelf` says whether the administrator is the user. -/
inductive Request where
  | setMembership (isSelf : Bool) (level : String)
  | softDelete (isSelf : Bool) (sender : Pk)
  | saveIdentity (form : IdentityForm)
  | saveProfile (form : ProfileForm)
  | setPassword (form : PasswordForm)
deriving DecidableEq, Repr

/-- Where a request stands: what it has loaded, and what it does next. -/
inductive Proc where
  | setMembership (target : User) (isSelf : Bool) (level : String)
  /-- the checks passed: save the level -/
  | saveLevel (target : User)
  | softDelete (target : User) (isSelf : Bool) (sender : Pk)
  | saveIdentity (user : User) (form : IdentityForm)
  | saveProfile (user : User) (form : ProfileForm)
  /-- the form is valid and its fields are set: save the whole instance -/
  | saveForm (user : User)
  /-- the token was found, its user is not loaded yet -/
  | setPassword (tokenType : TokenType) (form : PasswordForm)
  | consumeToken (user : User) (tokenType : TokenType) (form : PasswordForm)
deriving DecidableEq, Repr

/-- `SetPasswordView._lookup` -/
def lookup (s : Account) (secretHash : String) (now : Time) : Option AccountToken :=
  (s.tokens.get? secretHash).filter fun token =>
    token.tokenType ≠ .verify ∧ token.isActive now ∧ s.row.isActive

/-- The first database access of a request.  A session of an inactive user is not
authenticated, a soft-deleted target is a 404. -/
def start (now : Time) (s : Account) : Request → Option Proc
  | .setMembership isSelf level =>
    if s.row.deletedAt = none then some (.setMembership s.row isSelf level) else none
  | .softDelete isSelf sender =>
    if s.row.deletedAt = none then some (.softDelete s.row isSelf sender) else none
  | .saveIdentity form => if s.row.isActive then some (.saveIdentity s.row form) else none
  | .saveProfile form => if s.row.isActive then some (.saveProfile s.row form) else none
  | .setPassword form =>
    (lookup s form.secretHash now).map fun token => .setPassword token.tokenType form

/-- The checks of `MembershipSetView.post` on the loaded target. -/
def mayChangeLevel (s : Account) (target : User) (isSelf : Bool) (level : String) : Bool :=
  !isSelf && decide (Level.fromSlug level ≠ none) && decide (level ≠ target.membershipLevel) &&
    !(decide (level = Level.applicant.slug) &&
      (decide (s.stationAssignments ≠ 0) || decide (s.regionAssignments ≠ 0)))

/-- `UserSoftDeleteView.post`: the block that takes everything from the user. -/
def softDeleted (s : Account) (target : User) (sender : Pk) (now : Time) : Account where
  row := User.save
    { target with deletedAt := some now, deletedBy := some sender, isActive := false }
    (some [.deletedAt, .deletedBy, .isActive]) s.row
  tokens := s.tokens.map fun _ token =>
    if token.usedAt = none then { token with usedAt := some now } else token
  stationAssignments := 0
  regionAssignments := 0

/-- `ProfileIdentityForm.save` up to the save itself: a changed email is taken back to
the one in the database. -/
def IdentityForm.apply (form : IdentityForm) (user row : User) : User :=
  { user with
    email := if form.email ≠ user.email then row.email else form.email
    firstName := form.firstName
    lastName := form.lastName
    language := form.language }

/-- What the validation of `ProfileProfileForm` sets on the instance. -/
def ProfileForm.apply (form : ProfileForm) (user : User) : User :=
  { user with
    avatar := form.avatar
    bio := form.bio
    qthName := form.qthName
    qrzUrl := form.qrzUrl
    phone := form.phone
    isDirectoryVisible := form.isDirectoryVisible }

/-- `consume_token`: the token if it may still be used, under a lock on it and its user. -/
def consumeToken (s : Account) (secretHash : String) (tokenType : TokenType) (now : Time) :
    Option (Table String AccountToken) :=
  match s.tokens.get? secretHash with
  | none => none
  | some token =>
    if token.tokenType = tokenType ∧ s.row.isActive = true ∧ token.isActive now = true then
      some (s.tokens.modify secretHash fun token => { token with usedAt := some now })
    else none

/-- One database access of a request. -/
def act (s : Account) (now : Time) : Proc → Account × Option Proc
  | .setMembership target isSelf level =>
    if mayChangeLevel s target isSelf level then
      (s, some (.saveLevel { target with membershipLevel := level }))
    else (s, none)
  | .saveLevel target => ({ s with row := target.save (some [.membershipLevel]) s.row }, none)
  | .softDelete target isSelf sender =>
    if isSelf then (s, none) else (softDeleted s target sender now, none)
  | .saveIdentity user form =>
    if form.valid then (s, some (.saveForm (form.apply user s.row))) else (s, none)
  | .saveProfile user form =>
    if form.valid then (s, some (.saveForm (form.apply user))) else (s, none)
  | .saveForm user => ({ s with row := user.save none s.row }, none)
  | .setPassword tokenType form => (s, some (.consumeToken s.row tokenType form))
  | .consumeToken user tokenType form =>
    if form.valid then
      match consumeToken s form.secretHash tokenType now with
      | none => (s, none)
      | some tokens =>
        ({ s with
            row := User.save { user with password := form.password } none s.row
            tokens := tokens }, none)
    else (s, none)

/-- Requests about the user, interleaved at their database accesses. -/
def step (c : Pool Account Proc) (l : Sched (Time × Request) Time) : Option (Pool Account Proc) :=
  Pool.step (fun s r => start r.1 s r.2) (fun _ s p now => some (act s now p)) c l

/-! ## what a request holds and writes -/

/-- What the row says of what a user may do. -/
def standing (user : User) : String × Bool × Option Time :=
  (user.membershipLevel, user.isActive, user.deletedAt)

namespace Proc

/-- The instance that a profile request has loaded and will save as a whole. -/
def profile? : Proc → Option User
  | .saveIdentity user _ => some user
  | .saveProfile user _ => some user
  | .saveForm user => some user
  | _ => none

/-- The same for a request that sets a password. -/
def password? : Proc → Option User
  | .consumeToken user _ _ => some user
  | _ => none

/-- A request of the user's own. -/
def isSelfService : Proc → Bool
  | .saveIdentity .. | .saveProfile .. | .saveForm .. | .setPassword .. | .consumeToken .. => true
  | _ => false

end Proc

/-- What one access does to the row. -/
inductive Wrote (s s' : Account) : Proc → Prop where
  | nothing (p : Proc) (h : s'.row = s.row) : Wrote s s' p
  | level (target : User) (h : s'.row = target.save (some [.membershipLevel]) s.row) :
      Wrote s s' (.saveLevel target)
  | deleted (target : User) (sender : Pk) (h : s'.row.isActive = false)
      (hlevel : s'.row.membershipLevel = s.row.membershipLevel)
      (hflag : s'.row.isSuperuser = s.row.isSuperuser) :
      Wrote s s' (.softDelete target false sender)
  | form (user : User) (h : s'.row = user.derived) : Wrote s s' (.saveForm user)
  | password (user : User) (tokenType : TokenType) (form : PasswordForm) (hactive : s.row.isActive)
      (h : s'.row = User.derived { user with password := form.password }) :
      Wrote s s' (.consumeToken user tokenType form)

variable {s s' : Account} {p : Proc} {q : Option Proc} {now : Time}

theorem isActive_of_consumeToken {secretHash : String} {tokenType : TokenType}
    {tokens : Table String AccountToken}
    (h : consumeToken s secretHash tokenType now = some tokens) : s.row.isActive = true := by
  unfold consumeToken at h
  split at h
  · cases h
  · split at h
    · next hcond => exact hcond.2.1
    · cases h

theorem act_wrote (h : act s now p = (s', q)) : Wrote s s' p := by
  cases p with
  | setMembership target isSelf level =>
    refine .nothing _ ?_
    simp only [act] at h
    split at h <;> cases h <;> rfl
  | saveLevel target =>
    cases h
    exact .level target rfl
  | softDelete target isSelf sender =>
    cases isSelf with
    | true =>
      cases h
      exact .nothing _ rfl
    | false =>
      cases h
      exact .deleted target sender rfl rfl rfl
  | saveIdentity user form =>
    refine .nothing _ ?_
    simp only [act] at h
    split at h <;> cases h <;> rfl
  | saveProfile user form =>
    refine .nothing _ ?_
    simp only [act] at h
    split at h <;> cases h <;> rfl
  | saveForm user =>
    cases h
    exact .form user rfl
  | setPassword tokenType form =>
    cases h
    exact .nothing _ rfl
  | consumeToken user tokenType form =>
    simp only [act] at h
    split at h
    · cases htokens : consumeToken s form.secretHash tokenType now with
      | none =>
        rw [htokens] at h
        cases h
        exact .nothing _ rfl
      | some tokens =>
        rw [htokens] at h
        cases h
        exact .password user tokenType form (isActive_of_consumeToken htokens) rfl
    · cases h
      exact .nothing _ rfl

/-- A loaded instance keeps its standing until it is saved. -/
theorem act_holds (h : act s now p = (s', q)) {p' : Proc} (hp' : q = some p') : s'.row = s.row ∧
      (∀ user, p'.profile? = some user →
        ∃ held, p.profile? = some held ∧ standing user = standing held) ∧
      ∀ user, p'.password? = some user → user = s.row := by
  subst hp'
  cases p with
  | setMembership target isSelf level =>
    simp only [act] at h
    split at h <;> cases h
    simp [Proc.profile?, Proc.password?]
  | saveLevel target => cases h
  | softDelete target isSelf sender => cases isSelf <;> cases h
  | saveIdentity user form =>
    simp only [act] at h
    split at h <;> cases h
    simp [Proc.profile?, Proc.password?, IdentityForm.apply, standing]
  | saveProfile user form =>
    simp only [act] at h
    split at h <;> cases h
    simp [Proc.profile?, Proc.password?, ProfileForm.apply, standing]
  | saveForm user => cases h
  | setPassword tokenType form =>
    cases h
    simp [Proc.profile?, Proc.password?]
  | consumeToken user tokenType form =>
    simp only [act] at h
    split at h
    · cases htokens : consumeToken s form.secretHash tokenType now <;> rw [htokens] at h <;>
        cases h
    · cases h

/-! ## the invariant -/

/-- The flag of the row follows from its level. -/
def Derived (s : Account) : Prop :=
  s.row.isSuperuser = decide (s.row.membershipLevel = Level.admin.slug)

/-- An instance that will be saved as a whole has the standing of the row; a password
request may have been overtaken by a soft delete, which it finds out in time. -/
def Current (p : Proc) (s : Account) : Prop :=
  (∀ user, p.profile? = some user → standing user = standing s.row) ∧
    ∀ user, p.password? = some user → standing user = standing s.row ∨ s.row.isActive = false

/-- A level is saved only while no request of the user's own has loaded the row, the
account soft-deleted only while no profile request has. -/
def undisturbed (c : Pool Account Proc) : Sched (Time × Request) Time → Bool
  | .spawn .. => true
  | .advance i _ =>
    match c.procs.get? i with
    | some (.saveLevel _) => c.procs.entries.all fun e => e.2.profile? = none ∧ e.2.password? = none
    | some (.softDelete ..) => c.procs.entries.all fun e => e.2.profile? = none
    | _ => true

theorem standing_derived (user : User) : standing user.derived = standing user := rfl

theorem Wrote.derived (h : Wrote s s' p) (hs : Derived s) : Derived s' := by
  unfold Derived at hs ⊢
  cases h with
  | nothing _ h => rw [h, hs]
  | level target h =>
    rw [h]
    rfl
  | deleted target sender h hlevel hflag => rw [hlevel, hflag, hs]
  | form user h =>
    rw [h]
    rfl
  | password user tokenType form hactive h =>
    rw [h]
    rfl

/-- A request of the user's own leaves the standing as it is. -/
theorem Wrote.standing_eq (h : Wrote s s' p) (hp : Current p s) (hself : p.isSelfService = true) :
    standing s'.row = standing s.row := by
  cases h with
  | nothing _ h => rw [h]
  | level target h => simp [Proc.isSelfService] at hself
  | deleted target sender => simp [Proc.isSelfService] at hself
  | form user h =>
    rw [h, standing_derived]
    exact hp.1 user rfl
  | password user tokenType form hactive h =>
    rw [h, standing_derived]
    have hcurrent := (hp.2 user rfl).resolve_right (by simp [hactive])
    exact hcurrent

theorem Current.of_standing {r : Proc} (h : Current r s) (hs : standing s'.row = standing s.row) :
    Current r s' := by
  have hactive : s'.row.isActive = s.row.isActive := congrArg (fun t => t.2.1) hs
  refine ⟨fun user hu => (h.1 user hu).trans hs.symm, fun user hu => ?_⟩
  rw [hs, hactive]
  exact h.2 user hu

theorem current_start {r : Request} (h : start now s r = some p) : Current p s := by
  cases r <;> simp only [start] at h
  case setPassword form =>
    obtain ⟨token, -, rfl⟩ := Option.map_eq_some_iff.mp h
    exact ⟨by simp [Proc.profile?], by simp [Proc.password?]⟩
  all_goals
    split at h <;> cases h
    simp [Current, Proc.profile?, Proc.password?]

theorem holds_step {c c' : Pool Account Proc} {l : Sched (Time × Request) Time}
    (hc : Pool.Holds Derived (fun _ p s => Current p s) c) (hok : undisturbed c l = true)
    (h : step c l = some c') : Pool.Holds Derived (fun _ p s => Current p s) c' := by
  refine Pool.invariant_step (fun c l => undisturbed c l = true) ?_ ?_ ?_ hc hok h
  · intro c i r p _ _ hstart
    exact current_start hstart
  · intro c i p now s' q hc hok hp hact
    have hact := Option.some.inj hact
    refine ⟨(act_wrote hact).derived hc.1, fun p' hp' => ?_⟩
    obtain ⟨hrow, hprofile, hpassword⟩ := act_holds hact hp'
    have hcurrent := hc.2 i p hp
    refine ⟨fun user hu => ?_, fun user hu => ?_⟩
    · obtain ⟨held, hheld, hstanding⟩ := hprofile user hu
      rw [hstanding, hrow]
      exact hcurrent.1 held hheld
    · rw [hpassword user hu, hrow]
      exact .inl rfl
  · intro c i p now s' q j r hc hok hp hact hji hr
    have hmem := (c.procs.mem_entries_iff j r).mpr hr
    have hcurrent := hc.2 j r hr
    have hwrote := act_wrote (Option.some.inj hact)
    by_cases hself : p.isSelfService = true
    · exact hcurrent.of_standing (hwrote.standing_eq (hc.2 i p hp) hself)
    cases hwrote with
    | nothing _ h => exact hcurrent.of_standing (by rw [h])
    | level target h =>
      -- nobody else holds an instance of the user
      simp only [undisturbed, hp, List.all_eq_true, decide_eq_true_eq] at hok
      have hfree := hok _ hmem
      exact ⟨by simp [hfree.1], by simp [hfree.2]⟩
    | deleted target sender h =>
      -- only password requests may, and the account is inactive now
      simp only [undisturbed, hp, List.all_eq_true, decide_eq_true_eq] at hok
      exact ⟨by simp [hok _ hmem], fun _ _ => .inr h⟩
    | form user h => simp [Proc.isSelfService] at hself
    | password user tokenType form hactive h => simp [Proc.isSelfService] at hself

/-! ## privileges -/

/-- A write that raises no privilege: not the level, not the flags, and an account that
is deleted stays so. -/
structure Unraised (row row' : User) : Prop where
  level : row'.rank ≤ row.rank
  active : row'.isActive = true → row.isActive = true
  superuser : row'.isSuperuser = true → row.isSuperuser = true
  deleted : row.deletedAt ≠ none → row'.deletedAt ≠ none

theorem unraised_of_standing {row row' : User} (h : standing row' = standing row)
    (hflag : row'.isSuperuser = row.isSuperuser) : Unraised row row' := by
  simp only [standing, Prod.mk.injEq] at h
  obtain ⟨hlevel, hactive, hdeleted⟩ := h
  exact ⟨by simp [User.rank, hlevel], by simp [hactive], by simp [hflag], by simp [hdeleted]⟩

/-- **A privilege reduction is not undone**, provided that it overtakes no request of the
user's own: in every run in which a level is saved only while no such request has
loaded the row, and the account deleted only while no profile request has, no access of
the user's own requests raises a privilege. -/
theorem reduction_not_undone {c₀ c c' : Pool Account Proc} (hidle : c₀.Quiescent)
    (hderived : Derived c₀.shared)
    (hrun : Reachable step (fun c l => undisturbed c l = true) c₀ c) {i : Nat} {p : Proc}
    {now : Time} (hp : c.procs.get? i = some p) (hself : p.isSelfService = true)
    (hstep : step c (.advance i now) = some c') : Unraised c.shared.row c'.shared.row := by
  have hinit : Pool.Holds Derived (fun _ p s => Current p s) c₀ :=
    ⟨hderived, fun i p hi => by simp [hidle.get? i] at hi⟩
  have hc := hrun.invariant (P := Pool.Holds Derived fun _ p s => Current p s) hinit
    fun _ _ _ hs hok h => holds_step hs hok h
  cases Pool.stepped_of_step hstep with
  | advance _ _ p' q hp' hact =>
    have hpp := Option.some.inj (hp.symm.trans hp')
    subst hpp
    have hwrote := act_wrote (Option.some.inj hact)
    have hstanding := hwrote.standing_eq (hc.2 i p hp) hself
    have hlevel : c'.shared.row.membershipLevel = c.shared.row.membershipLevel :=
      congrArg Prod.fst hstanding
    refine unraised_of_standing hstanding ?_
    have hflag := hwrote.derived hc.1
    rw [hflag, hc.1, hlevel]

/-! ## an administrator who is demoted -/

/-- The account of an administrator, with no request in progress. -/
def account : Pool Account Proc where
  shared := {
    row := { username := "OE5AAA", membershipLevel := "admin", isStaff := true,
             isSuperuser := true }
    tokens := .empty
    stationAssignments := 0
    regionAssignments := 0 }
  procs := .empty

def newName : Request :=
  .saveIdentity { email := "", firstName := "A", lastName := "B", language := "de" }

/-- The demotion is committed before the user's request starts. -/
theorem reduction_not_undone_in_turn : ∃ c c' : Pool Account Proc,
    c.shared.row.membershipLevel = "member" ∧ step c (.advance 2 3) = some c' ∧
      c'.shared.row.firstName = "A" ∧ Unraised c.shared.row c'.shared.row := by
  obtain ⟨c, hrun, hlevel, hproc, hnext⟩ := exists_admitted step undisturbed account
    [.spawn 1 (0, .setMembership false "member"), .advance 1 0, .advance 1 1,
      .spawn 2 (2, newName), .advance 2 2]
    (P := fun c => c.shared.row.membershipLevel = "member" ∧
      (c.procs.get? 2).map Proc.isSelfService = some true ∧
      (step c (.advance 2 3)).map (fun c' => c'.shared.row.firstName) = some "A")
    (by decide +kernel)
  obtain ⟨p, hp, hself⟩ := Option.map_eq_some_iff.mp hproc
  obtain ⟨c', hstep, hname⟩ := Option.map_eq_some_iff.mp hnext
  have hidle : account.Quiescent := rfl
  have hderived : Derived account.shared := by simp [Derived, account, Level.slug]
  exact ⟨c, c', hlevel, hstep, hname, reduction_not_undone hidle hderived hrun hp hself hstep⟩

/-- The user's request loads the row, then a demotion is committed. -/
def demoted : List (Sched (Time × Request) Time) :=
  [.spawn 1 (0, newName), .spawn 2 (0, .setMembership false "member"), .advance 2 1, .advance 2 1]

/-- The user's request loads the row, then the account is deleted. -/
def deleted : List (Sched (Time × Request) Time) :=
  [.spawn 1 (0, newName), .spawn 2 (0, .softDelete false 9), .advance 2 1]

def privileges (c : Pool Account Proc) : String × Bool × Bool × Option Time :=
  (c.shared.row.membershipLevel, c.shared.row.isSuperuser, c.shared.row.isActive,
    c.shared.row.deletedAt)

/-- A request that loaded the row before a demotion, or before a soft delete, was
committed writes the old standing back. -/
theorem reduction_undone_by_save :
    (run step account demoted).map privileges = some ("member", false, true, none) ∧
      (run step account (demoted ++ [.advance 1 2, .advance 1 2])).map privileges =
        some ("admin", true, true, none) ∧
      (run step account deleted).map privileges = some ("admin", true, false, some 1) ∧
      (run step account (deleted ++ [.advance 1 2, .advance 1 2])).map privileges =
        some ("admin", true, true, none) := by
  refine ⟨?_, ?_, ?_, ?_⟩ <;> decide +kernel

end StationManager.Accounts.SelfService
