import StationManager.Accounts.Models
import StationManager.Lib.Transition

/-!
# StationManager.Sso.Revocation

Single sign-on: which applications a user may enter, and how that ends.  Access lives
in authorization codes, access tokens and refresh tokens.  Whether a user may enter is
asked when a code is stored (`save_authorization_code`); the deactivation of a user and
the revocation of a grant expire the tokens from the signals of the save.

The OAuth library is taken to exchange an unexpired stored code once and to rotate an
unrevoked refresh token, which reaches this code through `save_bearer_token` only.
-/

namespace StationManager.Sso

open Accounts (User Level)

/-! ## tables -/

/-- `ApplicationPolicy.AccessPolicy` -/
inductive AccessPolicy where
  | grantRequired
  | openToAll
  | openToMembers
  | openToInternal
  | openToAdmins
deriving DecidableEq, Repr

structure AppGrant where
  user : Pk
  application : Pk
  revokedAt : Option Time := none
deriving DecidableEq, Repr

/-- An authorization code. -/
structure Grant where
  user : Pk
  application : Pk
  expires : Time
deriving DecidableEq, Repr

structure AccessToken where
  user : Pk
  application : Pk
  expires : Time
deriving DecidableEq, Repr

structure RefreshToken where
  user : Pk
  application : Pk
  revoked : Option Time := none
deriving DecidableEq, Repr

/-- `TokenSession.RevokeReason`, as far as the code below sets it. -/
inductive RevokeReason where
  | userDeactivated
  | grantRevoked
  | rotated
deriving DecidableEq, Repr

/-- The record of one issued refresh token, under that token's key. -/
structure TokenSession where
  user : Pk
  application : Pk
  parent : Option Pk := none
  revokedAt : Option Time := none
  revokedBy : Option Pk := none
  revokeReason : Option RevokeReason := none
deriving DecidableEq, Repr

structure Db where
  now : Time
  users : Table Pk User
  /-- an application without a row requires a grant -/
  policies : Table Pk AccessPolicy
  appGrants : Table Pk AppGrant
  codes : Table Pk Grant
  accessTokens : Table Pk AccessToken
  refreshTokens : Table Pk RefreshToken
  sessions : Table Pk TokenSession

namespace Db

def policy (s : Db) (application : Pk) : AccessPolicy :=
  (s.policies.get? application).getD .grantRequired

/-! ## the gate -/

/-- `level_of` -/
def levelOf (user : User) : Option Level :=
  if user.isActive = true ∧ user.deletedAt = none then Level.fromSlug user.membershipLevel else none

/-- The user's level is at least the given one. -/
def atLeast (user : User) (level : Level) : Bool :=
  level.value ≤ ((levelOf user).map Level.value).getD 0

/-- The user has an active grant for the application. -/
def hasGrant (s : Db) (user application : Pk) : Bool :=
  s.appGrants.entries.any fun e =>
    e.2.user = user ∧ e.2.application = application ∧ e.2.revokedAt = none

/-- `user_can_access` -/
def userCanAccess (s : Db) (user application : Pk) : Bool :=
  match s.users.get? user with
  | none => false
  | some row =>
    row.isActive &&
      match s.policy application with
      | .openToAll => true
      | .openToMembers => atLeast row .member
      | .openToInternal => atLeast row .staff
      | .openToAdmins => decide (levelOf row = some .admin)
      | .grantRequired => s.hasGrant user application

/-! ## tokens -/

/-- `save_authorization_code` -/
def saveAuthorizationCode (s : Db) (code user application : Pk) (expires : Time) : Option Db :=
  if s.userCanAccess user application = true ∧ s.codes.get? code = none then
    some { s with codes := s.codes.insert code ⟨user, application, expires⟩ }
  else none

/-- `_record_token_session`; the parent of a rotated token is closed. -/
def recordTokenSession (s : Db) (refresh user application : Pk) (old : Option Pk) : Db :=
  let parent := old.filter fun k => (s.sessions.get? k).isSome
  let sessions := match parent with
    | none => s.sessions
    | some k => s.sessions.modify k fun session =>
      { session with revokedAt := some s.now, revokeReason := some .rotated }
  { s with sessions := sessions.insert refresh { user, application, parent } }

/-- The library stores a pair of tokens under fresh keys, then `save_bearer_token` records
the session; that may fail without consequence. -/
def saveBearerToken (s : Db) (access refresh user application : Pk) (expires : Time)
    (old : Option Pk) (recorded : Bool) : Option Db :=
  if s.accessTokens.get? access = none ∧ s.refreshTokens.get? refresh = none then
    let s := { s with
      accessTokens := s.accessTokens.insert access ⟨user, application, expires⟩
      refreshTokens := s.refreshTokens.insert refresh { user, application } }
    some (if recorded then s.recordTokenSession refresh user application old else s)
  else none

/-- The library exchanges an unexpired code. -/
def exchange (s : Db) (code access refresh : Pk) (expires : Time) (recorded : Bool) : Option Db :=
  match s.codes.get? code with
  | none => none
  | some grant =>
    if s.now < grant.expires then
      saveBearerToken { s with codes := s.codes.erase code } access refresh grant.user
        grant.application expires none recorded
    else none

/-- The library rotates an unrevoked refresh token. -/
def rotate (s : Db) (old access refresh : Pk) (expires : Time) (recorded : Bool) : Option Db :=
  match s.refreshTokens.get? old with
  | none => none
  | some token =>
    if token.revoked = none then
      let revoked := s.refreshTokens.modify old fun token => { token with revoked := some s.now }
      saveBearerToken { s with refreshTokens := revoked } access refresh token.user
        token.application expires (some old) recorded
    else none

/-! ## cascades -/

/-- `_mark_sessions_revoked` -/
def markSessionsRevoked (s : Db) (p : Pk → Pk → Bool) (reason : RevokeReason) : Db :=
  { s with
    sessions := s.sessions.map fun _ session =>
      if p session.user session.application ∧ session.revokedAt = none then
        { session with revokedAt := some s.now, revokeReason := some reason }
      else session }

/-- The block of a cascade: expire the access tokens, revoke the refresh tokens and mark
the sessions of the users and applications that `p` selects. -/
def revokeTokens (s : Db) (p : Pk → Pk → Bool) (reason : RevokeReason) : Db :=
  let past := s.now - 1000000
  markSessionsRevoked { s with
    accessTokens := s.accessTokens.map fun _ token =>
      if p token.user token.application ∧ s.now < token.expires then { token with expires := past }
      else token
    refreshTokens := s.refreshTokens.map fun _ token =>
      if p token.user token.application ∧ token.revoked = none then
        { token with revoked := some s.now }
      else token } p reason

/-- `_revoke_tokens_on_user_deactivation` -/
def revokeTokensOnUserDeactivation (s : Db) (user : Pk) : Db :=
  s.revokeTokens (fun u _ => u = user) .userDeactivated

/-- `_revoke_tokens_for_user_and_app` -/
def revokeTokensForUserAndApp (s : Db) (user application : Pk) : Db :=
  s.revokeTokens (fun u a => u = user ∧ a = application) .grantRevoked

/-- Save a user: the signals compare the row before with the instance. -/
def saveUser (s : Db) (user : Pk) (f : User → User) : Db :=
  match s.users.get? user with
  | none => s
  | some row =>
    let s := { s with users := s.users.modify user f }
    if row.isActive = true ∧ (f row).isActive = false then s.revokeTokensOnUserDeactivation user
    else s

/-- Save a grant whose row has the given old `revoked_at`. -/
def saveGrant (s : Db) (k : Pk) (grant : AppGrant) (revokedAt : Option Time) : Db :=
  let s := { s with appGrants := s.appGrants.modify k fun grant => { grant with revokedAt } }
  if grant.revokedAt = none ∧ revokedAt ≠ none then
    s.revokeTokensForUserAndApp grant.user grant.application
  else s

/-! ## requests -/

/-- An administrator saves the user's `is_active`. -/
def setActive (s : Db) (user : Pk) (active : Bool) : Db :=
  s.saveUser user fun row => { row with isActive := active }

/-- `_revoke_sso`: statements that send no signals. -/
def revokeSso (s : Db) (user sender : Pk) : Db :=
  { s with
    appGrants := s.appGrants.map fun _ grant =>
      if grant.user = user ∧ grant.revokedAt = none then { grant with revokedAt := some s.now }
      else grant
    sessions := s.sessions.map fun _ session =>
      if session.user = user ∧ session.revokedAt = none then
        { session with
          revokedAt := some s.now
          revokedBy := some sender
          revokeReason := some .userDeactivated }
      else session }

/-- `UserSoftDeleteView.post` -/
def softDelete (s : Db) (user sender : Pk) : Option Db :=
  match s.users.get? user with
  | none => none
  | some row =>
    if row.deletedAt = none ∧ user ≠ sender then
      some ((s.revokeSso user sender).saveUser user fun row =>
        { row with deletedAt := some s.now, deletedBy := some sender, isActive := false })
    else none

/-- `GrantToggleView.post`: revoke the active grant, or give a new one under a fresh key. -/
def toggleGrant (s : Db) (user application fresh : Pk) : Option Db :=
  match s.appGrants.entries.find? fun e =>
      e.2.user = user ∧ e.2.application = application ∧ e.2.revokedAt = none with
  | some (k, grant) => some (s.saveGrant k grant (some s.now))
  | none =>
    if s.appGrants.get? fresh = none then
      some { s with appGrants := s.appGrants.insert fresh { user, application } }
    else none

end Db

/-- What can happen; fresh keys and expiry times are the environment's. -/
inductive Op where
  | tick (d : Time)
  | issueCode (code user application : Pk) (expires : Time)
  | exchange (code access refresh : Pk) (expires : Time) (recorded : Bool)
  | rotate (old access refresh : Pk) (expires : Time) (recorded : Bool)
  | setActive (user : Pk) (active : Bool)
  | softDelete (user sender : Pk)
  | toggleGrant (user application fresh : Pk)
deriving DecidableEq, Repr

def step (s : Db) : Op → Option Db
  | .tick d => some { s with now := s.now + d }
  | .issueCode code user application expires =>
    s.saveAuthorizationCode code user application expires
  | .exchange code access refresh expires recorded =>
    s.exchange code access refresh expires recorded
  | .rotate old access refresh expires recorded => s.rotate old access refresh expires recorded
  | .setActive user active => some (s.setActive user active)
  | .softDelete user sender => s.softDelete user sender
  | .toggleGrant user application fresh => s.toggleGrant user application fresh

/-! ## live access -/

namespace Db

variable {s s' : Db} {u a : Pk}

/-- An unexpired code for the pair is stored. -/
def HasCode (s : Db) (u a : Pk) : Prop :=
  s.codes.Any fun code => code.user = u ∧ code.application = a ∧ s.now < code.expires

def HasAccessToken (s : Db) (u a : Pk) : Prop :=
  s.accessTokens.Any fun token => token.user = u ∧ token.application = a ∧ s.now < token.expires

def HasRefreshToken (s : Db) (u a : Pk) : Prop :=
  s.refreshTokens.Any fun token => token.user = u ∧ token.application = a ∧ token.revoked = none

/-- Something stored lets the user into the application, now or after an exchange. -/
def Live (s : Db) (u a : Pk) : Prop := s.HasCode u a ∨ s.HasAccessToken u a ∨ s.HasRefreshToken u a

/-- The user has been deactivated. -/
def Inactive (s : Db) (u : Pk) : Prop := ∃ row, s.users.get? u = some row ∧ row.isActive = false

/-- The user's grant for an application that requires one was revoked, and no new one given. -/
def Revoked (s : Db) (u a : Pk) : Prop :=
  s.policy a = .grantRequired ∧
    (s.appGrants.Any fun grant => grant.user = u ∧ grant.application = a ∧ grant.revokedAt ≠ none) ∧
    s.hasGrant u a = false

/-- The user may not enter the application. -/
def Shut (s : Db) (u a : Pk) : Prop := s.Inactive u ∨ s.Revoked u a

/-- The users and applications that are shut have nothing live. -/
def Complete (s : Db) : Prop := ∀ u a, s.Shut u a → ¬ s.Live u a

theorem hasGrant_iff : s.hasGrant u a = true ↔ s.appGrants.Any fun grant =>
    grant.user = u ∧ grant.application = a ∧ grant.revokedAt = none := by
  simp [hasGrant, Table.Any, Table.mem_entries_iff]

/-- Who may not enter is read off the users, the policies and the grants. -/
theorem shut_congr (hu : s'.users = s.users) (hp : s'.policies = s.policies)
    (hg : s'.appGrants = s.appGrants) : s'.Shut u a ↔ s.Shut u a := by
  simp only [Shut, Inactive, Revoked, policy, hasGrant, hu, hp, hg]

theorem not_shut_of_userCanAccess (h : s.userCanAccess u a = true) : ¬ s.Shut u a := by
  unfold userCanAccess at h
  cases hrow : s.users.get? u with
  | none => simp [hrow] at h
  | some row =>
    simp only [hrow, Bool.and_eq_true] at h
    rintro (⟨row', hrow', hinactive⟩ | ⟨hpolicy, -, hnone⟩)
    · rw [hrow, Option.some.injEq] at hrow'
      simp [hrow', hinactive] at h
    · simp [hpolicy, hnone] at h

/-! ### what the library does -/

variable {recorded : Bool} {access a₀ refresh u₀ : Pk} {p : Pk → Pk → Bool} {expires : Time}
  {f : User → User}

/-- Tokens are stored for one pair, and nothing else comes to life. -/
theorem live_saveBearerToken {old : Option Pk}
    (h : s.saveBearerToken access refresh u₀ a₀ expires old recorded = some s') :
    (s'.Shut u a ↔ s.Shut u a) ∧ (s'.Live u a → s.Live u a ∨ u = u₀ ∧ a = a₀) := by
  unfold saveBearerToken at h
  split at h
  · next hfresh =>
    have hs' : s'.users = s.users ∧ s'.policies = s.policies ∧ s'.appGrants = s.appGrants ∧
        s'.now = s.now ∧ s'.codes = s.codes ∧
        s'.accessTokens = s.accessTokens.insert access ⟨u₀, a₀, expires⟩ ∧
        s'.refreshTokens = s.refreshTokens.insert refresh { user := u₀, application := a₀ } := by
      cases recorded <;> cases h <;> simp [recordTokenSession]
    obtain ⟨hu, hp, hg, hnow, hcodes, haccess, hrefresh⟩ := hs'
    refine ⟨shut_congr hu hp hg, ?_⟩
    rintro (hcode | htoken | htoken)
    · exact .inl (.inl (by simpa only [HasCode, hcodes, hnow] using hcode))
    · rw [HasAccessToken, haccess, hnow] at htoken
      rcases (Table.any_insert hfresh.1).mp htoken with hold | ⟨rfl, rfl, -⟩
      · exact .inl (.inr (.inl hold))
      · exact .inr ⟨rfl, rfl⟩
    · rw [HasRefreshToken, hrefresh] at htoken
      rcases (Table.any_insert hfresh.2).mp htoken with hold | ⟨rfl, rfl, -⟩
      · exact .inl (.inr (.inr hold))
      · exact .inr ⟨rfl, rfl⟩
  · cases h

theorem Complete.of_live (hs : s.Complete)
    (h : ∀ u a, s'.Shut u a → s'.Live u a → s.Shut u a ∧ s.Live u a) : s'.Complete :=
  fun u a hshut hlive => hs u a (h u a hshut hlive).1 (h u a hshut hlive).2

/-- A pair of tokens for somebody who already had something live. -/
theorem Complete.saveBearerToken {t : Db} {old : Option Pk} (hs : s.Complete)
    (h : t.saveBearerToken access refresh u₀ a₀ expires old recorded = some s')
    (hlive₀ : s.Live u₀ a₀) (hshut : ∀ u a, t.Shut u a ↔ s.Shut u a)
    (hlive : ∀ u a, t.Live u a → s.Live u a) : s'.Complete := by
  refine hs.of_live fun u a hs' hl' => ?_
  obtain ⟨hsame, hnew⟩ := live_saveBearerToken (u := u) (a := a) h
  refine ⟨(hshut u a).mp (hsame.mp hs'), ?_⟩
  rcases hnew hl' with hold | ⟨rfl, rfl⟩
  · exact hlive u a hold
  · exact hlive₀

theorem complete_exchange {code : Pk} (hs : s.Complete)
    (h : s.exchange code access refresh expires recorded = some s') : s'.Complete := by
  unfold exchange at h
  cases hcode : s.codes.get? code with
  | none => simp [hcode] at h
  | some grant =>
    simp only [hcode] at h
    split at h
    · next hvalid =>
      refine hs.saveBearerToken h (.inl ⟨code, grant, hcode, rfl, rfl, hvalid⟩)
        (fun u a => shut_congr rfl rfl rfl) fun u a hlive => ?_
      exact hlive.imp_left Table.any_of_erase
    · cases h

theorem complete_rotate {old : Pk} (hs : s.Complete)
    (h : s.rotate old access refresh expires recorded = some s') : s'.Complete := by
  unfold rotate at h
  cases htoken : s.refreshTokens.get? old with
  | none => simp [htoken] at h
  | some token =>
    simp only [htoken] at h
    split at h
    · next hvalid =>
      refine hs.saveBearerToken h (.inr (.inr ⟨old, token, htoken, rfl, rfl, hvalid⟩))
        (fun u a => shut_congr rfl rfl rfl) fun u a hlive => ?_
      refine hlive.imp_right fun hlive => hlive.imp_right ?_
      rintro ⟨k, b, hget, hb⟩
      rw [Table.get?_modify] at hget
      by_cases hk : k = old
      · rw [if_pos hk, Option.map_eq_some_iff] at hget
        obtain ⟨_, _, rfl⟩ := hget
        simp at hb
      · rw [if_neg hk] at hget
        exact ⟨k, b, hget, hb⟩
    · cases h

theorem complete_issueCode {code user application : Pk} (hs : s.Complete)
    (h : s.saveAuthorizationCode code user application expires = some s') : s'.Complete := by
  unfold saveAuthorizationCode at h
  split at h
  · next hgate =>
    cases h
    intro u a hshut hlive
    have hshut : s.Shut u a := (shut_congr rfl rfl rfl).mp hshut
    rcases hlive with hcode | htoken
    · rcases (Table.any_insert hgate.2).mp hcode with hold | ⟨rfl, rfl, -⟩
      · exact hs u a hshut (.inl hold)
      · exact not_shut_of_userCanAccess hgate.1 hshut
    · exact hs u a hshut (.inr htoken)
  · cases h

theorem complete_tick (d : Time) (hs : s.Complete) : Complete { s with now := s.now + d } := by
  refine hs.of_live fun u a hshut hlive => ⟨(shut_congr rfl rfl rfl).mp hshut, ?_⟩
  have hlt : ∀ t : Nat, s.now + d < t → s.now < t := fun t ht =>
    Nat.lt_of_le_of_lt (Nat.le_add_right _ _) ht
  exact hlive.imp (fun hc => hc.imp fun c hc => ⟨hc.1, hc.2.1, hlt _ hc.2.2⟩) fun hlive =>
    hlive.imp_left fun ht => ht.imp fun t ht => ⟨ht.1, ht.2.1, hlt _ ht.2.2⟩

/-! ### cascades -/

/-- A cascade kills the tokens that it selects and touches neither codes nor gates. -/
theorem live_revokeTokens {reason : RevokeReason} (h : (s.revokeTokens p reason).Live u a) :
    s.HasCode u a ∨ p u a = false ∧ s.Live u a := by
  rcases h with hcode | htoken | htoken
  · exact .inl hcode
  · obtain ⟨k, token, hget, htoken⟩ := htoken
    simp only [revokeTokens, markSessionsRevoked, Table.get?_map, Option.map_eq_some_iff] at hget
    obtain ⟨old, hold, rfl⟩ := hget
    simp only [revokeTokens, markSessionsRevoked] at htoken
    by_cases hsel : p old.user old.application = true ∧ s.now < old.expires
    · simp only [hsel, and_self, if_true] at htoken
      exact absurd htoken.2.2 (Nat.not_lt.mpr (Nat.sub_le _ _))
    · rw [if_neg hsel] at htoken
      obtain ⟨rfl, rfl, hvalid⟩ := htoken
      have hnot : p old.user old.application = false := by simpa [hvalid] using hsel
      exact .inr ⟨hnot, .inr (.inl ⟨k, old, hold, rfl, rfl, hvalid⟩)⟩
  · obtain ⟨k, token, hget, htoken⟩ := htoken
    simp only [revokeTokens, markSessionsRevoked, Table.get?_map, Option.map_eq_some_iff] at hget
    obtain ⟨old, hold, rfl⟩ := hget
    by_cases hsel : p old.user old.application = true ∧ old.revoked = none
    · simp [hsel] at htoken
    · rw [if_neg hsel] at htoken
      obtain ⟨rfl, rfl, hvalid⟩ := htoken
      have hnot : p old.user old.application = false := by simpa [hvalid] using hsel
      exact .inr ⟨hnot, .inr (.inr ⟨k, old, hold, rfl, rfl, hvalid⟩)⟩

theorem shut_revokeTokens {reason : RevokeReason} :
    (s.revokeTokens p reason).Shut u a ↔ s.Shut u a := shut_congr rfl rfl rfl

/-- No unexpired code is stored for the pairs that `p` selects. -/
def codeless (s : Db) (p : Pk → Pk → Bool) : Bool :=
  s.codes.entries.all fun e => !p e.2.user e.2.application || decide (e.2.expires ≤ s.now)

theorem not_hasCode (h : s.codeless p = true) (hp : p u a = true) : ¬ s.HasCode u a := by
  rintro ⟨k, code, hget, rfl, rfl, hvalid⟩
  have hall := List.all_eq_true.mp h (k, code) ((s.codes.mem_entries_iff k code).mpr hget)
  simp only [hp, Bool.not_true, Bool.false_or, decide_eq_true_eq] at hall
  exact absurd hvalid (Nat.not_lt.mpr hall)

/-- Saving one user leaves the others where they were. -/
theorem inactive_modify (hne : u ≠ u₀) :
    Inactive { s with users := s.users.modify u₀ f } u ↔ s.Inactive u := by
  simp only [Inactive, Table.get?_modify_ne _ _ hne]

/-- What a save of user `u₀` leaves live: for `u₀` only codes if it deactivates. -/
theorem live_saveUser (h : (s.saveUser u₀ f).Live u a) :
    s.Live u a ∧ (∀ row, s.users.get? u₀ = some row → row.isActive = true →
      (f row).isActive = false → u = u₀ → s.HasCode u a) := by
  unfold saveUser at h
  cases hrow : s.users.get? u₀ with
  | none =>
    simp only [hrow] at h
    exact ⟨h, by simp⟩
  | some row =>
    simp only [hrow] at h
    split at h
    · rcases live_revokeTokens h with hcode | ⟨hother, hlive⟩
      · exact ⟨.inl hcode, fun _ _ _ _ _ => hcode⟩
      · exact ⟨hlive, fun _ _ _ _ hu => by simp [hu] at hother⟩
    · next hedge =>
      refine ⟨h, fun row' hrow' hon hoff => ?_⟩
      rw [Option.some.injEq] at hrow'
      exact absurd ⟨hrow' ▸ hon, hrow' ▸ hoff⟩ hedge

theorem shut_saveUser (h : (s.saveUser u₀ f).Shut u a) :
    s.Shut u a ∨ u = u₀ ∧ ∃ row, s.users.get? u₀ = some row ∧ (f row).isActive = false := by
  unfold saveUser at h
  cases hrow : s.users.get? u₀ with
  | none =>
    simp only [hrow] at h
    exact .inl h
  | some row =>
    have hshut : Shut { s with users := s.users.modify u₀ f } u a := by
      simp only [hrow] at h
      split at h
      · exact shut_revokeTokens.mp h
      · exact h
    by_cases hu : u = u₀
    · subst hu
      rcases hshut with ⟨row', hrow', hoff⟩ | hrevoked
      · simp only [Table.get?_modify_self, hrow, Option.map_some, Option.some.injEq] at hrow'
        exact .inr ⟨rfl, row, rfl, hrow' ▸ hoff⟩
      · exact .inl (.inr hrevoked)
    · exact .inl (hshut.imp_left (inactive_modify hu).mp)

/-- A save that may deactivate a user without codes. -/
theorem complete_saveUser (hs : s.Complete)
    (hcodes : ∀ row, s.users.get? u₀ = some row → (f row).isActive = false →
      ∀ a, ¬ s.HasCode u₀ a) : (s.saveUser u₀ f).Complete := by
  intro u a hshut hlive
  obtain ⟨hold, hedge⟩ := live_saveUser hlive
  rcases shut_saveUser hshut with hshut | ⟨rfl, row, hrow, hoff⟩
  · exact hs u a hshut hold
  · by_cases hon : row.isActive = true
    · exact hcodes row hrow hoff a (hedge row hrow hon hoff rfl)
    · exact hs u a (.inl ⟨row, hrow, by simpa using hon⟩) hold

/-! ### grants -/

/-- Another user's or another application's grants do not matter. -/
theorem revoked_of_grants {t : Table Pk AppGrant} (hold : ∀ grant : Option Time → Prop,
      (t.Any fun g => g.user = u ∧ g.application = a ∧ grant g.revokedAt) ↔
        s.appGrants.Any fun g => g.user = u ∧ g.application = a ∧ grant g.revokedAt)
    (h : Revoked { s with appGrants := t } u a) : s.Revoked u a := by
  obtain ⟨hpolicy, hrevoked, hnone⟩ := h
  refine ⟨hpolicy, (hold (· ≠ none)).mp hrevoked, ?_⟩
  rw [Bool.eq_false_iff, Ne, hasGrant_iff] at hnone ⊢
  exact fun hgrant => hnone ((hold (· = none)).mpr hgrant)

theorem complete_softDelete {sender : Pk} (hs : s.Complete) (hcodes : ∀ a, ¬ s.HasCode u₀ a)
    (h : s.softDelete u₀ sender = some s') : s'.Complete := by
  unfold softDelete at h
  cases hrow : s.users.get? u₀ with
  | none => simp [hrow] at h
  | some row =>
    simp only [hrow] at h
    split at h
    · cases h
      intro u a hshut hlive
      obtain ⟨hold, hedge⟩ := live_saveUser hlive
      by_cases hu : u = u₀
      · subst hu
        by_cases hon : row.isActive = true
        · exact hcodes a (hedge row hrow hon rfl rfl)
        · exact hs u a (.inl ⟨row, hrow, by simpa using hon⟩) hold
      · rcases shut_saveUser hshut with hshut | ⟨rfl, -⟩
        · refine hs u a (hshut.imp_right (revoked_of_grants fun state => ?_)) hold
          refine Table.any_map fun k grant _ => ?_
          by_cases hg : grant.user = u₀ ∧ grant.revokedAt = none
          · have hne : u₀ ≠ u := fun h => hu h.symm
            simp [hg, hne]
          · rw [if_neg hg]
        · exact absurd rfl hu
    · cases h

theorem complete_toggleGrant {fresh : Pk} (hs : s.Complete)
    (hcodes : s.policy a₀ = .grantRequired → s.hasGrant u₀ a₀ = true → ¬ s.HasCode u₀ a₀)
    (h : s.toggleGrant u₀ a₀ fresh = some s') : s'.Complete := by
  unfold toggleGrant at h
  cases hfind : s.appGrants.entries.find? fun e =>
      e.2.user = u₀ ∧ e.2.application = a₀ ∧ e.2.revokedAt = none with
  | some e =>
    obtain ⟨k, grant⟩ := e
    simp only [hfind] at h
    cases h
    have hget := (s.appGrants.mem_entries_iff k grant).mp (List.mem_of_find?_eq_some hfind)
    have hgrant := List.find?_some hfind
    simp only [decide_eq_true_eq] at hgrant
    obtain ⟨rfl, rfl, hactive⟩ := hgrant
    have hhas : s.hasGrant grant.user grant.application = true :=
      hasGrant_iff.mpr ⟨k, grant, hget, rfl, rfl, hactive⟩
    intro u a hshut hlive
    simp only [saveGrant, hactive, ne_eq, reduceCtorEq, not_false_eq_true, and_self,
      if_true] at hshut hlive
    have hshut := shut_revokeTokens.mp hshut
    have hkept : s.HasCode u a ∨
        decide (u = grant.user ∧ a = grant.application) = false ∧ s.Live u a :=
      live_revokeTokens hlive
    have hold : s.Live u a := hkept.elim .inl And.right
    rcases hshut with hinactive | hrevoked
    · exact hs u a (.inl hinactive) hold
    · by_cases hpair : u = grant.user ∧ a = grant.application
      · obtain ⟨rfl, rfl⟩ := hpair
        rcases hkept with hcode | ⟨hother, -⟩
        · exact hcodes hrevoked.1 hhas hcode
        · simp at hother
      · refine hs u a (.inr (revoked_of_grants (fun state => ?_) hrevoked)) hold
        refine Table.any_modify fun g hg => ?_
        rw [hget, Option.some.injEq] at hg
        have hne : ¬ (g.user = u ∧ g.application = a) := by
          rintro ⟨rfl, rfl⟩
          exact hpair ⟨by rw [hg], by rw [hg]⟩
        simp only [← and_assoc, hne, false_and]
  | none =>
    simp only [hfind] at h
    split at h
    · next hfree =>
      cases h
      intro u a hshut hlive
      rcases hshut with hinactive | hrevoked
      · exact hs u a (.inl hinactive) hlive
      · have hpair : ¬ (u₀ = u ∧ a₀ = a) := by
          rintro ⟨rfl, rfl⟩
          have hgiven : hasGrant { s with
              appGrants := s.appGrants.insert fresh { user := u₀, application := a₀ } }
              u₀ a₀ = true :=
            hasGrant_iff.mpr ((Table.any_insert hfree).mpr (.inr ⟨rfl, rfl, rfl⟩))
          simp [hrevoked.2.2] at hgiven
        refine hs u a (.inr (revoked_of_grants (fun state => ?_) hrevoked)) hlive
        rw [Table.any_insert hfree]
        simp only [← and_assoc, hpair, false_and, or_false]
    · cases h

end Db

/-! ## every run -/

/-- Access is ended only while no unexpired code for it is stored. -/
def settled (s : Db) : Op → Bool
  | .setActive user active => active || s.codeless fun u _ => u = user
  | .softDelete user _ => s.codeless fun u _ => u = user
  | .toggleGrant user application _ =>
    decide (s.policy application ≠ .grantRequired) || !s.hasGrant user application ||
      s.codeless fun u a => u = user ∧ a = application
  | _ => true

theorem complete_step {s s' : Db} {op : Op} (hs : s.Complete) (hok : settled s op = true)
    (h : step s op = some s') : s'.Complete := by
  cases op with
  | tick d =>
    cases h
    exact Db.complete_tick d hs
  | issueCode code user application expires => exact Db.complete_issueCode hs h
  | exchange code access refresh expires recorded => exact Db.complete_exchange hs h
  | rotate old access refresh expires recorded => exact Db.complete_rotate hs h
  | setActive user active =>
    cases h
    refine Db.complete_saveUser hs fun row _ hoff a => ?_
    simp only [settled, Bool.or_eq_true] at hok
    exact Db.not_hasCode (hok.resolve_left (by simpa using hoff)) (by simp)
  | softDelete user sender =>
    have hok : s.codeless (fun u _ => decide (u = user)) = true := hok
    exact Db.complete_softDelete hs (fun a => Db.not_hasCode hok (by simp)) h
  | toggleGrant user application fresh =>
    refine Db.complete_toggleGrant hs (fun hpolicy hgrant => ?_) h
    simp only [settled, hpolicy, hgrant, ne_eq, not_true_eq_false, decide_false, Bool.not_true,
      Bool.false_or] at hok
    exact Db.not_hasCode hok (by simp)

/-- **Revocation is complete**, provided that it leaves no code behind: in every run from a
state without codes and tokens in which users are deactivated and grants revoked only
while no unexpired code for them is stored, an inactive user has no unexpired access
token and no unrevoked refresh token, nor has a user for an application whose required
grant was revoked. -/
theorem revocation_complete {s₀ s : Db} (hcodes : s₀.codes = .empty)
    (haccess : s₀.accessTokens = .empty) (hrefresh : s₀.refreshTokens = .empty)
    (hrun : Reachable step (fun s op => settled s op = true) s₀ s) :
    (∀ u, s.Inactive u → ∀ a, ¬ s.HasAccessToken u a ∧ ¬ s.HasRefreshToken u a) ∧
      ∀ u a, s.Revoked u a → ¬ s.HasAccessToken u a ∧ ¬ s.HasRefreshToken u a := by
  have hinit : s₀.Complete := by
    rintro u a - (⟨k, c, hk, -⟩ | ⟨k, c, hk, -⟩ | ⟨k, c, hk, -⟩)
    · simp [hcodes, Table.empty, Table.get?] at hk
    · simp [haccess, Table.empty, Table.get?] at hk
    · simp [hrefresh, Table.empty, Table.get?] at hk
  have hs : s.Complete := hrun.invariant (P := Db.Complete) hinit
    fun _ _ _ hs hok h => complete_step hs hok h
  refine ⟨fun u hu a => ?_, fun u a hu => ?_⟩
  · exact not_or.mp fun htoken => hs u a (.inl hu) (.inr htoken)
  · exact not_or.mp fun htoken => hs u a (.inr hu) (.inr htoken)

/-! ## a code that outlives its user -/

/-- User 1 is active and has a grant for application 7, which requires one. -/
def member : Db where
  now := 0
  users := Table.empty.insert 1 { username := "OE5AAA", membershipLevel := "member" }
  policies := .empty
  appGrants := Table.empty.insert 1 { user := 1, application := 7 }
  codes := .empty
  accessTokens := .empty
  refreshTokens := .empty
  sessions := .empty

/-- The user signs in, and is deactivated. -/
theorem revocation_complete_signed_in : ∃ s : Db, s.Inactive 1 ∧
    s.accessTokens.entries ≠ [] ∧ ¬ s.HasAccessToken 1 7 ∧ ¬ s.HasRefreshToken 1 7 := by
  obtain ⟨s, hrun, huser, htokens⟩ := exists_admitted step settled member
    [.issueCode 1 1 7 600, .exchange 1 1 1 3600 true, .setActive 1 false]
    (P := fun s => (s.users.get? 1).map User.isActive = some false ∧
      s.accessTokens.entries.length = 1) (by decide +kernel)
  obtain ⟨row, hrow, hoff⟩ := Option.map_eq_some_iff.mp huser
  have hinactive : s.Inactive 1 := ⟨row, hrow, hoff⟩
  have hnone := (revocation_complete rfl rfl rfl hrun).1 1 hinactive 7
  refine ⟨s, hinactive, fun hempty => ?_, hnone⟩
  simp [hempty] at htokens

/-- A code that was issued before the deactivation, or before the grant was revoked, is
exchanged after it: the user has a valid access token and a refresh token. -/
theorem code_outlives_revocation :
    ((run step member [.issueCode 1 1 7 600, .setActive 1 false, .exchange 1 1 1 3600 true]).map
      fun s => ((s.users.get? 1).map User.isActive, s.now,
        s.accessTokens.entries.map Prod.snd, s.refreshTokens.entries.map Prod.snd)) =
      some (some false, 0, [⟨1, 7, 3600⟩], [⟨1, 7, none⟩]) ∧
    ((run step member [.issueCode 1 1 7 600, .toggleGrant 1 7 2, .exchange 1 1 1 3600 true]).map
      fun s => (s.policy 7, s.hasGrant 1 7, s.now,
        s.accessTokens.entries.map Prod.snd, s.refreshTokens.entries.map Prod.snd)) =
      some (.grantRequired, false, 0, [⟨1, 7, 3600⟩], [⟨1, 7, none⟩]) := by
  constructor <;> decide +kernel

end StationManager.Sso
