import StationManager.Accounts.SelfService
import StationManager.Lib.RowLocks

/-!
# StationManager.Accounts.ResetTokens

The password-reset links of one user.  `PasswordResetRequestView.post` counts the tokens of the
last hour, and in a transaction then marks the user's pending tokens as used and issues a new
one; `consume_token` redeems a token under its row lock.  A transaction sees what others have
committed, and its own rows are seen by them once it commits.

Requests that overlap do not see each other's token, so that all their links work and the limit
is passed (`four_links_work`).  If none commits while another one is on its way, only the newest
link works and there are at most `_USER_LIMIT` of them in an hour (`newest_link_only`).
-/

namespace StationManager.Accounts.ResetTokens

open SelfService

/-- A row of type `RESET`. -/
structure Token extends AccountToken where
  tokenType := .reset
  createdAt : Time
deriving DecidableEq, Repr

/-- `_USER_LIMIT` -/
def userLimit : Nat := 3

/-- `_USER_WINDOW`, one hour. -/
def userWindow : Time := 3600 * 1000000

/-- `AccountToken.EXPIRY[TokenType.RESET]`, one day. -/
def resetExpiry : Time := 24 * 3600 * 1000000

/-- The committed tokens of the user, the rows that transactions have locked and the time of
the last access. -/
structure Account where
  tokens : Table Pk Token
  locks : RowLocks Pk
  clock : Time

/-- The tokens that satisfy a condition, counted. -/
def Account.count (s : Account) (p : Token → Bool) : Nat :=
  s.tokens.total fun t => if p t then 1 else 0

/-- `created_at__gt=now - _USER_WINDOW` -/
def Token.recent (now : Time) (t : Token) : Bool := now < t.createdAt + userWindow

def Token.pending (t : Token) : Bool := t.usedAt = none

/-! ## requests -/

/-- Where a request stands; `pk` is the key that its token is going to have, `used` are the
tokens that it has marked at a time. -/
inductive Proc where
  | rate (pk : Pk)
  | invalidate (pk : Pk)
  | issue (pk : Pk) (used : List Pk) (at' : Time)
  | commit (pk : Pk) (used : List Pk) (at' : Time) (token : Token)
  | redeem (pk : Pk)
deriving DecidableEq

inductive Request where
  | reset (pk : Pk)
  | redeem (pk : Pk)

/-- The time of an access, and whether the transaction is committed then. -/
structure Env where
  now : Time
  ok : Bool := true

def start (_ : Account) : Request → Option Proc
  | .reset pk => some (.rate pk)
  | .redeem pk => some (.redeem pk)

/-- What a transaction leaves: the marked tokens and the new one. -/
def Account.committed (s : Account) (pk : Pk) (used : List Pk) (at' : Time) (token : Token) :
    Table Pk Token :=
  (s.tokens.map fun k t => if k ∈ used then { t with usedAt := some at' } else t).insert pk token

/-- One access of process `i`.  An `UPDATE` that waits for a lock starts again here once it is
free; PostgreSQL keeps the rows that the statement saw first, so that a token committed while it
waits stays pending.  That commit is one that `overlaps`. -/
def act (i : Nat) (s : Account) (p : Proc) (e : Env) : Option (Account × Option Proc) :=
  if e.now < s.clock then none
  else match p with
    | .rate pk => some ({ s with clock := e.now },
        if userLimit ≤ s.count (·.recent e.now) then none else some (.invalidate pk))
    | .invalidate pk =>
      let used := (s.tokens.entries.filter fun t => t.2.pending).map Prod.fst
      (s.locks.acquire i used).map fun l =>
        ({ s with locks := l, clock := e.now }, some (.issue pk used e.now))
    | .issue pk used at' => some ({ s with clock := e.now }, some (.commit pk used at'
        { expiresAt := e.now + resetExpiry, createdAt := e.now }))
    | .commit pk used at' token =>
      let rest := { s with locks := s.locks.release i, clock := e.now }
      if !e.ok then some (rest, none)
      else if s.tokens.get? pk = none then
        some ({ rest with tokens := s.committed pk used at' token }, none)
      else none
    | .redeem pk =>
      if s.locks.isFree i pk then
        some ({ s with
          tokens := s.tokens.modify pk fun t =>
            if t.isActive e.now then { t with usedAt := some e.now } else t
          clock := e.now }, none)
      else none

def step : Pool Account Proc → Sched Request Env → Option (Pool Account Proc) := Pool.step start act

/-- A request that has passed the rate check and is not yet through. -/
def Proc.isIssuing : Proc → Bool
  | .invalidate _ | .issue .. | .commit .. => true
  | _ => false

def Proc.isCommit : Proc → Bool
  | .commit .. => true
  | _ => false

/-- A request commits its token while another one is issuing. -/
def overlaps (c : Pool Account Proc) : Sched Request Env → Bool
  | .spawn _ _ => false
  | .advance i e => (c.procs.get? i).any fun p =>
      p.isCommit && e.ok && c.procs.entries.any fun q => q.1 ≠ i && q.2.isIssuing

/-! ## counts -/

section

variable {s s' : Account} {p r : Proc} {q : Option Proc} {i j : Nat} {e : Env}

theorem count_mono {f g : Token → Bool} (h : ∀ t, f t = true → g t = true) : s.count f ≤ s.count g := by
  have hle := s.tokens.total_map_le (fun _ t => t) (fun t => if f t then 1 else 0)
    (fun t => if g t then 1 else 0) fun t _ => by grind
  have hid : s.tokens.map (fun _ t => t) = s.tokens := by simp [Table.map]
  rwa [hid] at hle

/-- Tokens are marked as used, and nothing else. -/
def Marks (u : Pk → Token → Token) : Prop := ∀ k t, (u k t).createdAt = t.createdAt ∧
  (u k t).expiresAt = t.expiresAt ∧ ((u k t).usedAt = none → t.usedAt = none)

theorem count_marks {u : Pk → Token → Token} (hu : Marks u) (f : Time → Bool) :
    (s.tokens.map u).total (fun t => if f t.createdAt then 1 else 0) ≤ s.count fun t => f t.createdAt :=
  s.tokens.total_map_le u _ _ fun t _ => by simp [(hu t.1 t.2).1]

/-- What an access does to the tokens: some are marked as used, or a transaction is committed. -/
inductive Wrote (s : Account) (p : Proc) (e : Env) (s' : Account) : Prop
  | marked (u : Pk → Token → Token) : Marks u → s'.tokens = s.tokens.map u → Wrote s p e s'
  | issued (pk : Pk) (used : List Pk) (at' : Time) (token : Token) (u : Pk → Token → Token) :
      p = .commit pk used at' token → e.ok = true → Marks u →
      (∀ k t, k ∈ used → (u k t).usedAt ≠ none) →
      (s.tokens.map u).get? pk = none → s'.tokens = (s.tokens.map u).insert pk token →
      Wrote s p e s'

theorem wrote_of_act (h : act i s p e = some (s', q)) : s.clock ≤ s'.clock ∧ Wrote s p e s' := by
  have hsame : s.tokens = s.tokens.map fun _ t => t := by simp [Table.map]
  have hmarks : Marks fun _ t => t := fun _ _ => ⟨rfl, rfl, id⟩
  unfold act at h
  split at h
  · cases h
  · next hclock =>
    have ht : s.clock ≤ e.now := Nat.not_lt.mp hclock
    cases p with
    | rate pk | issue pk used at' =>
      cases h
      exact ⟨ht, .marked _ hmarks hsame⟩
    | invalidate pk =>
      obtain ⟨l, _, h⟩ := Option.map_eq_some_iff.mp h
      cases h
      exact ⟨ht, .marked _ hmarks hsame⟩
    | commit pk used at' token =>
      simp only at h
      split at h
      · cases h
        exact ⟨ht, .marked _ hmarks hsame⟩
      · next hok =>
        split at h
        · next hnew =>
          cases h
          refine ⟨ht, .issued pk used at' token _ rfl (by simpa using hok) (fun k t => ?_)
            (fun k t hk => ?_) ?_ rfl⟩
          · split <;> simp
          · simp [hk]
          · rw [Table.get?_map, hnew]
            rfl
        · cases h
    | redeem pk =>
      simp only at h
      split at h
      · cases h
        refine ⟨ht, .marked (fun k t => if k = pk then
          if t.isActive e.now then { t with usedAt := some e.now } else t else t) (fun k t => ?_) rfl⟩
        grind
      · cases h

/-! ## requests in turn -/

/-- Only one link works, and no hour has more tokens than the limit. -/
structure Ordered (s : Account) : Prop where
  window : ∀ t, s.count (fun token => t < token.createdAt && token.createdAt ≤ t + userWindow) ≤
    userLimit
  single : ∀ k k' t t', s.tokens.get? k = some t → s.tokens.get? k' = some t' →
    t.isActive s.clock = true → t'.isActive s.clock = true → k = k'

/-- What a request that has passed the rate check knows: there is room for its token, and the
pending tokens are those it has marked. -/
def Knows (s : Account) : Proc → Prop
  | .invalidate _ => s.count (·.recent s.clock) < userLimit
  | .issue _ used _ => s.count (·.recent s.clock) < userLimit ∧
      ∀ k t, s.tokens.get? k = some t → t.usedAt = none → k ∈ used
  | .commit _ used _ token => s.count (·.recent token.createdAt) < userLimit ∧
      ∀ k t, s.tokens.get? k = some t → t.usedAt = none → k ∈ used
  | _ => True

theorem get?_marked {u : Pk → Token → Token} {k : Pk} {t : Token}
    (h : (s.tokens.map u).get? k = some t) : ∃ t₀, s.tokens.get? k = some t₀ ∧ u k t₀ = t := by
  rwa [Table.get?_map, Option.map_eq_some_iff] at h

theorem Knows.marked (h : Knows s r) (hclock : s.clock ≤ s'.clock) {u : Pk → Token → Token}
    (hu : Marks u) (hs : s'.tokens = s.tokens.map u) : Knows s' r := by
  have hrecent : ∀ now now', now ≤ now' → s.count (·.recent now) < userLimit →
      s'.count (·.recent now') < userLimit := by
    intro now now' hnow hroom
    rw [Account.count, hs]
    refine Nat.lt_of_le_of_lt (count_marks hu fun t => decide (now' < t + userWindow)) ?_
    exact Nat.lt_of_le_of_lt (count_mono fun t ht => by grind [Token.recent]) hroom
  have hpending : ∀ {used : List Pk}, (∀ k t, s.tokens.get? k = some t → t.usedAt = none → k ∈ used) →
      ∀ k t, s'.tokens.get? k = some t → t.usedAt = none → k ∈ used := by
    intro used hused k t ht hnone
    obtain ⟨t₀, ht₀, rfl⟩ := get?_marked (hs ▸ ht)
    exact hused k t₀ ht₀ ((hu k t₀).2.2 hnone)
  cases r with
  | invalidate pk => exact hrecent _ _ hclock h
  | issue pk used at' => exact ⟨hrecent _ _ hclock h.1, hpending h.2⟩
  | commit pk used at' token => exact ⟨hrecent _ _ (Nat.le_refl _) h.1, hpending h.2⟩
  | rate pk | redeem pk => trivial

theorem isActive_marked {u : Pk → Token → Token} (hu : Marks u) (hclock : s.clock ≤ s'.clock) {k : Pk}
    {t : Token} (h : (u k t).isActive s'.clock = true) : t.isActive s.clock = true := by
  grind [Marks, AccountToken.isActive]

theorem Ordered.step (h : Ordered s) (hp : Knows s p) (hact : act i s p e = some (s', q)) :
    Ordered s' := by
  obtain ⟨hclock, hwrote⟩ := wrote_of_act hact
  cases hwrote with
  | marked u hu hs =>
    refine ⟨fun t => ?_, fun k k' t t' ht ht' hlive hlive' => ?_⟩
    · rw [Account.count, hs]
      exact Nat.le_trans (count_marks hu fun c => decide (t < c) && decide (c ≤ t + userWindow))
        (h.window t)
    · obtain ⟨t₀, ht₀, rfl⟩ := get?_marked (hs ▸ ht)
      obtain ⟨t₁, ht₁, rfl⟩ := get?_marked (hs ▸ ht')
      exact h.single k k' t₀ t₁ ht₀ ht₁ (isActive_marked hu hclock hlive)
        (isActive_marked hu hclock hlive')
  | issued pk used at' token u hp' _ hu hmarked hnew hs =>
    subst hp'
    obtain ⟨hroom, hpending⟩ := hp
    -- whatever was pending is marked now, so that a working link is the new one
    have hnewest : ∀ k t, s'.tokens.get? k = some t → t.isActive s'.clock = true → k = pk := by
      intro k t ht hlive
      rw [hs, Table.get?_insert] at ht
      split at ht
      · assumption
      · obtain ⟨t₀, ht₀, rfl⟩ := get?_marked ht
        have hnone : (u k t₀).usedAt = none := by grind [AccountToken.isActive]
        exact absurd hnone (hmarked k t₀ (hpending k t₀ ht₀ ((hu k t₀).2.2 hnone)))
    refine ⟨fun t => ?_, fun k k' t t' ht ht' hlive hlive' => ?_⟩
    · rw [Account.count, hs, Table.total_insert _ _ _ hnew]
      have hold := count_marks (s := s) hu fun c => decide (t < c) && decide (c ≤ t + userWindow)
      split
      · next hin =>
        -- the tokens of a window that ends at the new one are those of its hour
        have hhour : s.count (fun x => decide (t < x.createdAt) && decide (x.createdAt ≤ t + userWindow)) ≤
            s.count (·.recent token.createdAt) := count_mono fun x hx => by grind [Token.recent]
        omega
      · exact Nat.le_trans hold (h.window t)
    · rw [hnewest k t ht hlive, hnewest k' t' ht' hlive']

theorem Knows.own {p' : Proc} (h : Knows s p) (hact : act i s p e = some (s', some p')) :
    Knows s' p' := by
  unfold act at hact
  split at hact
  · cases hact
  · next hclock =>
    have ht : s.clock ≤ e.now := Nat.not_lt.mp hclock
    cases p with
    | rate pk =>
      simp only [Option.some.injEq, Prod.mk.injEq] at hact
      obtain ⟨rfl, hp'⟩ := hact
      split at hp' <;> cases hp'
      next hroom => exact Nat.not_le.mp hroom
    | invalidate pk =>
      obtain ⟨l, _, hact⟩ := Option.map_eq_some_iff.mp hact
      cases hact
      have hroom : s.count (·.recent e.now) ≤ s.count (·.recent s.clock) :=
        count_mono fun t ht' => by grind [Token.recent]
      refine ⟨Nat.lt_of_le_of_lt hroom h, fun k t hget hnone => ?_⟩
      refine List.mem_map.mpr ⟨(k, t), List.mem_filter.mpr ⟨?_, by simp [Token.pending, hnone]⟩, rfl⟩
      exact (s.tokens.mem_entries_iff k t).mpr hget
    | issue pk used at' =>
      cases hact
      have hroom : s.count (·.recent e.now) ≤ s.count (·.recent s.clock) :=
        count_mono fun t ht' => by grind [Token.recent]
      exact ⟨Nat.lt_of_le_of_lt hroom h.1, h.2⟩
    | commit pk used at' token =>
      simp only at hact
      split at hact
      · cases hact
      · split at hact <;> cases hact
    | redeem pk =>
      simp only at hact
      split at hact <;> cases hact

variable {c c' c₀ : Pool Account Proc} {l : Sched Request Env}

theorem ordered_step (hc : c.Holds Ordered fun _ p s => Knows s p) (hok : overlaps c l = false)
    (h : step c l = some c') : c'.Holds Ordered fun _ p s => Knows s p := by
  refine Pool.invariant_step (fun c l => overlaps c l = false) ?_ ?_ ?_ hc hok h
  · intro c i r p _ _ hstart
    cases r <;> cases hstart <;> trivial
  · intro c i p e s' q hc _ hp hact
    refine ⟨hc.1.step (hc.2 i p hp) hact, ?_⟩
    rintro p' rfl
    exact (hc.2 i p hp).own hact
  · intro c i p e s' q j r hc hok hp hact hne hr
    obtain ⟨hclock, hwrote⟩ := wrote_of_act hact
    cases hwrote with
    | marked u hu hs => exact (hc.2 j r hr).marked hclock hu hs
    | issued pk used at' token u hp' he =>
      subst hp'
      have hmem := (c.procs.mem_entries_iff j r).mpr hr
      have hidle : r.isIssuing = false := by
        simp only [overlaps, hp, Option.any_some, Proc.isCommit, he, Bool.and_self, Bool.true_and,
          List.any_eq_false] at hok
        simpa [hne] using hok (j, r) hmem
      cases r <;> trivial

/-- **Only the newest link works**, provided that no request commits its token while another one
has passed the rate check and is not through: at every time at most one unused, unexpired token
of the user exists, and in every hour at most `_USER_LIMIT` were issued. -/
theorem newest_link_only (hidle : c₀.Quiescent) (h₀ : Ordered c₀.shared)
    (h : Reachable step (fun c l => overlaps c l = false) c₀ c) :
    (∀ k k' t t', c.shared.tokens.get? k = some t → c.shared.tokens.get? k' = some t' →
      t.isActive c.shared.clock = true → t'.isActive c.shared.clock = true → k = k') ∧
    ∀ t, c.shared.count (fun token => t < token.createdAt && token.createdAt ≤ t + userWindow) ≤
      userLimit := by
  have hinit : c₀.Holds Ordered fun _ p s => Knows s p :=
    ⟨h₀, fun i p hp => by simp [hidle.get?] at hp⟩
  have hc := h.invariant hinit fun _ _ _ hc hok => ordered_step hc hok
  exact ⟨hc.1.single, hc.1.window⟩

end

/-! ## impatient users -/

def idle : Pool Account Proc := ⟨⟨.empty, .empty, 0⟩, .empty⟩

theorem ordered_idle : Ordered idle.shared :=
  ⟨fun _ => Nat.zero_le _, fun k k' t t' ht => by simp [idle, Table.empty, Table.get?] at ht⟩

/-- A request as far as its update of the pending tokens, and the rest of it. -/
def opened (i : Nat) : List (Sched Request Env) :=
  [.spawn i (.reset i), .advance i { now := i }, .advance i { now := i }]

def closed (i : Nat) (now : Time) : List (Sched Request Env) :=
  [.advance i { now := now }, .advance i { now := now }]

/-- The keys of the links that work. -/
def working (c : Pool Account Proc) : List Pk :=
  (c.shared.tokens.entries.filter fun t => t.2.isActive c.shared.clock).map Prod.fst

/-- Two requests in turn: only the second link works. -/
theorem newest_link_only_in_turn : ∃ c t, run (avoiding step overlaps) idle
      (opened 1 ++ closed 1 1 ++ opened 2 ++ closed 2 2) = some c ∧
      c.shared.tokens.get? 2 = some t ∧ t.isActive c.shared.clock = true ∧
      ∀ k t', c.shared.tokens.get? k = some t' → t'.isActive c.shared.clock = true → k = 2 := by
  have hfacts : ((run (avoiding step overlaps) idle
      (opened 1 ++ closed 1 1 ++ opened 2 ++ closed 2 2)).bind fun c =>
        (c.shared.tokens.get? 2).map (·.isActive c.shared.clock)) = some true := by
    decide +kernel
  obtain ⟨c, hc, hfacts⟩ := Option.bind_eq_some_iff.mp hfacts
  obtain ⟨t, ht, hlive⟩ := Option.map_eq_some_iff.mp hfacts
  have hsingle := (newest_link_only (show idle.Quiescent from rfl) ordered_idle (Reachable.of_run .init hc)).1
  exact ⟨c, t, hc, ht, hlive, fun k t' ht' hlive' => hsingle k 2 t' t ht' ht hlive' hlive⟩

/-- Four requests that overlap: four links work, issued in one hour. -/
theorem four_links_work : (run step idle (opened 1 ++ opened 2 ++ opened 3 ++ opened 4 ++
      closed 1 9 ++ closed 2 9 ++ closed 3 9 ++ closed 4 9)).map (fun c =>
      (working c, c.shared.count fun t => 8 < t.createdAt && t.createdAt ≤ 8 + userWindow)) =
    some ([1, 2, 3, 4], 4) := by
  decide +kernel

end StationManager.Accounts.ResetTokens
