import StationManager.Lib.Transition

/-!
# StationManager.Tunnel.Sessions

The terminal sessions of one station.  `TerminalConsumer.connect` closes the sessions whose
keepalive has lapsed, counts the others and creates its own row if there are fewer than
`MAX_SESSIONS_PER_STATION`; each of these is a database call of its own, and connects,
keepalives and disconnects of other browsers run in between.

The limit fails if three connects count before one of them creates its row (`three_sessions`); it
could also fail if a session whose keepalive had lapsed were renewed.  Without either it holds
(`sessions_bounded`).
-/

namespace StationManager.Tunnel

/-- `TerminalSession.Status` -/
inductive Status where
  | connecting
  | active
  | closed
  | error
deriving DecidableEq, Repr

structure TerminalSession where
  status : Status := .connecting
  startedAt : Time
  lastSeen : Option Time := none
deriving DecidableEq, Repr

/-- `MAX_SESSIONS_PER_STATION` -/
def maxSessionsPerStation : Nat := 2

/-- `TERMINAL_SESSION_STALE_TTL_SECONDS`, three minutes. -/
def staleTtl : Time := 180 * 1000000

namespace TerminalSession

def isOpen (x : TerminalSession) : Bool := x.status = .connecting || x.status = .active

/-- The row was seen, or else started, within the last three minutes. -/
def isRecent (x : TerminalSession) (now : Time) : Bool :=
  now ≤ x.lastSeen.getD x.startedAt + staleTtl

/-- The filter of `_count_active_sessions`. -/
def counts (x : TerminalSession) (now : Time) : Bool := x.isOpen && x.isRecent now

/-- A session adds one to the count, or nothing. -/
def weight (now : Time) (x : TerminalSession) : Nat := if x.counts now then 1 else 0

end TerminalSession

/-- The rows of the station and the time of the last database call. -/
structure Sessions where
  rows : Table Pk TerminalSession
  clock : Time

namespace Sessions

/-- `_count_active_sessions` -/
def count (s : Sessions) (now : Time) : Nat := s.rows.total (·.weight now)

def update (s : Sessions) (now : Time) (f : Pk → TerminalSession → TerminalSession) : Sessions :=
  ⟨s.rows.map f, now⟩

/-- `save(update_fields=...)` of the session `pk` -/
def save (s : Sessions) (now : Time) (pk : Pk) (f : TerminalSession → TerminalSession) : Sessions :=
  s.update now fun k x => if k = pk then f x else x

/-- `_reap_stale_sessions` -/
def reap (s : Sessions) (now : Time) : Sessions :=
  s.update now fun _ x => if x.isOpen && !x.isRecent now then { x with status := .closed } else x

/-- `_touch_session` -/
def touch (s : Sessions) (now : Time) (pk : Pk) : Sessions :=
  s.save now pk fun x => { x with lastSeen := some now }

end Sessions

/-! ## consumers -/

/-- Where the consumer of a browser stands; `pk` is the key that its row is going to have. -/
inductive Consumer where
  | reap (pk : Pk)
  | count (pk : Pk)
  | create (pk : Pk)
  | activate (pk : Pk)
  | touch (pk : Pk)
  | live (pk : Pk)
deriving DecidableEq, Repr

/-- The time of a call, and whether the browser has left by then. -/
structure Env where
  now : Time
  left : Bool := false

/-- One database call of a consumer that has been let in by the checks of user and station. -/
def act (_ : Nat) (s : Sessions) (p : Consumer) (e : Env) : Option (Sessions × Option Consumer) :=
  if e.now < s.clock then none
  else match p with
    | .reap pk => some (s.reap e.now, some (.count pk))
    | .count pk => some (⟨s.rows, e.now⟩,
        if maxSessionsPerStation ≤ s.count e.now then none else some (.create pk))
    | .create pk =>
      if s.rows.get? pk = none then
        some (⟨s.rows.insert pk { startedAt := e.now }, e.now⟩, some (.activate pk))
      else none
    | .activate pk => some (s.save e.now pk fun x => { x with status := .active }, some (.touch pk))
    | .touch pk => some (s.touch e.now pk, some (.live pk))
    | .live pk =>
      if e.left then some (s.save e.now pk fun x => { x with status := .closed }, none)
      else some (s.touch e.now pk, some (.live pk))

def start (_ : Sessions) (pk : Pk) : Option Consumer := some (.reap pk)

def step : Pool Sessions Consumer → Sched Pk Env → Option (Pool Sessions Consumer) :=
  Pool.step start act

/-- The session that a call activates or touches. -/
def Consumer.renews? (p : Consumer) (e : Env) : Option Pk :=
  match p with
  | .activate pk | .touch pk => some pk
  | .live pk => if e.left then none else some pk
  | _ => none

def Consumer.isCreate : Consumer → Bool
  | .create _ => true
  | _ => false

/-- The two things that break the limit: a row is created while another connect has counted
and not created its own, and a session is renewed that no longer counts. -/
def breaks (c : Pool Sessions Consumer) : Sched Pk Env → Bool
  | .spawn _ _ => false
  | .advance i e => (c.procs.get? i).any fun p =>
      (p.isCreate && c.procs.entries.any fun q => q.1 ≠ i && q.2.isCreate) ||
      (p.renews? e).any fun pk => (c.shared.rows.get? pk).any fun x => !x.counts e.now

/-! ## the count -/

section

variable {s s' : Sessions} {p : Consumer} {q : Option Consumer} {e : Env} {i : Nat}

theorem weight_mono {t t' : Time} (h : t ≤ t') (x : TerminalSession) : x.weight t' ≤ x.weight t := by
  grind [TerminalSession.weight, TerminalSession.counts, TerminalSession.isRecent]

theorem count_mono {t t' : Time} (h : t ≤ t') : s.count t' ≤ s.count t := by
  have hle := s.rows.total_map_le (fun _ x => x) (·.weight t') (·.weight t)
    fun x _ => weight_mono h x.2
  have hid : s.rows.map (fun _ x => x) = s.rows := by simp [Table.map]
  rwa [hid] at hle

/-- A call that creates nothing and renews no session that has lapsed does not raise the
count. -/
theorem count_update {t now : Time} {f : Pk → TerminalSession → TerminalSession} (ht : t ≤ now)
    (h : ∀ pk x, s.rows.get? pk = some x → (f pk x).weight now ≤ x.weight now) :
    (s.update now f).count now ≤ s.count t := by
  refine s.rows.total_map_le f (·.weight now) (·.weight t) fun x hx => ?_
  exact Nat.le_trans (h x.1 x.2 ((s.rows.mem_entries_iff _ _).mp hx)) (weight_mono ht x.2)

/-- What a call does to the count: only a row that is created adds to it, and a connect goes on
to create one only where there is room. -/
theorem count_of_act (h : act i s p e = some (s', q)) (hnew : ∀ pk, p.renews? e = some pk →
      ∀ x, s.rows.get? pk = some x → x.counts e.now = true) :
    s'.count s'.clock ≤ s.count s.clock + (if p.isCreate then 1 else 0) ∧
      ∀ p', q = some p' → p'.isCreate = true → s'.count s'.clock < maxSessionsPerStation := by
  unfold act at h
  split at h
  · cases h
  · next hclock =>
    have ht : s.clock ≤ e.now := Nat.not_lt.mp hclock
    have hsave : ∀ pk f, (∀ x, s.rows.get? pk = some x → (f x).weight e.now ≤ x.weight e.now) →
        (s.save e.now pk f).count e.now ≤ s.count s.clock := by
      intro pk f hf
      refine count_update ht fun k x hx => ?_
      split
      · next hk => exact hf x (hk ▸ hx)
      · exact Nat.le_refl _
    have hone : ∀ x : TerminalSession, x.weight e.now ≤ 1 := fun x => by
      grind [TerminalSession.weight]
    -- a session that counts weighs as much as it can
    have hrenew : ∀ pk f, p.renews? e = some pk → (s.save e.now pk f).count e.now ≤ s.count s.clock := by
      intro pk f hp
      refine hsave pk f fun x hx => Nat.le_trans (hone _) ?_
      simp [TerminalSession.weight, hnew pk hp x hx]
    cases p with
    | reap pk =>
      cases h
      refine ⟨count_update ht fun pk x hx => ?_, by simp [Consumer.isCreate]⟩
      grind [TerminalSession.weight, TerminalSession.counts, TerminalSession.isOpen]
    | count pk =>
      cases h
      refine ⟨count_mono ht, fun p' hp' _ => ?_⟩
      split at hp'
      · cases hp'
      · next hroom => exact Nat.not_le.mp hroom
    | create pk =>
      simp only at h
      split at h
      · next hnone =>
        cases h
        refine ⟨?_, by simp [Consumer.isCreate]⟩
        have hinsert := s.rows.total_insert { startedAt := e.now } (·.weight e.now) hnone
        have hold := count_mono (s := s) ht
        have hnew := hone { startedAt := e.now }
        simp only [Sessions.count, Consumer.isCreate, if_true] at hinsert hold ⊢
        omega
      · cases h
    | activate pk =>
      cases h
      exact ⟨hrenew pk _ rfl, by simp [Consumer.isCreate]⟩
    | touch pk =>
      cases h
      exact ⟨hrenew pk _ rfl, by simp [Consumer.isCreate]⟩
    | live pk =>
      simp only at h
      split at h
      · cases h
        refine ⟨hsave pk _ fun x _ => ?_, by simp⟩
        grind [TerminalSession.weight, TerminalSession.counts, TerminalSession.isOpen]
      · next hleft =>
        cases h
        exact ⟨hrenew pk _ (by simp [Consumer.renews?, hleft]), by simp [Consumer.isCreate]⟩

variable {c c' c₀ : Pool Sessions Consumer} {l : Sched Pk Env}

/-- The limit holds, and a connect that has counted finds room for its row. -/
def Bounded (c : Pool Sessions Consumer) : Prop :=
  c.Holds (fun s => s.count s.clock ≤ maxSessionsPerStation) fun _ p s =>
    p.isCreate = true → s.count s.clock < maxSessionsPerStation

theorem bounded_step (hc : Bounded c) (hok : breaks c l = false) (h : step c l = some c') :
    Bounded c' := by
  have hnew : ∀ {c : Pool Sessions Consumer} {i e p}, breaks c (.advance i e) = false →
      c.procs.get? i = some p → ∀ pk, p.renews? e = some pk →
      ∀ x, c.shared.rows.get? pk = some x → x.counts e.now = true := by
    intro c i e p hok hp pk hrenews x hx
    simp only [breaks, hp, Option.any_some, Bool.or_eq_false_iff, hrenews, hx] at hok
    simpa using hok.2
  refine Pool.invariant_step (fun c l => breaks c l = false) ?_ ?_ ?_ hc hok h
  · intro c i pk p _ _ hstart
    cases hstart
    simp [Consumer.isCreate]
  · intro c i p e s' q hc hok hp hact
    obtain ⟨hcount, hroom⟩ := count_of_act hact (hnew hok hp)
    refine ⟨?_, hroom⟩
    have hbound := hc.1
    have hmine := hc.2 i p hp
    split at hcount
    · next hcreate =>
      have := hmine hcreate
      omega
    · omega
  · intro c i p e s' q j r hc hok hp hact hne hr hcreate
    obtain ⟨hcount, _⟩ := count_of_act hact (hnew hok hp)
    have hroom := hc.2 j r hr hcreate
    have hother : p.isCreate = false := by
      have hmem := (c.procs.mem_entries_iff j r).mpr hr
      by_contra hp'
      have hbreaks : breaks c (.advance i e) = true := by
        simp only [breaks, hp, Option.any_some, Bool.or_eq_true, Bool.and_eq_true, List.any_eq_true]
        exact .inl ⟨by simpa using hp', (j, r), hmem, by simp [hne, hcreate]⟩
      rw [hok] at hbreaks
      cases hbreaks
    rw [hother] at hcount
    exact Nat.lt_of_le_of_lt hcount hroom

/-- **A station has at most `MAX_SESSIONS_PER_STATION` terminal sessions**, provided that no
connect creates its row between another one's count and creation and that no session is
renewed after its keepalive has lapsed: from then on no more rows are connecting or active and
not stale. -/
theorem sessions_bounded (hidle : c₀.Quiescent)
    (hbound : c₀.shared.count c₀.shared.clock ≤ maxSessionsPerStation)
    (h : Reachable step (fun c l => breaks c l = false) c₀ c) (now : Time)
    (hnow : c.shared.clock ≤ now) : c.shared.count now ≤ maxSessionsPerStation := by
  have hinit : Bounded c₀ := ⟨hbound, fun i p hp => by simp [hidle.get?] at hp⟩
  have hc := h.invariant hinit fun _ _ _ hc hok => bounded_step hc hok
  exact Nat.le_trans (count_mono hnow) hc.1

end

/-! ## three browsers -/

def idle : Pool Sessions Consumer := ⟨⟨.empty, 0⟩, .empty⟩

/-- A connect as far as its count. -/
def counted (i : Nat) (t : Time) : List (Sched Pk Env) :=
  [.spawn i i, .advance i ⟨t, false⟩, .advance i ⟨t, false⟩]

/-- Two browsers connect one after the other; the third one is turned away. -/
theorem sessions_bounded_in_turn : ∃ c, run (avoiding step breaks) idle
      (counted 1 1 ++ [.advance 1 ⟨2, false⟩] ++ counted 2 3 ++ [.advance 2 ⟨4, false⟩] ++
        counted 3 5) = some c ∧ c.procs.get? 3 = none ∧ c.shared.count 5 = 2 ∧
      ∀ now, 5 ≤ now → c.shared.count now ≤ maxSessionsPerStation := by
  have hfacts : (run (avoiding step breaks) idle (counted 1 1 ++ [.advance 1 ⟨2, false⟩] ++
      counted 2 3 ++ [.advance 2 ⟨4, false⟩] ++ counted 3 5)).map (fun c =>
        (c.procs.get? 3, c.shared.count 5, c.shared.clock)) = some (none, 2, 5) := by
    decide +kernel
  obtain ⟨c, hc, hfacts⟩ := Option.map_eq_some_iff.mp hfacts
  simp only [Prod.mk.injEq] at hfacts
  refine ⟨c, hc, hfacts.1, hfacts.2.1, fun now hnow => ?_⟩
  exact sessions_bounded (show idle.Quiescent from rfl) (by decide) (Reachable.of_run .init hc) now
    (hfacts.2.2 ▸ hnow)

/-- Three connects count before the first of them creates its row. -/
theorem three_sessions : (run step idle (counted 1 1 ++ counted 2 1 ++ counted 3 1 ++
      [.advance 1 ⟨2, false⟩, .advance 2 ⟨2, false⟩, .advance 3 ⟨2, false⟩])).map
      (fun c => c.shared.count c.shared.clock) = some 3 ∧ maxSessionsPerStation = 2 := by
  decide +kernel

end StationManager.Tunnel
