import StationManager.Audio.Gate
import StationManager.Control.InventoryMoves
import StationManager.Control.Lock

/-!
# StationManager.Control.Presence

Agent connections of one station and the presence row that says which of them
is the current one.  A connection claims the row when it opens (the newest
wins); when it ends it deletes the row if it is still its own, and only then
tears the station's state down, one await after the other.

Connections are processes.  Channel names are unique, so a connection is named
by the number of its claim: a later claim has a larger number.

The guard is evaluated once, before the teardown.  A connection that claims
while an older one is in its teardown has its modules, its scan and the lock
wiped (`live_connection_wiped`); if no claim falls into a teardown, then the
disconnect of an older connection leaves them alone once the newer one has
claimed and delivered its inventory.
-/

namespace StationManager.Control.Presence

open Firmware
open Audio (AudioGate)
open Inventory (Key Registry SlotEntry StationModule)

/-! ## the station's state -/

/-- The `ActiveScan` row. -/
structure ActiveScan where
  user : Pk
  scanId : String
deriving DecidableEq, Repr

/-- Messages to the browsers' group. -/
inductive Broadcast
  | inventory
  | scanStopped (scanId : String)
  | gate
  | agentOffline
  | lock
deriving DecidableEq, Repr

/-- What the connections share.  `current` is the `AgentConnection` row,
`claims` counts the claims made so far, and `delivered` has the connections
whose inventory has been applied. -/
structure Station extends Registry where
  current : Option Nat
  claims : Nat
  delivered : List Nat
  scan : Option ActiveScan
  lock : ControlLock
  gate : AudioGate
  broadcasts : List Broadcast

/-- The first update of `mark_station_offline`: online rows go offline with
the station. -/
def markOffline (now : Time) (rows : Table Key StationModule) : Table Key StationModule :=
  rows.map fun _ row =>
    if row.online then
      { row with
        online := false
        lastSeen := some now
        offlineWithStation := true
        firmwareUpdating := false }
    else row

/-- The second update: no row is being flashed any more. -/
def clearUpdating (now : Time) (rows : Table Key StationModule) : Table Key StationModule :=
  rows.map fun _ row =>
    if row.firmwareUpdating then { row with firmwareUpdating := false, lastSeen := some now }
    else row

/-! ## connections -/

/-- The awaits of a teardown. -/
inductive Teardown
  | markOffline
  | clearUpdating
  | endScan
  | forceFree
  | clearPtt
  | broadcast (b : Broadcast)
deriving DecidableEq, Repr

/-- The teardown of a connection that was the current one. -/
def teardown : List Teardown := [.markOffline, .clearUpdating, .endScan, .forceFree]

/-- After the lock has been freed, or was free. -/
def afterFree (freed : Bool) : List Teardown :=
  if freed then [.clearPtt, .broadcast .gate, .broadcast .agentOffline, .broadcast .lock]
  else [.broadcast .agentOffline]

/-- What starts a process: an agent connects, or a browser or the sweep works
on the lock or the scan. -/
inductive Request
  | connect
  | lock (op : LockOp) (draining : Bool)
  | startScan (scan : ActiveScan)
  | stopScan

/-- Where a process stands.  A connection has its number from the claim on. -/
inductive Proc
  | claiming
  | clearingScan (n : Nat)
  | opened (n : Nat)
  | releasing (n : Nat)
  | tearing (n : Nat) (todo : List Teardown)
  | other (r : Request)

/-- What happens to a process: it goes on, its agent sends an inventory, its
socket closes, or an await of its teardown raises. -/
inductive Event
  | exec (now : Time)
  | inventory (env : Inventory.Env) (slots : List SlotEntry)
  | close
  | fail

def start (_ : Station) : Request → Option Proc
  | .connect => some .claiming
  | r => some (.other r)

/-- Drop the scan row; browsers are told. -/
def Station.endScan (s : Station) : Station :=
  match s.scan with
  | none => s
  | some scan => { s with scan := none, broadcasts := s.broadcasts ++ [.scanStopped scan.scanId] }

/-- One await of a teardown, and what it adds to the rest. -/
def Station.tear (s : Station) (now : Time) : Teardown → Station × List Teardown
  | .markOffline => ({ s with modules := Presence.markOffline now s.modules }, [])
  | .clearUpdating => ({ s with modules := Presence.clearUpdating now s.modules }, [])
  | .endScan => (s.endScan, [])
  | .forceFree =>
    let (lock, reply) := Control.forceFree s.lock
    ({ s with lock }, afterFree (reply = .yes))
  | .clearPtt => ({ s with gate := s.gate.clearPtt }, [])
  | .broadcast b => ({ s with broadcasts := s.broadcasts ++ [b] }, [])

/-- The other operations on the lock and the scan. -/
def Station.serve (s : Station) (now : Time) : Request → Station
  | .lock op draining => { s with lock := (op.apply now draining s.lock).1 }
  | .startScan scan => { s with scan := some scan }
  | .stopScan => { s with scan := none }
  | .connect => s

/-- One step of a process; a snapshot that raises ends its consumer on the spot. -/
def act (_ : Nat) (s : Station) : Proc → Event → Option (Station × Option Proc)
  | .claiming, .exec _ =>
    some ({ s with current := some s.claims, claims := s.claims + 1 },
      some (.clearingScan s.claims))
  | .claiming, .close => some (s, none)
  | .clearingScan n, .exec _ => some (s.endScan, some (.opened n))
  | .opened n, .inventory env slots => match Inventory.applyInventory env s.toRegistry slots with
      | .error _ => some (s, none)
      | .ok registry =>
        some ({ s with
          toRegistry := registry, delivered := n :: s.delivered,
          broadcasts := s.broadcasts ++ [.inventory] }, some (.opened n))
  | .opened n, .close => some (s, some (.releasing n))
  | .releasing n, .exec _ =>
    if s.current = some n then some ({ s with current := none }, some (.tearing n teardown))
    else some (s, none)
  | .tearing n (t :: todo), .exec now =>
    let (s', more) := s.tear now t
    some (s', some (.tearing n (todo ++ more)))
  | .tearing _ [], .exec _ => some (s, none)
  | .tearing _ _, .fail => some (s, none)
  | .other r, .exec now => some (s.serve now r, none)
  | _, _ => none

def stationStep : Pool Station Proc → Sched Request Event → Option (Pool Station Proc) :=
  Pool.step start act

/-- The connection whose disconnect is in progress. -/
def Proc.disconnecting : Proc → Option Nat
  | .releasing n | .tearing n _ => some n
  | _ => none

def Proc.isTearing : Proc → Bool
  | .tearing _ _ => true
  | _ => false

/-- The step claims presence while another connection is in its teardown. -/
def claimsDuringTeardown (c : Pool Station Proc) : Sched Request Event → Bool
  | .spawn _ _ => false
  | .advance i _ => match c.procs.get? i with
      | some .claiming => c.procs.entries.any fun e => e.1 ≠ i && e.2.isTearing
      | _ => false

/-! ## runs -/

/-- The current connection made the last claim, and only connections that
claimed have delivered. -/
structure Station.Numbered (s : Station) : Prop where
  current : ∀ n, s.current = some n → n + 1 = s.claims
  delivered : ∀ n ∈ s.delivered, n < s.claims

/-- A connection has its number from a claim; one in its teardown made the
last. -/
def Placed (_ : Nat) (p : Proc) (s : Station) : Prop :=
  match p with
  | .clearingScan n | .opened n | .releasing n => n < s.claims
  | .tearing n _ => n + 1 = s.claims
  | .claiming | .other _ => True

variable {i : Nat} {q : Option Proc} {p : Proc} {s' : Station} (s : Station)

@[simp] theorem endScan_claims : s.endScan.claims = s.claims := by
  unfold Station.endScan
  split <;> rfl

@[simp] theorem endScan_current : s.endScan.current = s.current := by
  unfold Station.endScan
  split <;> rfl

@[simp] theorem endScan_delivered : s.endScan.delivered = s.delivered := by
  unfold Station.endScan
  split <;> rfl

/-- What a step has to do with the presence row: a claim, an inventory, or
neither, in which case the row can only be given up. -/
inductive Acted (s s' : Station) (p : Proc) : Option Proc → Prop
  | claim : p = .claiming → s'.current = some s.claims → s'.claims = s.claims + 1 →
      s'.delivered = s.delivered → Acted s s' p (some (.clearingScan s.claims))
  | deliver (n : Nat) : p = .opened n → s'.current = s.current → s'.claims = s.claims →
      s'.delivered = n :: s.delivered → Acted s s' p (some (.opened n))
  | keep (q : Option Proc) : (s'.current = s.current ∨ s'.current = none) →
      s'.claims = s.claims → s'.delivered = s.delivered →
      (∀ r, q = some r → ∀ i, Placed i p s → s.Numbered → Placed i r s') → Acted s s' p q

theorem tear_frame (now : Time) (t : Teardown) :
    (s.tear now t).1.current = s.current ∧ (s.tear now t).1.claims = s.claims ∧
      (s.tear now t).1.delivered = s.delivered := by
  cases t <;> simp [Station.tear]

theorem acted_of_act {s : Station} {e : Event} (h : act i s p e = some (s', q)) :
    Acted s s' p q := by
  cases p with
  | claiming =>
    cases e with
    | exec now =>
      cases h
      exact .claim rfl rfl rfl rfl
    | close =>
      cases h
      exact .keep _ (.inl rfl) rfl rfl fun r hr => by cases hr
    | _ => cases h
  | clearingScan n =>
    cases e with
    | exec now =>
      cases h
      refine .keep _ (.inl (by simp)) (by simp) (by simp) fun r hr i hp _ => ?_
      cases hr
      simpa [Placed] using hp
    | _ => cases h
  | opened n =>
    cases e with
    | inventory env slots =>
      simp only [act] at h
      split at h <;> cases h
      · exact .keep _ (.inl rfl) rfl rfl fun r hr => by cases hr
      · exact .deliver n rfl rfl rfl rfl
    | close =>
      cases h
      refine .keep _ (.inl rfl) rfl rfl fun r hr i hp _ => ?_
      cases hr
      exact hp
    | _ => cases h
  | releasing n =>
    cases e with
    | exec now =>
      simp only [act] at h
      split at h
      · next hcurrent =>
        cases h
        refine .keep _ (.inr rfl) rfl rfl fun r hr i _ hs => ?_
        cases hr
        exact hs.current n hcurrent
      · cases h
        exact .keep _ (.inl rfl) rfl rfl fun r hr => by cases hr
    | _ => cases h
  | tearing n todo =>
    cases e with
    | exec now =>
      cases todo with
      | nil =>
        cases h
        exact .keep _ (.inl rfl) rfl rfl fun r hr => by cases hr
      | cons t todo =>
        cases h
        obtain ⟨hcurrent, hclaims, hdelivered⟩ := tear_frame s now t
        refine .keep _ (.inl hcurrent) hclaims hdelivered fun r hr i hp _ => ?_
        cases hr
        exact Eq.trans hp hclaims.symm
    | fail =>
      cases todo <;> cases h <;>
        exact .keep _ (.inl rfl) rfl rfl fun r hr => by cases hr
    | _ => cases todo <;> cases h
  | other r =>
    cases e with
    | exec now =>
      cases h
      refine .keep _ (.inl ?_) ?_ ?_ fun r hr => by cases hr
      all_goals cases r <;> rfl
    | _ => cases h

theorem acted_own {s : Station} (hs : s.Numbered) (hp : Placed i p s) (h : Acted s s' p q) :
    s'.Numbered ∧ ∀ r, q = some r → Placed i r s' := by
  cases h with
  | claim _ hcurrent hclaims hdelivered =>
    refine ⟨⟨?_, ?_⟩, ?_⟩
    · intro n hn
      rw [hcurrent] at hn
      cases hn
      exact hclaims.symm
    · intro n hn
      rw [hdelivered] at hn
      have hlt := hs.delivered n hn
      omega
    · intro r hr
      cases hr
      simp only [Placed]
      omega
  | deliver n hopened hcurrent hclaims hdelivered =>
    subst hopened
    refine ⟨⟨?_, ?_⟩, ?_⟩
    · rw [hcurrent, hclaims]
      exact hs.current
    · intro m hm
      rw [hdelivered, List.mem_cons] at hm
      rw [hclaims]
      obtain rfl | hm := hm
      · exact hp
      · exact hs.delivered m hm
    · intro r hr
      cases hr
      simpa only [Placed, hclaims] using hp
  | keep _ hcurrent hclaims hdelivered hplaced =>
    refine ⟨⟨?_, ?_⟩, fun r hr => hplaced r hr i hp hs⟩
    · intro n hn
      rw [hclaims]
      obtain hsame | hnone := hcurrent
      · exact hs.current n (hsame ▸ hn)
      · rw [hnone] at hn
        cases hn
    · rw [hdelivered, hclaims]
      exact hs.delivered

theorem acted_other {c : Pool Station Proc} {j : Nat} {p' : Proc} {e : Event}
    (hok : claimsDuringTeardown c (.advance i e) = false) (hi : c.procs.get? i = some p)
    (h : Acted c.shared s' p q) (hji : j ≠ i) (hj : c.procs.get? j = some p')
    (hp : Placed j p' c.shared) : Placed j p' s' := by
  cases h with
  | claim hclaiming _ hclaims _ =>
    subst hclaiming
    simp only [claimsDuringTeardown, hi, List.any_eq_false] at hok
    have hentry := hok (j, p') ((c.procs.mem_entries_iff j p').mpr hj)
    cases p' with
    | tearing n todo => simp [Proc.isTearing, hji] at hentry
    | claiming => trivial
    | other r => trivial
    | _ =>
      simp only [Placed] at hp ⊢
      omega
  | deliver n _ _ hclaims _ => simpa only [Placed, hclaims] using hp
  | keep _ _ hclaims _ _ => simpa only [Placed, hclaims] using hp

theorem step_numbered {c c' : Pool Station Proc} {l : Sched Request Event}
    (hc : c.Holds Station.Numbered Placed) (hok : claimsDuringTeardown c l = false)
    (hstep : stationStep c l = some c') : c'.Holds Station.Numbered Placed := by
  refine Pool.invariant_step (fun c l => claimsDuringTeardown c l = false) ?_ ?_ ?_ hc hok hstep
  · intro c i r p _ _ hstart
    cases r <;> cases hstart <;> trivial
  · intro c i p e s' q hc _ hi hact
    exact acted_own hc.1 (hc.2 i p hi) (acted_of_act hact)
  · intro c i p e s' q j p' hc hok hi hact hji hj
    exact acted_other hok hi (acted_of_act hact) hji hj (hc.2 j p' hj)

/-- **A stale connection never wipes the live one.**  Start with no connection
in progress, and let no connection claim presence while another is in its
teardown.  Once a connection that claimed later has delivered its inventory,
every remaining step of an older connection's disconnect leaves the modules,
the scan and the lock as they are. -/
theorem stale_disconnect_inert (c₀ c c' : Pool Station Proc) (hidle : c₀.Quiescent)
    (hnumbered : c₀.shared.Numbered)
    (h : Reachable stationStep (fun c l => claimsDuringTeardown c l = false) c₀ c)
    (i n m : Nat) (p : Proc) (hp : c.procs.get? i = some p) (hold : p.disconnecting = some n)
    (hnew : m ∈ c.shared.delivered) (hnm : n < m) (e : Event)
    (hstep : stationStep c (.advance i e) = some c') :
    c'.shared.modules = c.shared.modules ∧ c'.shared.scan = c.shared.scan ∧
      c'.shared.lock = c.shared.lock := by
  have hinit : c₀.Holds Station.Numbered Placed := by
    refine ⟨hnumbered, ?_⟩
    intro j q hj
    rw [hidle.get?] at hj
    cases hj
  have hc := h.invariant hinit fun c l c' hc hok hstep => step_numbered hc hok hstep
  have hm := hc.1.delivered m hnew
  have hplaced := hc.2 i p hp
  cases Pool.stepped_of_step hstep with
  | advance _ _ p' q hp' hact _ =>
    rw [hp] at hp'
    cases hp'
    cases p with
    | releasing k =>
      cases e with
      | exec now =>
        simp only [act] at hact
        split at hact <;>
          simp only [Option.some.injEq, Prod.mk.injEq] at hact <;>
          rw [← hact.1] <;> simp
      | _ => cases hact
    | tearing k todo =>
      -- it made the last claim, so nobody with a later one can have delivered
      cases hold
      simp only [Placed] at hplaced
      omega
    | _ => cases hold

/-! ## a reconnect -/

namespace Sample

/-- User 7 holds the lock. -/
def idle : Pool Station Proc where
  shared :=
    { Inventory.Sample.registry with
      current := none, claims := 0, delivered := [],
      scan := none, lock := grantTo 7 0, gate := {}, broadcasts := [] }
  procs := Table.empty

/-- A connection opens and delivers its inventory. -/
def opening (i : Nat) (now : Time) : List (Sched Request Event) :=
  [.spawn i .connect, .advance i (.exec now), .advance i (.exec now),
    .advance i (.inventory { Inventory.Sample.env with now }
      [⟨some (.int 1), [Inventory.Sample.fm "a"]⟩])]

/-- Its socket closes, and it gives the presence row up. -/
def closing (i : Nat) (now : Time) : List (Sched Request Event) :=
  [.advance i .close, .advance i (.exec now)]

/-- User 7 starts a scan. -/
def scanning (now : Time) : List (Sched Request Event) :=
  [.spawn 9 (.startScan ⟨7, "s1"⟩), .advance 9 (.exec now)]

/-- The four awaits of a teardown that change the station. -/
def tearing (i : Nat) (now : Time) : List (Sched Request Event) :=
  [.advance i (.exec now), .advance i (.exec now), .advance i (.exec now), .advance i (.exec now)]

/-- The connections that delivered, the module's presence, the scan and the
holder. -/
structure Overview where
  delivered : List Nat
  online : Option Bool
  scan : Option ActiveScan
  holder : Option Pk
deriving DecidableEq

def overview (c : Pool Station Proc) : Overview :=
  ⟨c.shared.delivered, (c.shared.modules.get? ("1", "fm")).map (·.online), c.shared.scan,
    c.shared.lock.holder⟩

end Sample

/-- The old connection notices its end only after the new one has delivered. -/
theorem stale_disconnect_inert_sample : ∃ c c',
    Reachable stationStep (fun c l => claimsDuringTeardown c l = false) Sample.idle c ∧
    (∃ p, c.procs.get? 0 = some p ∧ p.disconnecting = some 0) ∧ 1 ∈ c.shared.delivered ∧
    stationStep c (.advance 0 (.exec 5)) = some c' ∧ c'.shared.modules = c.shared.modules := by
  obtain ⟨c, hreach, hnew, hproc, hsome⟩ := exists_avoiding stationStep claimsDuringTeardown
    Sample.idle (Sample.opening 0 1 ++ Sample.opening 1 2 ++ [.advance 0 .close])
    (P := fun c => 1 ∈ c.shared.delivered ∧
      (c.procs.get? 0).bind Proc.disconnecting = some 0 ∧
      (stationStep c (.advance 0 (.exec 5))).isSome = true) (by decide +kernel)
  obtain ⟨p, hp, hold⟩ := Option.bind_eq_some_iff.mp hproc
  obtain ⟨c', hstep⟩ := Option.isSome_iff_exists.mp hsome
  have hnumbered : Sample.idle.shared.Numbered := by
    constructor
    · intro n hn
      cases hn
    · intro n hn
      cases hn
  exact ⟨c, c', hreach, ⟨p, hp, hold⟩, hnew, hstep,
    (stale_disconnect_inert Sample.idle c c' rfl hnumbered hreach 0 0 1 p hp hold hnew (by decide)
      (.exec 5) hstep).1⟩

/-- The new connection claims and delivers between the old one's release and
the rest of its teardown: the teardown then takes the module offline, drops the
new scan and frees the lock. -/
theorem live_connection_wiped : ∃ c c', Reachable stationStep (fun _ _ => True) Sample.idle c ∧
    (∃ p, c.procs.get? 0 = some p ∧ p.disconnecting = some 0) ∧
    run stationStep c (Sample.tearing 0 6) = some c' ∧
    Sample.overview c = ⟨[1, 0], some true, some ⟨7, "s1"⟩, some 7⟩ ∧
    Sample.overview c' = ⟨[1, 0], some false, none, none⟩ := by
  obtain ⟨c, hreach, heq, hproc, hrun⟩ := exists_reachable stationStep Sample.idle
    (Sample.opening 0 1 ++ Sample.closing 0 2 ++ Sample.opening 1 3 ++ Sample.scanning 4)
    (P := fun c => Sample.overview c = ⟨[1, 0], some true, some ⟨7, "s1"⟩, some 7⟩ ∧
      (c.procs.get? 0).bind Proc.disconnecting = some 0 ∧
      (run stationStep c (Sample.tearing 0 6)).map Sample.overview =
        some ⟨[1, 0], some false, none, none⟩) (by decide +kernel)
  obtain ⟨p, hp, hold⟩ := Option.bind_eq_some_iff.mp hproc
  obtain ⟨c', hc', heq'⟩ := Option.map_eq_some_iff.mp hrun
  exact ⟨c, c', hreach, ⟨p, hp, hold⟩, hc', heq, heq'⟩

end StationManager.Control.Presence
