import StationManager.Firmware.System

/-!
# StationManager.Control.Lock

The TX lock of `apps/control/lock.py`.  Every operation is one row-locked
transaction on the `ControlLock` row of (station, scope), which it creates
when it is missing.  The operations that can give out control take the drain
state as an argument: the code evaluates it before it locks the row.
-/

namespace StationManager.Control

open Firmware

/-- The lock operations.  `authorized` says whether the target user of a
transfer exists and may use the station, `scanning` whether a running scan
counts as activity. -/
inductive LockOp
  | acquire (user : Pk)
  | release (user : Pk)
  | requestControl (user : Pk)
  | transfer (fromUser toUser : Pk) (authorized : Bool)
  | preempt (user : Pk)
  | touch (user : Pk)
  | holderDisconnected (user : Pk) (graceSeconds : Nat)
  | holderReconnected (user : Pk)
  | sweep (idleSeconds : Nat) (scanning : Bool)
  | forceFree
deriving DecidableEq, Repr

/-- What the caller gets back; `held` is the lock that `request_control`
returns when another user has it. -/
inductive Reply
  | yes
  | drainRefused
  | no
  | held
deriving DecidableEq, Repr

/-- The operations that evaluate the drain first. -/
def LockOp.evaluatesDrain : LockOp → Bool
  | .acquire _ | .requestControl _ | .transfer .. | .preempt _ => true
  | _ => false

/-! ## the transactions on the row -/

/-- The columns of a new grant. -/
def grantTo (user : Pk) (now : Time) : ControlLock :=
  { holder := some user, acquiredAt := some now, lastActivity := some now }

def acquire (user : Pk) (now : Time) (draining : Bool) (lock : ControlLock) : ControlLock × Reply :=
  if lock.holder = some user ∨ lock.holder = none then
    if lock.holder = none ∧ draining then (lock, .drainRefused)
    else
      ({ holder := some user
         acquiredAt := if lock.holder = none then some now else lock.acquiredAt
         lastActivity := some now
         pendingReleaseAt := none }, .yes)
  else (lock, .no)

def release (user : Pk) (lock : ControlLock) : ControlLock × Reply :=
  if lock.holder = some user then ({}, .yes) else (lock, .no)

def requestControl (user : Pk) (draining : Bool) (lock : ControlLock) : ControlLock × Reply :=
  if lock.holder ≠ none ∧ lock.holder ≠ some user then (lock, .held)
  else if lock.holder = none ∧ draining then (lock, .drainRefused)
  else (lock, .no)

def transfer (fromUser toUser : Pk) (authorized : Bool) (now : Time) (draining : Bool)
    (lock : ControlLock) : ControlLock × Reply :=
  if lock.holder ≠ some fromUser then (lock, .no)
  else if ¬authorized then (lock, .no)
  else if draining then (lock, .drainRefused)
  else (grantTo toUser now, .yes)

/-- Taking a held lock is allowed while draining; a free one is a new grant. -/
def preempt (user : Pk) (now : Time) (draining : Bool) (lock : ControlLock) :
    ControlLock × Reply :=
  if lock.holder = none ∧ draining then (lock, .drainRefused) else (grantTo user now, .yes)

def touch (user : Pk) (now : Time) (lock : ControlLock) : ControlLock × Reply :=
  if lock.holder = some user then ({ lock with lastActivity := some now }, .yes) else (lock, .no)

def holderDisconnected (user : Pk) (graceSeconds : Nat) (now : Time) (lock : ControlLock) :
    ControlLock × Reply :=
  if lock.holder = some user then
    ({ lock with pendingReleaseAt := some (now + graceSeconds * 1000000) }, .yes)
  else (lock, .no)

def holderReconnected (user : Pk) (lock : ControlLock) : ControlLock × Reply :=
  if lock.holder = some user ∧ lock.pendingReleaseAt ≠ none then
    ({ lock with pendingReleaseAt := none }, .yes)
  else (lock, .no)

/-- A lock is freed when the reconnect grace or the idle window has lapsed; a
watched scan refreshes the idle window. -/
def sweep (idleSeconds : Nat) (scanning : Bool) (now : Time) (lock : ControlLock) :
    ControlLock × Reply :=
  if lock.holder = none then (lock, .no)
  else
    let graceLapsed : Bool := match lock.pendingReleaseAt with
      | none => false
      | some t => t ≤ now
    let idleLapsed : Bool := match lock.lastActivity with
      | none => false
      | some t => t + idleSeconds * 1000000 < now
    if idleLapsed ∧ lock.pendingReleaseAt = none ∧ scanning then
      ({ lock with lastActivity := some now }, .no)
    else if graceLapsed ∨ idleLapsed then ({}, .yes)
    else (lock, .no)

def forceFree (lock : ControlLock) : ControlLock × Reply :=
  if lock.holder = none then (lock, .no) else ({}, .yes)

/-- The transaction of an operation, given the drain state it evaluated. -/
def LockOp.apply (op : LockOp) (now : Time) (draining : Bool) (lock : ControlLock) :
    ControlLock × Reply :=
  match op with
  | .acquire user => Control.acquire user now draining lock
  | .release user => Control.release user lock
  | .requestControl user => Control.requestControl user draining lock
  | .transfer fromUser toUser authorized =>
    Control.transfer fromUser toUser authorized now draining lock
  | .preempt user => Control.preempt user now draining lock
  | .touch user => Control.touch user now lock
  | .holderDisconnected user grace => Control.holderDisconnected user grace now lock
  | .holderReconnected user => Control.holderReconnected user lock
  | .sweep idle scanning => Control.sweep idle scanning now lock
  | .forceFree => Control.forceFree lock

/-- The lock row of (station, scope), created free when it is missing. -/
def lockRow (db : Db) (station : Pk) (scope : String) : ControlLock :=
  (db.locks.get? (station, scope)).getD {}

/-- Run a lock operation on its row. -/
def applyLock (db : Db) (now : Time) (station : Pk) (scope : String) (op : LockOp)
    (draining : Bool) : Db :=
  let lock := (op.apply now draining (lockRow db station scope)).1
  { db with locks := (db.locks.insert (station, scope) lock).modify (station, scope) fun _ => lock }

/-- The operation gives a free lock to a user. -/
def grantsFree (db : Db) (now : Time) (station : Pk) (scope : String) (op : LockOp)
    (draining : Bool) : Bool :=
  (lockRow db station scope).holder = none ∧
    (op.apply now draining (lockRow db station scope)).1.holder ≠ none

/-! ## who can get a free lock -/

variable (db : Db) (now : Time) (station : Pk) (scope : String) (op : LockOp)

theorem get?_applyLock (draining : Bool) (key : Pk × String) :
    (applyLock db now station scope op draining).locks.get? key = if key = (station, scope) then
        some (op.apply now draining (lockRow db station scope)).1 else db.locks.get? key := by
  simp only [applyLock, Table.get?_modify, Table.get?_insert]
  split <;> simp

/-- A station's lock is held when one of its rows has a holder. -/
theorem lockHeld_iff : db.lockHeld station = true ↔
      ∃ scope lock, db.locks.get? (station, scope) = some lock ∧ lock.holder.isSome = true := by
  unfold Db.lockHeld
  rw [List.any_eq_true]
  constructor
  · rintro ⟨⟨⟨s, scope⟩, lock⟩, hmem, h⟩
    simp only [decide_eq_true_eq] at h
    obtain ⟨rfl, hheld⟩ := h
    exact ⟨scope, lock, (Table.mem_entries_iff _ _ _).mp hmem, hheld⟩
  · rintro ⟨scope, lock, hget, hheld⟩
    exact ⟨((station, scope), lock), (Table.mem_entries_iff _ _ _).mpr hget, by simp [hheld]⟩

/-- An operation that gives out no free lock leaves a free station free; one
on another station does so anyway. -/
theorem lockHeld_applyLock {db : Db} {s station : Pk} (draining : Bool)
    (hfree : db.lockHeld s = false)
    (h : s = station → grantsFree db now station scope op draining = false) :
    (applyLock db now station scope op draining).lockHeld s = false := by
  rw [Bool.eq_false_iff] at hfree ⊢
  intro hheld
  obtain ⟨sc, lock, hget, hlock⟩ := (lockHeld_iff _ s).mp hheld
  rw [get?_applyLock] at hget
  split at hget
  · next hkey =>
    cases hkey
    cases hget
    have hnone : (lockRow db s scope).holder = none := by
      unfold lockRow
      cases hrow : db.locks.get? (s, scope) with
      | none => rfl
      | some row =>
        rw [Option.getD_some]
        by_contra hne
        exact hfree ((lockHeld_iff db s).mpr
          ⟨scope, row, hrow, Option.isSome_iff_ne_none.mpr hne⟩)
    have hg := h rfl
    simp only [grantsFree, hnone, true_and, decide_eq_false_iff_not, ne_eq, not_not] at hg
    rw [hg] at hlock
    cases hlock
  · exact hfree ((lockHeld_iff db s).mpr ⟨sc, lock, hget, hlock⟩)

/-! ## who keeps the lock -/

/-- The operation ends the control of `u`: their own release or transfer, a preemption, a
forced end, or a sweep after the grace or the idle window. -/
def LockOp.ends (u : Pk) (now : Time) (lock : ControlLock) : LockOp → Prop
  | .release v => v = u
  | .transfer v _ authorized => v = u ∧ authorized = true
  | .preempt v => v ≠ u
  | .sweep idle _ => (∃ t, lock.pendingReleaseAt = some t ∧ t ≤ now) ∨
      ∃ t, lock.lastActivity = some t ∧ t + idle * 1000000 < now
  | .forceFree => True
  | _ => False

/-- An operation at a time, with the drain state it evaluated. -/
def lockStep (lock : ControlLock) (e : Time × Bool × LockOp) : Option ControlLock :=
  some (e.2.2.apply e.1 e.2.1 lock).1

/-- **Control is kept.**  Whatever the users do, at any times and drain states, a holder keeps
the lock until an operation ends it by one of the rules. -/
theorem control_kept {u : Pk} {lock lock' : ControlLock}
    (h : Reachable lockStep (fun lock e => ¬e.2.2.ends u e.1 lock) lock lock')
    (hu : lock.holder = some u) : lock'.holder = some u := by
  refine h.invariant (P := fun lock => lock.holder = some u) hu ?_
  rintro lock ⟨now, draining, op⟩ _ hu hop ⟨⟩
  cases op with
  | acquire v => grind [LockOp.apply, acquire]
  | release v => grind [LockOp.apply, release, LockOp.ends]
  | requestControl v => grind [LockOp.apply, requestControl]
  | transfer v w authorized => grind [LockOp.apply, transfer, LockOp.ends]
  | preempt v => grind [LockOp.apply, preempt, LockOp.ends, grantTo]
  | touch v => grind [LockOp.apply, touch]
  | holderDisconnected v grace => grind [LockOp.apply, holderDisconnected]
  | holderReconnected v => grind [LockOp.apply, holderReconnected]
  | sweep idle scanning => grind [LockOp.apply, sweep, LockOp.ends]
  | forceFree => exact absurd trivial hop

/-- The connection of user 1 breaks off.  User 2 asks for the lock and tries to take it, and a
sweep comes before user 1 is back. -/
theorem control_kept_acquire : ∃ lock, run lockStep (grantTo 1 0)
      [(1, false, .holderDisconnected 1 30), (2, false, .requestControl 2),
        (3, false, .acquire 2), (4, true, .sweep 60 false),
        (5, false, .holderReconnected 1)] = some lock ∧ lock.holder = some 1 := by
  refine ⟨_, rfl, control_kept (.step (.step (.step (.step (.step .init
    (i := (1, false, .holderDisconnected 1 30)) (by simp [LockOp.ends]) rfl)
    (i := (2, false, .requestControl 2)) (by simp [LockOp.ends]) rfl)
    (i := (3, false, .acquire 2)) (by simp [LockOp.ends]) rfl)
    (i := (4, true, .sweep 60 false)) ?_ rfl)
    (i := (5, false, .holderReconnected 1)) (by simp [LockOp.ends]) rfl) rfl⟩
  rintro (⟨_, ⟨⟩, hgrace⟩ | ⟨_, ⟨⟩, hidle⟩)
  · exact absurd hgrace (by decide)
  · exact absurd hidle (by decide)

end StationManager.Control
