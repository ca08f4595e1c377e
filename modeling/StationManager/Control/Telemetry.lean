import StationManager.Agent.Telemetry
import StationManager.Control.Capabilities
import StationManager.Lib.Transition
import Mathlib.Data.List.Sort
import Mathlib.Algebra.Order.Ring.Unbundled.Rat

/-!
# StationManager.Control.Telemetry

Reference-counted telemetry subscriptions of one station.  Every browser
connection has rows of its own; the agent has one subscription for each (slot,
module).  The operations of `telemetry_subscriptions.py` change the rows and
emit the frames that turn the old demand into the new one.

The clock is read more than once in an operation: by the purge of stale rows,
and again whenever the demand of an address is read.  `Clock` names these
readings; nothing relates them to each other here.
-/

namespace StationManager.Control.Telemetry

open Agent.Telemetry (Addr Frame)

/-! ## rows -/

structure RowKey where
  channel : Nat
  addr : Addr
  capability : String
deriving DecidableEq, Repr

/-- A `TelemetrySubscription` row. -/
structure Row where
  intervalMs : Nat
  lastSeen : Time
deriving DecidableEq, Repr

abbrev Rows := Table RowKey Row

/-- `STALE_AFTER_SECONDS` -/
def staleAfter : Time := 180000000

/-- `MAX_ROWS_PER_CHANNEL` -/
def maxRowsPerChannel : Nat := 64

/-- The row is not older than the cutoff of this reading of the clock. -/
def Row.fresh (row : Row) (now : Time) : Bool := now ≤ row.lastSeen + staleAfter

/-- `clamp_interval`; what is not a positive number gets the default. -/
def clampInterval : Option Scalar → Nat
  | some (.int n) => if n ≤ 0 then 1000 else (min (max n 250) 10000).toNat
  | some (.float (.finite q)) => if q ≤ 0 then 1000 else (min (max q 250) 10000).floor.toNat
  | some (.float .inf) => 10000
  | _ => 1000

/-- The entries of an address. -/
def rowsAt (rows : Rows) (a : Addr) : List (RowKey × Row) := rows.entries.filter (·.1.addr = a)

/-- The demand of some rows: their capabilities, sorted, and the fastest
interval. -/
def demandOf (entries : List (RowKey × Row)) : List String × Option Nat :=
  ((entries.map (·.1.capability)).dedup.insertionSort (· ≤ ·), (entries.map (·.2.intervalMs)).min?)

/-- The demand of an address, stale rows included. -/
def demand (rows : Rows) (a : Addr) : List String × Option Nat := demandOf (rowsAt rows a)

/-- `_state`: the demand of the rows that are not stale. -/
def state (rows : Rows) (a : Addr) (now : Time) : List String × Option Nat :=
  demandOf ((rowsAt rows a).filter (·.2.fresh now))

/-- Addresses in order of slot, then module. -/
def addrLe (a b : Addr) : Prop := a.1 < b.1 ∨ a.1 = b.1 ∧ a.2 ≤ b.2

instance : DecidableRel addrLe := fun _ _ => inferInstanceAs (Decidable (_ ∨ _))

/-- `_addrs` -/
def addrs (entries : List (RowKey × Row)) : List Addr :=
  (entries.map (·.1.addr)).dedup.insertionSort addrLe

/-! ## frames -/

/-- `_transition`: the frames that turn one demand into another. -/
def transition (a : Addr) (before after : List String × Option Nat) : List Frame :=
  let gone := before.1.filter (· ∉ after.1)
  let released := if gone = [] then [] else [Frame.unsubscribe a gone]
  if after.1 = [] then released
  else
    let new := after.1.filter (· ∉ before.1)
    if after.2 ≠ before.2 then released ++ [.subscribe a after.1 after.2]
    else if new ≠ [] then released ++ [.subscribe a new after.2]
    else released

/-- The readings of the clock in one operation, by what they are for. -/
structure Clock where
  check : Time
  touch : Time
  stale : Time
  purged : Addr → Time
  before : Addr → Time
  created : String → Time
  after : Addr → Time

/-- `touch`: stamp the rows of a connection. -/
def touch (rows : Rows) (channel : Nat) (now : Time) : Rows :=
  rows.map fun k row => if k.channel = channel then { row with lastSeen := now } else row

/-- The rows that the purge leaves. -/
def purged (k : Clock) (rows : Rows) : Rows := rows.filter fun _ row => row.fresh k.stale

/-- `_purge_stale_locked`; the old demand counts the stale rows too. -/
def purgeStaleLocked (k : Clock) (rows : Rows) : Rows × List Frame :=
  let stale := addrs (rows.entries.filter fun e => !e.2.fresh k.stale)
  (purged k rows,
    stale.flatMap fun a => transition a (demand rows a) (state (purged k rows) a (k.purged a)))

/-- `purge_stale`: nothing is done unless a row is stale. -/
def purgeStale (k : Clock) (rows : Rows) : Rows × List Frame :=
  if rows.entries.any fun e => !e.2.fresh k.check then purgeStaleLocked k rows else (rows, [])

/-- `_described_caps`; `described` has the names of the registered module's
descriptor. -/
def describedCaps (described : Option (List String)) (caps : List String) : List String :=
  match described with
  | none => []
  | some [] => caps
  | some names => caps.filter (· ∈ names)

/-- Create the missing rows of a connection while there is room. -/
def createRows (channel : Nat) (a : Addr) (intervalMs : Nat) (created : String → Time) :
    List String → Nat → Rows → Rows
  | [], _, rows => rows
  | cap :: caps, room, rows =>
    if (rows.get? ⟨channel, a, cap⟩).isSome then
      createRows channel a intervalMs created caps room rows
    else match room with
      | 0 => rows
      | room + 1 => createRows channel a intervalMs created caps room
          (rows.insert ⟨channel, a, cap⟩ ⟨intervalMs, created cap⟩)

/-- `subscribe` -/
def subscribe (k : Clock) (channel : Nat) (a : Addr) (described : Option (List String))
    (caps : List String) (interval : Option Scalar) (rows : Rows) : Rows × List Frame :=
  let caps := describedCaps described caps
  if caps = [] then (rows, [])
  else
    let (rows, frames) := purgeStaleLocked k (touch rows channel k.touch)
    let room := maxRowsPerChannel - (rows.entries.filter (·.1.channel = channel)).length
    let rows' := createRows channel a (clampInterval interval) k.created caps room rows
    (rows', frames ++ transition a (state rows a (k.before a)) (state rows' a (k.after a)))

/-- The rows a connection has for some capabilities of an address. -/
def mine (channel : Nat) (a : Addr) (caps : List String) (key : RowKey) : Bool :=
  key.channel = channel && key.addr = a && key.capability ∈ caps

/-- `unsubscribe` -/
def unsubscribe (k : Clock) (channel : Nat) (a : Addr) (caps : List String) (rows : Rows) :
    Rows × List Frame :=
  if rows.entries.any fun e => mine channel a caps e.1 then
    let (rows, frames) := purgeStaleLocked k rows
    let rows' := rows.filter fun key _ => !mine channel a caps key
    (rows', frames ++ transition a (state rows a (k.before a)) (state rows' a (k.after a)))
  else (rows, [])

/-- `drop_channel` -/
def dropChannel (k : Clock) (channel : Nat) (rows : Rows) : Rows × List Frame :=
  let (rows, frames) := purgeStaleLocked k rows
  let rows' := rows.filter fun key _ => key.channel ≠ channel
  (rows', frames ++ (addrs (rows.entries.filter (·.1.channel = channel))).flatMap fun a =>
    transition a (state rows a (k.before a)) (state rows' a (k.after a)))

/-- `active_subscriptions`: the whole demand, for an agent that has none. -/
def activeSubscriptions (k : Clock) (rows : Rows) : Rows × List Frame :=
  let (rows, _) := purgeStaleLocked k rows
  (rows, (addrs rows.entries).flatMap fun a =>
    let (caps, intervalMs) := state rows a (k.before a)
    if caps = [] then [] else [.subscribe a caps intervalMs])

/-! ## server and agent -/

/-- The rows, and the agent's broker. -/
structure System where
  rows : Rows
  broker : Agent.Telemetry.Broker

/-- The operations; `reconnect` is the replay for a fresh agent. -/
inductive Label
  | subscribe (k : Clock) (channel : Nat) (a : Addr) (described : Option (List String))
      (caps : List String) (interval : Option Scalar)
  | unsubscribe (k : Clock) (channel : Nat) (a : Addr) (caps : List String)
  | dropChannel (k : Clock) (channel : Nat)
  | purgeStale (k : Clock)
  | touch (channel : Nat) (now : Time)
  | reconnect (k : Clock)

section Step

variable (cfg : Agent.Telemetry.Settings) (desc : Agent.Telemetry.Descriptor)

/-- Relay the frames of an operation. -/
def System.after (s : System) (r : Rows × List Frame) : System :=
  ⟨r.1, Agent.Telemetry.deliver cfg desc s.broker r.2⟩

/-- One operation, with its frames delivered in order. -/
def step (s : System) : Label → Option System
  | .subscribe k channel a described caps interval =>
    some (s.after cfg desc (subscribe k channel a described caps interval s.rows))
  | .unsubscribe k channel a caps => some (s.after cfg desc (unsubscribe k channel a caps s.rows))
  | .dropChannel k channel => some (s.after cfg desc (dropChannel k channel s.rows))
  | .purgeStale k => some (s.after cfg desc (purgeStale k s.rows))
  | .touch channel now => some { s with rows := touch s.rows channel now }
  | .reconnect k =>
    some ({ s with broker := Table.empty }.after cfg desc (activeSubscriptions k s.rows))

/-- A row that the operation's purge leaves counts as stale at a later reading
of the same operation. -/
def lapses (k : Clock) (rows : Rows) : Bool :=
  rows.entries.any fun e => e.2.fresh k.stale &&
    !(e.2.fresh (k.purged e.1.addr) && e.2.fresh (k.before e.1.addr) &&
      e.2.fresh (k.after e.1.addr))

/-- A row goes stale in the middle of the operation. -/
def goesStale (s : System) : Label → Bool
  | .subscribe k channel a described caps _ =>
    lapses k (touch s.rows channel k.touch) ||
      (describedCaps described caps).any fun cap =>
        !(Row.mk 0 (k.created cap)).fresh (k.after a)
  | .unsubscribe k .. | .dropChannel k _ | .purgeStale k | .reconnect k => lapses k s.rows
  | .touch .. => false

/-- The agent's descriptor declares the capabilities of a subscribe as
telemetry. -/
def declared : Label → Bool
  | .subscribe _ _ a described caps _ =>
    (describedCaps described caps).all fun cap => (desc a cap).isSome
  | _ => true

end Step

end StationManager.Control.Telemetry
