import StationManager.Lib.Table

/-!
# StationManager.Agent.Telemetry

Telemetry subscriptions of the agent's broker: one for every (slot, module),
with the capabilities it polls and the interval that was asked for.  Messages
are handled one after the other, so a handler is one step here.
-/

namespace StationManager.Agent.Telemetry

/-- Slot and module. -/
abbrev Addr := Int × String

/-- What the broker knows about a module: for each capability that its
descriptor declares as telemetry the smallest polling interval, in
milliseconds. -/
abbrev Descriptor := Addr → String → Option Nat

structure Settings where
  defaultIntervalMs : Nat := 1000
  minFloorMs : Nat := 200

/-- A subscription. -/
structure Sub where
  caps : List String
  requestedMs : Nat
  intervalMs : Nat
deriving DecidableEq, Repr

/-- Telemetry frames from the server. -/
inductive Frame
  | subscribe (a : Addr) (caps : List String) (intervalMs : Option Nat)
  | unsubscribe (a : Addr) (caps : List String)
deriving DecidableEq, Repr

/-- The subscriptions by address. -/
abbrev Broker := Table Addr Sub

section Broker

variable (cfg : Settings) (desc : Descriptor)

/-- `_telemetry_caps`: the requested names that are telemetry, and the smallest
interval that all of them allow. -/
def telemetryCaps (a : Addr) (requested : List String) : List String × Nat :=
  (requested.filter fun name => (desc a name).isSome,
    (requested.filterMap (desc a)).foldl max cfg.minFloorMs)

/-- The subscription to some capabilities; its interval is one that all of them allow. -/
def subFor (a : Addr) (caps : List String) (requestedMs : Nat) : Sub :=
  ⟨caps, requestedMs, max requestedMs (telemetryCaps cfg desc a caps).2⟩

/-- The interval of a subscribe frame, or the default. -/
def asked : Option Nat → Nat
  | some n => if n = 0 then cfg.defaultIntervalMs else n
  | none => cfg.defaultIntervalMs

/-- The capabilities of a subscription, if there is one. -/
def held (sub : Option Sub) : List String := (sub.map Sub.caps).getD []

/-- `handle_subscribe`: the capabilities are merged, the interval is the one
asked for last. -/
def handleSubscribe (b : Broker) (a : Addr) (requested : List String)
    (intervalMs : Option Nat) : Broker :=
  let valid := (telemetryCaps cfg desc a requested).1
  if valid = [] then b
  else
    let caps := valid ++ (held (b.get? a)).filter (· ∉ valid)
    b.put a (subFor cfg desc a caps (asked cfg intervalMs))

/-- `handle_unsubscribe`: the rest keeps its interval; an empty subscription is
dropped. -/
def handleUnsubscribe (b : Broker) (a : Addr) (requested : List String) : Broker :=
  match b.get? a with
  | none => b
  | some sub =>
    let caps := sub.caps.filter (· ∉ requested)
    if caps = [] then b.erase a else b.put a (subFor cfg desc a caps sub.requestedMs)

def handle (b : Broker) : Frame → Broker
  | .subscribe a caps intervalMs => handleSubscribe cfg desc b a caps intervalMs
  | .unsubscribe a caps => handleUnsubscribe cfg desc b a caps

/-- Frames delivered in order. -/
def deliver (b : Broker) (frames : List Frame) : Broker := frames.foldl (handle cfg desc) b

end Broker

/-! ## what a frame does -/

/-- The module that a frame is for. -/
def Frame.addr : Frame → Addr
  | .subscribe a _ _ | .unsubscribe a _ => a

section Laws

variable (cfg : Settings) (desc : Descriptor)

/-- What a frame for a module makes of its subscription. -/
def hears (a : Addr) (o : Option Sub) : Frame → Option Sub
  | .subscribe _ requested intervalMs =>
    let valid := (telemetryCaps cfg desc a requested).1
    if valid = [] then o
    else some (subFor cfg desc a (valid ++ (held o).filter (· ∉ valid)) (asked cfg intervalMs))
  | .unsubscribe _ requested => o.bind fun sub =>
    let caps := sub.caps.filter (· ∉ requested)
    if caps = [] then none else some (subFor cfg desc a caps sub.requestedMs)

/-- A frame is about its module only. -/
theorem get?_handle (b : Broker) (f : Frame) (a : Addr) :
    (handle cfg desc b f).get? a = if f.addr = a then hears cfg desc a (b.get? a) f
      else b.get? a := by
  by_cases h : f.addr = a
  · subst h
    rw [if_pos rfl]
    cases f with
    | subscribe a caps intervalMs =>
      change (handleSubscribe cfg desc b a caps intervalMs).get? a = hears cfg desc a (b.get? a) _
      simp only [handleSubscribe, hears]
      by_cases hvalid : (telemetryCaps cfg desc a caps).1 = []
      · rw [if_pos hvalid, if_pos hvalid]
      · rw [if_neg hvalid, if_neg hvalid, Table.get?_put, if_pos rfl]
    | unsubscribe a caps =>
      change (handleUnsubscribe cfg desc b a caps).get? a = hears cfg desc a (b.get? a) _
      simp only [handleUnsubscribe, hears]
      cases hb : b.get? a with
      | none => exact hb
      | some sub =>
        simp only [Option.bind_some]
        split
        · rw [Table.get?_erase, if_pos rfl]
        · rw [Table.get?_put, if_pos rfl]
  · rw [if_neg h]
    have hput : ∀ sub, (b.put f.addr sub).get? a = b.get? a := fun sub => by
      rw [Table.get?_put, if_neg (Ne.symm h)]
    have herase : (b.erase f.addr).get? a = b.get? a := by
      rw [Table.get?_erase, if_neg (Ne.symm h)]
    cases f with
    | subscribe x caps intervalMs =>
      simp only [handle, handleSubscribe]
      split
      · rfl
      · exact hput _
    | unsubscribe x caps =>
      simp only [handle, handleUnsubscribe]
      split
      · rfl
      · split
        · exact herase
        · exact hput _

/-- So a module's subscription comes from the frames for it. -/
theorem get?_deliver (b : Broker) (frames : List Frame) (a : Addr) :
    (deliver cfg desc b frames).get? a =
      (frames.filter (·.addr = a)).foldl (hears cfg desc a) (b.get? a) := by
  induction frames generalizing b with
  | nil => rfl
  | cons f frames ih =>
    have hf := get?_handle cfg desc b f a
    by_cases h : f.addr = a
    · rw [if_pos h] at hf
      rw [List.filter_cons_of_pos (by simpa using h), List.foldl_cons, ← hf]
      exact ih (handle cfg desc b f)
    · rw [if_neg h] at hf
      rw [List.filter_cons_of_neg (by simpa using h), ← hf]
      exact ih (handle cfg desc b f)

variable (a x : Addr) (o : Option Sub)

/-- Subscribing to declared capabilities. -/
theorem hears_subscribe {caps : List String} {ms : Nat}
    (hdesc : ∀ name ∈ caps, (desc a name).isSome = true) (hcaps : caps ≠ []) (hms : 0 < ms) :
    (hears cfg desc a o (.subscribe x caps (some ms))).map Sub.requestedMs = some ms ∧
      ∀ name, name ∈ held (hears cfg desc a o (.subscribe x caps (some ms))) ↔
        name ∈ caps ∨ name ∈ held o := by
  have hvalid : (telemetryCaps cfg desc a caps).1 = caps := by simpa [telemetryCaps] using hdesc
  simp only [hears, hvalid, if_neg hcaps, asked, if_neg (Nat.ne_of_gt hms)]
  refine ⟨rfl, fun name => ?_⟩
  by_cases hname : name ∈ caps <;> simp [held, subFor, hname]

/-- Unsubscribing from some of the capabilities. -/
theorem hears_unsubscribe (caps : List String) :
    (hears cfg desc a o (.unsubscribe x caps)).map Sub.requestedMs =
        (if (held o).all (· ∈ caps) then none else o.map Sub.requestedMs) ∧
      ∀ name, name ∈ held (hears cfg desc a o (.unsubscribe x caps)) ↔
        name ∈ held o ∧ name ∉ caps := by
  cases o with
  | none => simp [hears, held]
  | some sub =>
    simp only [hears, held, Option.bind_some, Option.map_some, Option.getD_some]
    split
    · next h =>
      have hall : ∀ name ∈ sub.caps, name ∈ caps := by simpa using h
      simpa [List.all_eq_true.mpr fun name hname => decide_eq_true (hall name hname)] using hall
    · next h => simp_all [subFor]

end Laws

end StationManager.Agent.Telemetry
