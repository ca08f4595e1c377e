import Mathlib.Data.List.Dedup
import Mathlib.Order.Bounds.Basic
import StationManager.Control.Telemetry

/-!
# StationManager.Control.TelemetryDemand

The agent's subscriptions simulate the demand of the viewers.  The frames of
`transition` turn a subscription that is armed with one demand into one that is armed
with the other (`armed_transition`), and every operation is a sequence of
phases, each of which moves the rows from one table to another and emits the
transitions of the addresses it has changed (`Sim.phase`).

What the viewers have asked for is recorded viewer by viewer, from their calls
alone (`Viewers.after`); the rows of the server are this record (`Recorded`).

A phase reads the old and the new demand at different times and leaves stale
rows out.  If a row goes stale between two readings of one operation, then the
"old demand" is not what the agent was armed with, and the agent is slowed down
for a viewer who is still there (`viewer_slowed`).
-/

namespace StationManager.Control.Telemetry

open Agent.Telemetry

variable {a : Addr} {b : Broker} {k : Clock} {entries : List (RowKey × Row)} {ms : Nat}
  {e : RowKey × Row} {rows rows' : Rows} {cfg : Settings} {desc : Descriptor}

/-! ## demand -/

theorem mem_demandOf {cap : String} :
    cap ∈ (demandOf entries).1 ↔ ∃ e ∈ entries, e.1.capability = cap := by
  simp [demandOf]

theorem demandOf_eq_nil : (demandOf entries).1 = [] ↔ entries = [] := by
  constructor
  · intro h
    refine List.eq_nil_iff_forall_not_mem.mpr fun e he => ?_
    have hmem := mem_demandOf.mpr ⟨e, he, rfl⟩
    rw [h] at hmem
    cases hmem
  · rintro rfl
    rfl

/-- The interval of a demand is the fastest one. -/
theorem isLeast_demandOf (h : (demandOf entries).2 = some ms) :
    IsLeast {ms | ∃ e ∈ entries, e.2.intervalMs = ms} ms := by
  obtain ⟨hmem, hle⟩ := List.min?_eq_some_iff.mp h
  exact ⟨List.mem_map.mp hmem, fun _ hn => hle _ (List.mem_map.mpr hn)⟩

/-! ## the broker under a transition -/

/-- The subscription is the one that a demand asks for. -/
structure Armed (o : Option Sub) (d : List String × Option Nat) : Prop where
  caps : ∀ cap, cap ∈ held o ↔ cap ∈ d.1
  interval : o.map Sub.requestedMs = d.2

/-- A demand that rows can have. -/
structure Proper (desc : Descriptor) (a : Addr) (d : List String × Option Nat) : Prop where
  interval : d.1 = [] ↔ d.2 = none
  positive : ∀ ms, d.2 = some ms → 0 < ms
  declared : ∀ cap ∈ d.1, (desc a cap).isSome = true

section Transition

variable {o : Option Sub} {before after : List String × Option Nat}

variable (cfg) in
/-- The released capabilities are gone; what is left keeps its interval. -/
theorem armed_release (hbefore : Proper desc a before) (h : Armed o before) (caps : List String) :
    Armed ((if before.1.filter (· ∉ caps) = [] then []
        else [Frame.unsubscribe a (before.1.filter (· ∉ caps))]).foldl (hears cfg desc a) o)
      (before.1.filter (· ∈ caps),
        if before.1.filter (· ∈ caps) = [] then none else before.2) := by
  by_cases hgone : before.1.filter (· ∉ caps) = []
  · have hkeep : before.1.filter (· ∈ caps) = before.1 := by simpa using hgone
    rw [if_pos hgone, hkeep]
    refine ⟨h.caps, h.interval.trans ?_⟩
    split
    · next hnil => exact hbefore.interval.mp hnil
    · rfl
  · rw [if_neg hgone]
    obtain ⟨hms, hcaps⟩ := hears_unsubscribe cfg desc a a o (before.1.filter (· ∉ caps))
    have hnil : (held o).all (· ∈ before.1.filter (· ∉ caps)) = true ↔
        before.1.filter (· ∈ caps) = [] := by
      simp only [List.all_eq_true, h.caps, List.filter_eq_nil_iff, List.mem_filter]
      grind
    refine ⟨fun cap => ?_, hms.trans ?_⟩
    · rw [List.foldl_cons, List.foldl_nil, hcaps, h.caps]
      simp only [List.mem_filter, decide_eq_true_eq]
      grind
    · simp only [hnil, h.interval]

/-- A subscribe completes the demand, at its interval. -/
theorem armed_subscribe (hafter : Proper desc a after) {caps : List String} (hcaps : caps ≠ [])
    (hmem : ∀ cap, cap ∈ caps ∨ cap ∈ held o ↔ cap ∈ after.1) :
    Armed (hears cfg desc a o (.subscribe a caps after.2)) after := by
  cases hms : after.2 with
  | none =>
    obtain ⟨cap, hcap⟩ := List.exists_mem_of_ne_nil _ hcaps
    have hin := (hmem cap).mp (.inl hcap)
    rw [hafter.interval.mpr hms] at hin
    cases hin
  | some ms =>
    have hdeclared : ∀ cap ∈ caps, (desc a cap).isSome = true :=
      fun cap hcap => hafter.declared cap ((hmem cap).mp (.inl hcap))
    obtain ⟨hreq, hheld⟩ := hears_subscribe cfg desc a a o hdeclared hcaps
      (hafter.positive ms hms)
    exact ⟨fun cap => (hheld cap).trans (hmem cap), hreq.trans hms.symm⟩

/-- **The frames of a transition.**  A subscription armed with the old demand is
armed with the new one afterwards. -/
theorem armed_transition (hbefore : Proper desc a before) (hafter : Proper desc a after)
    (h : Armed o before) :
    Armed ((transition a before after).foldl (hears cfg desc a) o) after := by
  have hrel := armed_release cfg hbefore h after.1
  simp only [transition]
  generalize (if before.1.filter (· ∉ after.1) = [] then []
    else [Frame.unsubscribe a (before.1.filter (· ∉ after.1))]) = released at hrel ⊢
  have hold := hrel.caps
  simp only [List.mem_filter, decide_eq_true_eq] at hold
  split
  · next hnil =>
    -- nothing is wanted any more
    simp only [hnil, List.not_mem_nil, decide_false, List.filter_false, if_true] at hrel
    rw [← hafter.interval.mp hnil, ← hnil] at hrel
    exact hrel
  split
  · next hne _ =>
    -- another interval: everything is asked for again
    rw [List.foldl_append]
    refine armed_subscribe hafter hne fun cap => ?_
    rw [hold]
    grind
  · next hne hsame =>
    split
    · next hnew =>
      -- only the new capabilities, at the same interval
      rw [List.foldl_append]
      refine armed_subscribe hafter hnew fun cap => ?_
      simp only [hold, List.mem_filter, decide_eq_true_eq]
      grind
    · next hnew =>
      -- nothing new: what is left of the old subscription is the new demand
      have hsub : ∀ cap ∈ after.1, cap ∈ before.1 := by simpa using hnew
      refine ⟨fun cap => ?_, hrel.interval.trans ?_⟩
      · rw [hold]
        exact ⟨fun hin => hin.2, fun hin => ⟨hsub cap hin, hin⟩⟩
      · obtain ⟨cap, hcap⟩ := List.exists_mem_of_ne_nil _ hne
        have hleft : cap ∈ before.1.filter (· ∈ after.1) := by simp [hcap, hsub cap hcap]
        rw [if_neg (List.ne_nil_of_mem hleft)]
        simpa using Eq.symm (Decidable.not_not.mp hsame)

end Transition

/-! ## phases -/

/-- What is known of the rows: an interval, and a capability that the agent declares. -/
def RowsOk (desc : Descriptor) (rows : Rows) : Prop :=
  ∀ e ∈ rows.entries, 0 < e.2.intervalMs ∧ (desc e.1.addr e.1.capability).isSome = true

theorem mem_rowsAt : e ∈ rowsAt rows a ↔ e ∈ rows.entries ∧ e.1.addr = a := by
  simp [rowsAt]

theorem proper_demand (h : RowsOk desc rows) (a : Addr) : Proper desc a (demand rows a) where
  interval := by
    rw [demand, demandOf_eq_nil]
    simp [demandOf]
  positive ms hms := by
    obtain ⟨e, he, rfl⟩ := (isLeast_demandOf hms).1
    exact (h e (mem_rowsAt.mp he).1).1
  declared cap hcap := by
    obtain ⟨e, he, rfl⟩ := mem_demandOf.mp hcap
    obtain ⟨hmem, rfl⟩ := mem_rowsAt.mp he
    exact (h e hmem).2

/-- Rows that are all fresh are all counted. -/
theorem state_eq_demand {now : Time}
    (h : ∀ e ∈ rows.entries, e.1.addr = a → e.2.fresh now = true) :
    state rows a now = demand rows a := by
  rw [state, demand, List.filter_eq_self.mpr]
  intro e he
  exact h e (mem_rowsAt.mp he).1 (mem_rowsAt.mp he).2

/-- Removing rows of other addresses. -/
theorem demand_filter {p : RowKey → Row → Bool}
    (h : ∀ e ∈ rows.entries, e.1.addr = a → p e.1 e.2 = true) :
    demand (rows.filter p) a = demand rows a := by
  have hrows : rowsAt (rows.filter p) a = rowsAt rows a := by
    simp only [rowsAt, Table.filter, List.filter_filter]
    refine List.filter_congr fun e he => ?_
    by_cases ha : e.1.addr = a
    · simpa [ha] using h e he ha
    · simp [ha]
  rw [demand, hrows, demand]

/-- The frames of a transition are for its address. -/
theorem transition_addr {f : Frame} {before after : List String × Option Nat}
    (hf : f ∈ transition a before after) : f.addr = a := by
  simp only [transition] at hf
  grind [Frame.addr]

/-- Of the transitions of several addresses each address gets its own. -/
theorem filter_transitions {before after : Addr → List String × Option Nat} {as : List Addr}
    (h : as.Nodup) (a : Addr) :
    (as.flatMap fun x => transition x (before x) (after x)).filter (·.addr = a) =
      if a ∈ as then transition a (before a) (after a) else [] := by
  induction as with
  | nil => rfl
  | cons x as ih =>
    obtain ⟨hx, h⟩ := List.nodup_cons.mp h
    rw [List.flatMap_cons, List.filter_append, ih h]
    by_cases hxa : x = a
    · subst hxa
      rw [if_neg hx, if_pos List.mem_cons_self, List.append_nil, List.filter_eq_self]
      intro f hf
      simpa using transition_addr hf
    · have hnone : (transition x (before x) (after x)).filter (·.addr = a) = [] := by
        rw [List.filter_eq_nil_iff]
        intro f hf
        simpa [transition_addr hf] using hxa
      simp [hnone, Ne.symm hxa]

/-- The agent is armed with the demand of the rows. -/
def Sim (rows : Rows) (b : Broker) : Prop := ∀ a, Armed (b.get? a) (demand rows a)

/-- **One phase.**  The rows change at the listed addresses only, and the
transitions of these addresses are read off the tables before and after. -/
theorem Sim.phase {as : List Addr} {before after : Addr → List String × Option Nat}
    (h : Sim rows b) (hok : RowsOk desc rows) (hok' : RowsOk desc rows') (hnodup : as.Nodup)
    (hbefore : ∀ a ∈ as, before a = demand rows a) (hafter : ∀ a ∈ as, after a = demand rows' a)
    (hsame : ∀ a, a ∉ as → demand rows' a = demand rows a) :
    Sim rows' (deliver cfg desc b (as.flatMap fun a => transition a (before a) (after a))) := by
  intro a
  rw [get?_deliver, filter_transitions hnodup]
  split
  · next ha =>
    rw [hbefore a ha, hafter a ha]
    exact armed_transition (proper_demand hok a) (proper_demand hok' a) (h a)
  · next ha =>
    rw [hsame a ha]
    exact h a

theorem mem_addrs : a ∈ addrs entries ↔ ∃ e ∈ entries, e.1.addr = a := by
  simp [addrs]

theorem nodup_addrs (entries : List (RowKey × Row)) : (addrs entries).Nodup :=
  (List.perm_insertionSort _ _).nodup_iff.mpr (List.nodup_dedup _)

theorem RowsOk.filter (h : RowsOk desc rows) (p : RowKey → Row → Bool) :
    RowsOk desc (rows.filter p) :=
  fun e he => h e (List.mem_of_mem_filter he)

theorem RowsOk.purged (h : RowsOk desc rows) (k : Clock) : RowsOk desc (purged k rows) :=
  h.filter _

/-- The rows that the purge leaves count at every later reading. -/
theorem fresh_of_purged (h : lapses k rows = false) (he : e ∈ (purged k rows).entries) :
    e.2.fresh (k.purged e.1.addr) = true ∧ e.2.fresh (k.before e.1.addr) = true ∧
      e.2.fresh (k.after e.1.addr) = true := by
  obtain ⟨hmem, hfresh⟩ := List.mem_filter.mp he
  simp only [lapses, List.any_eq_false] at h
  simpa [hfresh, and_assoc] using h e hmem

/-- The purge. -/
theorem Sim.purge (h : Sim rows b) (hok : RowsOk desc rows) (hlapse : lapses k rows = false) :
    Sim (purged k rows) (deliver cfg desc b (purgeStaleLocked k rows).2) := by
  refine h.phase hok (hok.purged k) (nodup_addrs _) (fun a _ => rfl) ?_ ?_
  · intro a _
    refine state_eq_demand fun e he ha => ?_
    rw [← ha]
    exact (fresh_of_purged hlapse he).1
  · intro a ha
    refine demand_filter fun e he hea => ?_
    by_contra hstale
    exact ha (mem_addrs.mpr ⟨e, by simp [he, hstale], hea⟩)

variable (cfg) in
/-- The purge, then the rows of some addresses change. -/
theorem Sim.change {as : List Addr} (h : Sim rows b) (hok : RowsOk desc rows)
    (hlapse : lapses k rows = false) (hok' : RowsOk desc rows') (hnodup : as.Nodup)
    (hfresh : ∀ e ∈ rows'.entries,
      e ∈ (purged k rows).entries ∨ e.2.fresh (k.after e.1.addr) = true)
    (hsame : ∀ a, a ∉ as → demand rows' a = demand (purged k rows) a) :
    Sim rows' (deliver cfg desc b ((purgeStaleLocked k rows).2 ++
      as.flatMap fun a => transition a (state (purged k rows) a (k.before a))
        (state rows' a (k.after a)))) := by
  rw [deliver, List.foldl_append]
  refine (h.purge hok hlapse).phase (hok.purged k) hok' hnodup ?_ ?_ hsame
  · intro a _
    refine state_eq_demand fun e he ha => ?_
    rw [← ha]
    exact (fresh_of_purged hlapse he).2.1
  · intro a _
    refine state_eq_demand fun e he ha => ?_
    rw [← ha]
    exact (hfresh e he).elim (fun hleft => (fresh_of_purged hlapse hleft).2.2) id

/-- The purge, then the rows of one address change. -/
theorem Sim.change_at (h : Sim rows b) (hok : RowsOk desc rows) (hlapse : lapses k rows = false)
    (hok' : RowsOk desc rows') (hfresh : ∀ e ∈ rows'.entries,
      e ∈ (purged k rows).entries ∨ e.2.fresh (k.after e.1.addr) = true)
    (hsame : ∀ x, x ≠ a → demand rows' x = demand (purged k rows) x) :
    Sim rows' (deliver cfg desc b ((purgeStaleLocked k rows).2 ++
      transition a (state (purged k rows) a (k.before a)) (state rows' a (k.after a)))) := by
  have hchange := h.change cfg hok hlapse hok' (List.nodup_singleton a) hfresh
    fun x hx => hsame x (List.ne_of_not_mem_cons hx)
  rwa [List.flatMap_singleton] at hchange

/-- From nothing, the frames are the ones that a fresh agent gets. -/
theorem transition_nil (a : Addr) (after : List String × Option Nat) :
    transition a ([], none) after =
      if after.1 = [] then [] else [.subscribe a after.1 after.2] := by
  simp only [transition, List.filter_nil, if_true, List.nil_append]
  split
  · rfl
  · next hne =>
    have hnew : after.1.filter (fun cap => decide (cap ∉ [])) = after.1 := by simp
    rw [hnew, if_pos hne, ite_self]

theorem Sim.empty : Sim Table.empty Table.empty := fun _ => ⟨fun _ => Iff.rfl, rfl⟩

/-- The replay for a fresh agent. -/
theorem Sim.replay (hok : RowsOk desc rows) (hlapse : lapses k rows = false) :
    Sim (purged k rows) (deliver cfg desc Table.empty (activeSubscriptions k rows).2) := by
  have hframes : (activeSubscriptions k rows).2 =
      (addrs (purged k rows).entries).flatMap fun a =>
        transition a ([], none) (state (purged k rows) a (k.before a)) := by
    simp only [activeSubscriptions, purgeStaleLocked]
    exact List.flatMap_congr fun a _ => (transition_nil ..).symm
  rw [hframes]
  refine Sim.empty.phase nofun (hok.purged k) (nodup_addrs _) (fun a _ => rfl) ?_ ?_
  · intro a _
    refine state_eq_demand fun e he ha => ?_
    rw [← ha]
    exact (fresh_of_purged hlapse he).2.1
  · intro a ha
    have hnil : rowsAt (purged k rows) a = [] := by
      rw [rowsAt, List.filter_eq_nil_iff]
      exact fun e he haddr => ha (mem_addrs.mpr ⟨e, he, by simpa using haddr⟩)
    rw [demand, hnil]
    rfl

/-! ## rows that change -/

theorem clampInterval_pos (raw : Option Scalar) : 0 < clampInterval raw := by
  match raw with
  | some (.int n) =>
    simp only [clampInterval]
    split <;> omega
  | some (.float (.finite q)) =>
    simp only [clampInterval]
    split
    · omega
    · have hle : ((250 : Int) : Rat) ≤ min (max q 250) 10000 := by
        grind
      have hfloor := Rat.le_floor_iff.mpr hle
      omega
  | some (.float .nan) | some (.float .negInf) | some (.float .inf) => simp [clampInterval]
  | some (.bool _) | some (.str _) | none => simp [clampInterval]

theorem demand_touch (rows : Rows) (channel : Nat) (now : Time) (a : Addr) :
    demand (touch rows channel now) a = demand rows a := by
  simp only [demand, rowsAt, touch, Table.map, List.filter_map, demandOf, List.map_map]
  congr 3
  funext e
  simp only [Function.comp_apply]
  split <;> rfl

theorem RowsOk.touch (h : RowsOk desc rows) (channel : Nat) (now : Time) :
    RowsOk desc (touch rows channel now) := by
  intro e he
  obtain ⟨old, hold, rfl⟩ := List.mem_map.mp he
  refine ⟨?_, (h old hold).2⟩
  dsimp only
  split <;> exact (h old hold).1

/-- The created rows come after the others. -/
theorem entries_createRows (channel : Nat) (a : Addr) (ms : Nat) (created : String → Time)
    (caps : List String) (room : Nat) (rows : Rows) :
    ∃ new, (createRows channel a ms created caps room rows).entries = rows.entries ++ new ∧
      ∀ e ∈ new, e.1.addr = a ∧ e.1.capability ∈ caps ∧ e.2 = ⟨ms, created e.1.capability⟩ := by
  fun_induction createRows channel a ms created caps room rows with
  | case1 => exact ⟨[], by simp⟩
  | case2 room cap caps rows _ ih =>
    obtain ⟨new, hnew, hall⟩ := ih
    refine ⟨new, hnew, fun e he => ?_⟩
    obtain ⟨haddr, hcap, hrow⟩ := hall e he
    exact ⟨haddr, List.mem_cons_of_mem _ hcap, hrow⟩
  | case3 => exact ⟨[], by simp⟩
  | case4 cap caps rows hfree room ih =>
    obtain ⟨new, hnew, hall⟩ := ih
    rw [Table.entries_insert _ _ (Option.not_isSome_iff_eq_none.mp hfree)] at hnew
    refine ⟨(⟨channel, a, cap⟩, ⟨ms, created cap⟩) :: new, by simp [hnew], fun e he => ?_⟩
    rcases List.mem_cons.mp he with rfl | he
    · exact ⟨rfl, List.mem_cons_self, rfl⟩
    · obtain ⟨haddr, hcap, hrow⟩ := hall e he
      exact ⟨haddr, List.mem_cons_of_mem _ hcap, hrow⟩

section Create

variable {channel room : Nat} {caps : List String} {raw : Option Scalar} {created : String → Time}

theorem RowsOk.createRows (h : RowsOk desc rows)
    (hdesc : ∀ cap ∈ caps, (desc a cap).isSome = true) :
    RowsOk desc (createRows channel a (clampInterval raw) created caps room rows) := by
  obtain ⟨new, hnew, hall⟩ :=
    entries_createRows channel a (clampInterval raw) created caps room rows
  intro e he
  rw [hnew] at he
  rcases List.mem_append.mp he with hold | hin
  · exact h e hold
  · obtain ⟨haddr, hcap, hrow⟩ := hall e hin
    rw [haddr, hrow]
    exact ⟨clampInterval_pos raw, hdesc _ hcap⟩

/-- The purge, then the missing rows are created. -/
theorem Sim.create (h : Sim rows b) (hok : RowsOk desc rows) (hlapse : lapses k rows = false)
    (hdesc : ∀ cap ∈ caps, (desc a cap).isSome = true)
    (hcreated : ∀ cap ∈ caps, (Row.mk 0 (k.created cap)).fresh (k.after a) = true) :
    Sim (Telemetry.createRows channel a (clampInterval raw) k.created caps room (purged k rows))
      (deliver cfg desc b ((purgeStaleLocked k rows).2 ++
        transition a (state (purged k rows) a (k.before a)) (state (Telemetry.createRows channel a
          (clampInterval raw) k.created caps room (purged k rows)) a (k.after a)))) := by
  obtain ⟨new, hnew, hall⟩ :=
    entries_createRows channel a (clampInterval raw) k.created caps room (purged k rows)
  refine h.change_at hok hlapse ((hok.purged k).createRows hdesc) ?_ ?_
  · intro e he
    rw [hnew] at he
    refine (List.mem_append.mp he).imp id fun hin => ?_
    obtain ⟨haddr, hcap, hrow⟩ := hall e hin
    rw [haddr, hrow]
    exact hcreated _ hcap
  · intro x hx
    have hother : new.filter (·.1.addr = x) = [] := by
      rw [List.filter_eq_nil_iff]
      intro e he
      simpa [(hall e he).1] using Ne.symm hx
    rw [demand, rowsAt, hnew, List.filter_append, hother, List.append_nil, demand, rowsAt]

end Create

/-! ## viewers -/

/-- What a viewer has asked for, and when the viewer was last heard. -/
structure Wish extends Row where
  addr : Addr
  capability : String
deriving DecidableEq, Repr

/-- The wishes of each viewer. -/
abbrev Viewers := Nat → List Wish

/-- A viewer who has been silent for too long is gone. -/
def Viewers.forget (v : Viewers) (now : Time) : Viewers := fun ch => (v ch).filter (·.fresh now)

def Viewers.hear (v : Viewers) (channel : Nat) (now : Time) : Viewers := fun ch =>
  if ch = channel then (v ch).map ({ · with lastSeen := now }) else v ch

/-- A viewer asks for a capability: the first interval counts, and a viewer has so many wishes
at most. -/
def wish (a : Addr) (ms : Nat) (created : String → Time) (ws : List Wish) (cap : String) :
    List Wish :=
  if (∃ w ∈ ws, w.addr = a ∧ w.capability = cap) ∨ maxRowsPerChannel ≤ ws.length then ws
  else ws ++ [⟨⟨ms, created cap⟩, a, cap⟩]

open Classical in
/-- What the viewers want after a call: the call is about the wishes of its own viewer, and
the silent viewers are forgotten. -/
noncomputable def Viewers.after (v : Viewers) : Label → Viewers
  | .subscribe k channel a described caps interval =>
    let caps := describedCaps described caps
    if caps = [] then v
    else
      let v := (v.hear channel k.touch).forget k.stale
      Function.update v channel
        (caps.foldl (wish a (clampInterval interval) k.created) (v channel))
  | .unsubscribe k channel a caps =>
    let meant := fun w : Wish => w.addr = a ∧ w.capability ∈ caps
    if ∃ w ∈ v channel, meant w then
      let v := v.forget k.stale
      Function.update v channel ((v channel).filter fun w => ¬meant w)
    else v
  | .dropChannel k channel => Function.update (v.forget k.stale) channel []
  | .purgeStale k => if ∃ ch, ∃ w ∈ v ch, ¬w.fresh k.check then v.forget k.stale else v
  | .touch channel now => v.hear channel now
  | .reconnect k => v.forget k.stale

/-- What a row stands for. -/
def wishOf (e : RowKey × Row) : Wish :=
  { e.2 with addr := e.1.addr, capability := e.1.capability }

/-- The rows are the viewers' wishes. -/
def Recorded (v : Viewers) (rows : Rows) : Prop :=
  ∀ ch, v ch = (rows.entries.filter (·.1.channel = ch)).map wishOf

section Recorded

variable {v : Viewers} {channel : Nat}

theorem Recorded.mem (h : Recorded v rows) {ch : Nat} {w : Wish} :
    w ∈ v ch ↔ ∃ e ∈ rows.entries, e.1.channel = ch ∧ wishOf e = w := by
  simp only [h ch, List.mem_map, List.mem_filter, decide_eq_true_eq, and_assoc]

/-- Some wish is of this kind, or some row. -/
theorem Recorded.exists_iff (h : Recorded v rows) {p : Nat → Wish → Prop} :
    (∃ ch, ∃ w ∈ v ch, p ch w) ↔ ∃ e ∈ rows.entries, p e.1.channel (wishOf e) := by
  simp only [h.mem]
  constructor
  · rintro ⟨_, _, ⟨e, he, rfl, rfl⟩, hp⟩
    exact ⟨e, he, hp⟩
  · rintro ⟨e, he, hp⟩
    exact ⟨_, _, ⟨e, he, rfl, rfl⟩, hp⟩

/-- Rows are removed, and the wishes that they are. -/
theorem Recorded.filter (h : Recorded v rows) {p : RowKey → Row → Bool} {q : Nat → Wish → Bool}
    (hpq : ∀ e ∈ rows.entries, q e.1.channel (wishOf e) = p e.1 e.2) :
    Recorded (fun ch => (v ch).filter (q ch)) (rows.filter p) := by
  intro ch
  simp only [h ch, List.filter_map, Table.filter, List.filter_filter]
  congr 1
  refine List.filter_congr fun e he => ?_
  by_cases hch : e.1.channel = ch
  · subst hch
    simpa using hpq e he
  · simp [hch]

theorem Recorded.forget (h : Recorded v rows) (k : Clock) :
    Recorded (v.forget k.stale) (purged k rows) :=
  h.filter fun _ _ => rfl

theorem Recorded.hear (h : Recorded v rows) (channel : Nat) (now : Time) :
    Recorded (v.hear channel now) (touch rows channel now) := by
  intro ch
  simp only [Viewers.hear, touch, Table.map, List.filter_map, List.map_map, h ch]
  split
  · next hch =>
    subst hch
    refine List.map_congr_left fun e he => ?_
    have hmine := of_decide_eq_true (List.mem_filter.mp he).2
    simp [hmine, wishOf]
  · next hch =>
    refine List.map_congr_left fun e he => ?_
    have hother := of_decide_eq_true (List.mem_filter.mp he).2
    simp [hother, hch]

/-- A viewer with all wishes has no more. -/
theorem foldl_wish_full {created : String → Time} (caps : List String) {ws : List Wish}
    (h : maxRowsPerChannel ≤ ws.length) : caps.foldl (wish a ms created) ws = ws := by
  induction caps with
  | nil => rfl
  | cons cap caps ih => rw [List.foldl_cons, wish, if_pos (.inr h), ih]

theorem Recorded.get? (h : Recorded v rows) {cap : String} :
    (rows.get? ⟨channel, a, cap⟩).isSome = true ↔
      ∃ w ∈ v channel, w.addr = a ∧ w.capability = cap := by
  rw [← Table.mem_keys_iff]
  simp only [h.mem, List.mem_map]
  constructor
  · rintro ⟨e, he, hkey⟩
    exact ⟨_, ⟨e, he, by rw [hkey], rfl⟩, by simp [wishOf, hkey], by simp [wishOf, hkey]⟩
  · rintro ⟨_, ⟨e, he, rfl, rfl⟩, rfl, rfl⟩
    exact ⟨e, he, rfl⟩

theorem Recorded.create {created : String → Time} {caps : List String} {room : Nat}
    (h : Recorded v rows) (hroom : room = maxRowsPerChannel - (v channel).length) :
    Recorded (Function.update v channel (caps.foldl (wish a ms created) (v channel)))
      (createRows channel a ms created caps room rows) := by
  fun_induction createRows channel a ms created caps room rows generalizing v with
  | case1 => simpa using h
  | case2 room cap caps rows hheld ih =>
    rw [List.foldl_cons, wish, if_pos (.inl (h.get?.mp hheld))]
    exact ih h hroom
  | case3 cap caps rows hnew =>
    have hfull : maxRowsPerChannel ≤ (v channel).length := by omega
    rw [foldl_wish_full _ hfull]
    simpa using h
  | case4 cap caps rows hnew room ih =>
    have hfree : ¬maxRowsPerChannel ≤ (v channel).length := by omega
    rw [List.foldl_cons, wish, if_neg (not_or.mpr ⟨mt h.get?.mpr hnew, hfree⟩)]
    have hnext : Recorded (Function.update v channel (v channel ++ [⟨⟨ms, created cap⟩, a, cap⟩]))
        (rows.insert ⟨channel, a, cap⟩ ⟨ms, created cap⟩) := by
      intro ch
      rw [Table.entries_insert _ _ (Option.not_isSome_iff_eq_none.mp hnew)]
      by_cases hch : ch = channel
      · subst hch
        simp [h ch, wishOf]
      · simp [h ch, hch, Ne.symm hch]
    have hrest := ih hnext (by simp; omega)
    rwa [Function.update_idem, Function.update_self] at hrest

/-- A viewer takes wishes back. -/
theorem Recorded.remove (h : Recorded v rows) (channel : Nat) {p : RowKey → Row → Bool}
    {q : Wish → Bool}
    (hp : ∀ e ∈ rows.entries, p e.1 e.2 = (e.1.channel ≠ channel || q (wishOf e))) :
    Recorded (Function.update v channel ((v channel).filter q)) (rows.filter p) := by
  have hall := h.filter (p := p) (q := fun ch w => ch ≠ channel || q w) fun e he => (hp e he).symm
  intro ch
  rw [← hall ch]
  by_cases hch : ch = channel
  · subst hch
    simp
  · simp [hch]

end Recorded

/-! ## runs -/

/-- The viewers beside the server and the agent. -/
structure Watched where
  viewers : Viewers := fun _ => []
  system : System := ⟨Table.empty, Table.empty⟩

noncomputable def watch (cfg : Settings) (desc : Descriptor) (s : Watched) (l : Label) :
    Option Watched :=
  (step cfg desc s.system l).map (⟨s.viewers.after l, ·⟩)

/-- The invariant: the agent is armed with the demand of well-formed rows, and these are the
viewers' wishes. -/
structure Inv (desc : Descriptor) (v : Viewers) (s : System) : Prop where
  rows : RowsOk desc s.rows
  sim : Sim s.rows s.broker
  recorded : Recorded v s.rows

theorem Inv.init : Inv desc (fun _ => []) ⟨Table.empty, Table.empty⟩ where
  rows := nofun
  sim := .empty
  recorded _ := rfl

/-- **One operation.**  No row goes stale in its middle. -/
theorem Inv.step {v : Viewers} {s s' : System} {l : Label} (h : Inv desc v s)
    (hstale : goesStale s l = false) (hdesc : declared desc l = true)
    (hs : Telemetry.step cfg desc s l = some s') : Inv desc (v.after l) s' := by
  cases l with
  | subscribe k channel a described caps interval =>
    cases hs
    simp only [goesStale, Bool.or_eq_false_iff, List.any_eq_false, Bool.not_eq_true,
      Bool.not_eq_false'] at hstale
    simp only [declared, List.all_eq_true] at hdesc
    simp only [System.after, subscribe, Viewers.after]
    split
    · exact h
    have hok := h.rows.touch channel k.touch
    have hsim : Sim (touch s.rows channel k.touch) s.broker := fun x => by
      rw [demand_touch]
      exact h.sim x
    have hrecorded := (h.recorded.hear channel k.touch).forget k
    exact ⟨(hok.purged k).createRows hdesc, hsim.create hok hstale.1 hdesc hstale.2,
      hrecorded.create (by rw [hrecorded channel, List.length_map]; rfl)⟩
  | unsubscribe k channel a caps =>
    cases hs
    have hmine : s.rows.entries.any (fun e => mine channel a caps e.1) = true ↔
        ∃ w ∈ v channel, w.addr = a ∧ w.capability ∈ caps := by
      simp only [h.recorded.mem, List.any_eq_true, mine, Bool.and_eq_true, decide_eq_true_eq]
      constructor
      · rintro ⟨e, he, ⟨hch, haddr⟩, hcap⟩
        exact ⟨_, ⟨e, he, hch, rfl⟩, haddr, hcap⟩
      · rintro ⟨_, ⟨e, he, hch, rfl⟩, haddr, hcap⟩
        exact ⟨e, he, ⟨hch, haddr⟩, hcap⟩
    simp only [System.after, unsubscribe, Viewers.after]
    by_cases hany : ∃ w ∈ v channel, w.addr = a ∧ w.capability ∈ caps
    · rw [if_pos (hmine.mpr hany), if_pos hany]
      refine ⟨(h.rows.purged k).filter _, h.sim.change_at h.rows hstale ((h.rows.purged k).filter _)
        (fun e he => .inl (List.mem_of_mem_filter he)) fun x hx => demand_filter fun e _ hex => ?_,
        (h.recorded.forget k).remove channel fun e _ => ?_⟩
      · simp [mine, hex, hx]
      · simp [mine, wishOf, Bool.and_assoc]
    · rw [if_neg (mt hmine.mp hany), if_neg hany]
      exact h
  | dropChannel k channel =>
    cases hs
    refine ⟨(h.rows.purged k).filter _, h.sim.change cfg h.rows hstale ((h.rows.purged k).filter _)
      (nodup_addrs _) (fun e he => .inl (List.mem_of_mem_filter he)) fun x hx => ?_, ?_⟩
    · refine demand_filter fun e he hex => ?_
      by_contra hmine
      exact hx (mem_addrs.mpr ⟨e, by simpa [he] using hmine, hex⟩)
    · have hremove := (h.recorded.forget k).remove channel (p := fun key _ => key.channel ≠ channel)
        (q := fun _ => false) fun e _ => by simp
      rwa [List.filter_false] at hremove
  | purgeStale k =>
    cases hs
    have hstales : s.rows.entries.any (fun e => !e.2.fresh k.check) = true ↔
        ∃ ch, ∃ w ∈ v ch, ¬w.fresh k.check := by
      rw [h.recorded.exists_iff]
      simp [wishOf]
    simp only [System.after, purgeStale, Viewers.after]
    by_cases hany : ∃ ch, ∃ w ∈ v ch, ¬w.fresh k.check
    · rw [if_pos (hstales.mpr hany), if_pos hany]
      exact ⟨h.rows.purged k, h.sim.purge h.rows hstale, h.recorded.forget k⟩
    · rw [if_neg (mt hstales.mp hany), if_neg hany]
      exact h
  | touch channel now =>
    cases hs
    refine ⟨h.rows.touch channel now, fun a => ?_, h.recorded.hear channel now⟩
    rw [demand_touch]
    exact h.sim a
  | reconnect k =>
    cases hs
    exact ⟨h.rows.purged k, .replay h.rows hstale, h.recorded.forget k⟩

/-- A viewer wants the capability of the module at this interval. -/
def Demands (v : Viewers) (a : Addr) (cap : String) (ms : Nat) : Prop :=
  ∃ ch, ∃ w ∈ v ch, w.addr = a ∧ w.capability = cap ∧ w.intervalMs = ms

/-- What the agent polls is what the viewers ask for: a module that one of them wants
something of, the capabilities that one of them wants, at the fastest of their intervals. -/
structure Simulates (v : Viewers) (b : Broker) : Prop where
  held : ∀ a, (b.get? a).isSome = true ↔ ∃ cap ms, Demands v a cap ms
  caps : ∀ a sub, b.get? a = some sub → ∀ cap, cap ∈ sub.caps ↔ ∃ ms, Demands v a cap ms
  interval : ∀ a sub, b.get? a = some sub →
    IsLeast {ms | ∃ cap, Demands v a cap ms} sub.requestedMs

theorem Recorded.demands {v : Viewers} (h : Recorded v rows) {cap : String} :
    Demands v a cap ms ↔ ∃ e ∈ rowsAt rows a, e.1.capability = cap ∧ e.2.intervalMs = ms := by
  rw [Demands, h.exists_iff]
  simp [mem_rowsAt, wishOf, and_assoc]

theorem Inv.simulates {v : Viewers} {s : System} (h : Inv desc v s) : Simulates v s.broker where
  held a := by
    rw [← Option.isSome_map (f := Sub.requestedMs), (h.sim a).interval]
    simp [h.recorded.demands, demand, demandOf, Option.isSome_iff_ne_none,
      List.eq_nil_iff_forall_not_mem]
  caps a sub hsub cap := by
    have hcaps := (h.sim a).caps cap
    rw [hsub] at hcaps
    rw [show cap ∈ sub.caps ↔ _ from hcaps, demand, mem_demandOf]
    simp [h.recorded.demands]
  interval a sub hsub := by
    have hms := (h.sim a).interval
    rw [hsub] at hms
    convert isLeast_demandOf hms.symm using 1
    ext ms
    simp [h.recorded.demands]

/-- **Reference counting simulates demand.**  In every run of subscribe,
unsubscribe, drop, purge, touch and replay in which no row goes stale in the
middle of an operation, the agent's subscriptions are those the viewers have asked
for after every step. -/
theorem agent_polls_demand (cfg : Settings) (desc : Descriptor) {s : Watched}
    (h : Reachable (watch cfg desc)
      (fun s l => goesStale s.system l = false ∧ declared desc l = true) {} s) :
    Simulates s.viewers s.system.broker := by
  have hinv : Inv desc s.viewers s.system := by
    refine h.invariant (P := fun s => Inv desc s.viewers s.system) .init ?_
    intro s l s' hinv hok hs
    obtain ⟨t, ht, rfl⟩ := Option.map_eq_some_iff.mp hs
    exact hinv.step hok.1 hok.2 ht
  exact hinv.simulates

/-- All readings of an operation at one time. -/
def Clock.still (now : Time) : Clock where
  check := now
  touch := now
  stale := now
  purged _ := now
  before _ := now
  created _ := now
  after _ := now

/-- Two viewers share a capability; the faster one leaves. -/
theorem agent_polls_demand_sample :
    ∃ s : Watched, (s.system.broker.get? (1, "fm")).map Sub.requestedMs = some 1000 ∧
      Simulates s.viewers s.system.broker := by
  obtain ⟨s, hreach, hms⟩ := exists_avoiding (watch {} fun _ _ => some 200)
    (fun s l => goesStale s.system l || !declared (fun _ _ => some 200) l) {}
    [.subscribe (.still 0) 0 (1, "fm") (some ["rssi"]) ["rssi"] (some (.int 100)),
      .subscribe (.still 5) 1 (1, "fm") (some ["rssi"]) ["rssi"] none,
      .dropChannel (.still 9) 0]
    (P := fun s => (s.system.broker.get? (1, "fm")).map Sub.requestedMs = some 1000) (by decide)
  exact ⟨s, hms, agent_polls_demand {} (fun _ _ => some 200)
    (hreach.mono fun s l hok => by simpa using hok)⟩

/-- **A viewer is slowed down.**  The first viewer's row is fresh for the purge
of the second viewer's subscribe, and stale when the demand is read right
after it: the agent is armed with the second viewer's interval.  The first
viewer is still there and subscribes again, which relays nothing. -/
theorem viewer_slowed : ∃ s, Reachable (watch {} fun _ _ => some 200)
        (fun _ l => declared (fun _ _ => some 200) l = true) {} s ∧
      Demands s.viewers (1, "fm") "rssi" 250 ∧
      (s.system.broker.get? (1, "fm")).map Sub.requestedMs = some 1000 ∧
      ¬Simulates s.viewers s.system.broker := by
  obtain ⟨s, hreach, hwish, hsub⟩ := exists_admitted (watch {} fun _ _ => some 200)
    (fun _ l => declared (fun _ _ => some 200) l) {}
    [.subscribe (.still 0) 0 (1, "fm") (some ["rssi"]) ["rssi"] (some (.int 250)),
      .subscribe { Clock.still staleAfter with
        before := fun _ => staleAfter + 1
        created := fun _ => staleAfter + 1
        after := fun _ => staleAfter + 1 }
        1 (1, "fm") (some ["rssi"]) ["rssi"] (some (.int 1000)),
      .subscribe (.still (staleAfter + 2)) 0 (1, "fm") (some ["rssi"]) ["rssi"]
        (some (.int 250))]
    (P := fun s => s.viewers 0 = [⟨⟨250, staleAfter + 2⟩, (1, "fm"), "rssi"⟩] ∧
      (s.system.broker.get? (1, "fm")).map Sub.requestedMs = some 1000) (by decide)
  have hdemand : Demands s.viewers (1, "fm") "rssi" 250 :=
    ⟨0, _, hwish ▸ List.mem_singleton_self _, rfl, rfl, rfl⟩
  refine ⟨s, hreach, hdemand, hsub, fun hsim => ?_⟩
  obtain ⟨sub, hgets, hreq⟩ := Option.map_eq_some_iff.mp hsub
  have hle := (hsim.interval _ sub hgets).2 ⟨"rssi", hdemand⟩
  omega

end StationManager.Control.Telemetry
