import StationManager.Audio.Subscriptions
import Mathlib.Data.List.Dedup

/-!
# StationManager.Audio.Demand

Does the agent produce what browsers want?  A handler commits its transaction
first and relays the frame later, so two handlers can commit in one order and
relay in the other: the agent then stops a stream that has a subscriber
(`wanted_source_stopped`).

While no transaction on a stream overtakes an outstanding relay for it, every
outstanding frame asks for what the rows of its stream say, and a stream
without outstanding frames is produced exactly if it has rows (`Synced`).  Once
all handlers have finished, the agent produces a source stream if and only if
it has subscription rows.
-/

namespace StationManager.Audio

/-! ## the transactions -/

namespace Demand

/-- Somebody wants the stream. -/
def Wanted (d : Demand) (sid : StreamId) : Prop := 0 < d.count sid

variable (d : Demand) (sid : StreamId) (ch : Channel) (r : StreamId × Channel)

theorem wanted_iff : d.Wanted sid ↔ ∃ ch, (sid, ch) ∈ d.rows := by
  simp [Wanted, count, List.countP_pos_iff]

theorem count_eq_zero_iff : d.count sid = 0 ↔ ¬d.Wanted sid := by
  rw [Wanted]
  omega

@[simp] theorem mem_delete (p : StreamId × Channel → Bool) (r : StreamId × Channel) :
    r ∈ (d.delete p).rows ↔ r ∈ d.rows ∧ p r = false := by
  simp [delete]

@[simp] theorem mem_subscribe : r ∈ (d.subscribe sid ch).1.rows ↔ r = (sid, ch) ∨ r ∈ d.rows := by
  by_cases h : (sid, ch) ∈ d.rows
  · simp only [subscribe, create, h, dite_true]
    grind
  · simp [subscribe, create, h]

@[simp] theorem mem_unsubscribe :
    r ∈ (d.unsubscribe sid ch).1.rows ↔ r ∈ d.rows ∧ r ≠ (sid, ch) := by
  simp [unsubscribe]

@[simp] theorem mem_dropChannel : r ∈ (d.dropChannel ch).1.rows ↔ r ∈ d.rows ∧ r.2 ≠ ch := by
  simp [dropChannel]

/-- If only rows of `ch` were deleted and nobody wants the stream any more,
then `ch` was the one who did. -/
theorem wanted_iff_of_last {d d' : Demand} {sid : StreamId} {ch : Channel}
    (hkeep : ∀ ch', ch' ≠ ch → (sid, ch') ∈ d.rows → (sid, ch') ∈ d'.rows)
    (hgone : ¬d'.Wanted sid) : d.Wanted sid ↔ (sid, ch) ∈ d.rows := by
  rw [wanted_iff] at hgone ⊢
  grind

/-- The first subscriber is told so. -/
theorem subscribe_first : (d.subscribe sid ch).2.first = true ↔ ¬d.Wanted sid := by
  rw [← count_eq_zero_iff]
  by_cases h : (sid, ch) ∈ d.rows
  · have hpos : d.Wanted sid := (d.wanted_iff sid).mpr ⟨ch, h⟩
    rw [Wanted] at hpos
    simp only [subscribe, create, h, dite_true, decide_eq_true_eq]
    omega
  · simp [subscribe, create, h]

/-- The last subscriber is told so. -/
theorem unsubscribe_last :
    (d.unsubscribe sid ch).2.last = true ↔ d.Wanted sid ∧ ¬(d.unsubscribe sid ch).1.Wanted sid := by
  have hlast : (d.unsubscribe sid ch).2.last = true ↔
      (sid, ch) ∈ d.rows ∧ ¬(d.unsubscribe sid ch).1.Wanted sid := by
    rw [← count_eq_zero_iff]
    simp [unsubscribe, List.countP_pos_iff]
  rw [hlast]
  refine and_congr_left fun hgone => (wanted_iff_of_last ?_ hgone).symm
  intro ch' hne hmem
  simp [hmem, hne]

/-- A dropped connection reports the streams it was the last to want. -/
theorem mem_zeroStreams (sid : StreamId) :
    sid ∈ (d.dropChannel ch).2 ↔ d.Wanted sid ∧ ¬(d.dropChannel ch).1.Wanted sid := by
  have hzero : sid ∈ (d.dropChannel ch).2 ↔
      (sid, ch) ∈ d.rows ∧ ¬(d.dropChannel ch).1.Wanted sid := by
    rw [← count_eq_zero_iff]
    simp [dropChannel]
  rw [hzero]
  refine and_congr_left fun hgone => (wanted_iff_of_last ?_ hgone).symm
  intro ch' hne hmem
  simp [hmem, hne]

end Demand

/-- What a transaction and the frames decided by it have to do with each
other: outside the streams it touches the demand stands, a frame asks for what
the new rows say, and a change of demand has its frame. -/
structure Edges (d d' : Demand) (touched : StreamId → Bool) (frames : List Frame) : Prop where
  frame : ∀ sid, touched sid = false → (d'.Wanted sid ↔ d.Wanted sid)
  sound : ∀ f ∈ frames, f.wants = true ↔ d'.Wanted f.stream
  complete : ∀ sid, sid ≠ opMicStreamId →
    (d'.Wanted sid ↔ d.Wanted sid) ∨ ∃ f ∈ frames, f.stream = sid

variable (d : Demand)

theorem Edges.refl (touched : StreamId → Bool) : Edges d d touched [] where
  frame _ _ := Iff.rfl
  sound := by simp
  complete _ _ := .inl Iff.rfl

theorem mem_edges (frame : StreamId → Frame) (sids : List StreamId) (f : Frame) :
    f ∈ edges frame sids ↔ ∃ sid ∈ sids, sid ≠ opMicStreamId ∧ frame sid = f := by
  simp [edges, and_assoc]

theorem subscribe_edges (sid : StreamId) (ch : Channel) :
    Edges d (d.subscribe sid ch).1 (fun s => sid = s)
      (edges .sourceSubscribe (if (d.subscribe sid ch).2.first then [sid] else [])) := by
  have hwanted : ∀ s, (d.subscribe sid ch).1.Wanted s ↔ sid = s ∨ d.Wanted s := by
    intro s
    simp [Demand.wanted_iff, exists_or, eq_comm]
  have hfirst := d.subscribe_first sid ch
  constructor
  case frame =>
    intro s hs
    rw [hwanted]
    simp at hs
    simp [hs]
  case sound =>
    intro f hf
    obtain ⟨s, hs, -, rfl⟩ := (mem_edges ..).mp hf
    split at hs
    · simp at hs
      simp [Frame.wants, Frame.stream, hwanted, hs]
    · simp at hs
  case complete =>
    intro s hmic
    by_cases hs : sid = s ∧ ¬d.Wanted s
    · obtain ⟨rfl, hnot⟩ := hs
      refine .inr ⟨.sourceSubscribe sid, (mem_edges ..).mpr ⟨sid, ?_, hmic, rfl⟩, rfl⟩
      simp [hfirst.mpr hnot]
    · rw [hwanted]
      exact .inl (by tauto)

/-- A removal whose frames are exactly the streams nobody wants any more. -/
theorem removal_edges {d d' : Demand} {touched : StreamId → Bool} {sids : List StreamId}
    (hframe : ∀ sid, touched sid = false → (d'.Wanted sid ↔ d.Wanted sid))
    (hsub : ∀ sid, d'.Wanted sid → d.Wanted sid) (hsids : ∀ sid, sid ∈ sids → ¬d'.Wanted sid)
    (hgone : ∀ sid, d.Wanted sid → ¬d'.Wanted sid → sid ∈ sids) :
    Edges d d' touched (edges .sourceUnsubscribe sids) := by
  constructor
  case frame => exact hframe
  case sound =>
    intro f hf
    obtain ⟨s, hs, -, rfl⟩ := (mem_edges ..).mp hf
    simp [Frame.wants, Frame.stream, hsids s hs]
  case complete =>
    intro s hmic
    by_cases hs : d.Wanted s ∧ ¬d'.Wanted s
    · exact .inr ⟨.sourceUnsubscribe s, (mem_edges ..).mpr ⟨s, hgone s hs.1 hs.2, hmic, rfl⟩, rfl⟩
    · have hback := hsub s
      exact .inl (by tauto)

theorem unsubscribe_edges (sid : StreamId) (ch : Channel) :
    Edges d (d.unsubscribe sid ch).1 (fun s => sid = s)
      (edges .sourceUnsubscribe (if (d.unsubscribe sid ch).2.last then [sid] else [])) := by
  have hframe : ∀ s, s ≠ sid → ((d.unsubscribe sid ch).1.Wanted s ↔ d.Wanted s) := by
    intro s hs
    simp [Demand.wanted_iff, hs]
  have hlast := d.unsubscribe_last sid ch
  apply removal_edges
  case hframe =>
    intro s hs
    exact hframe s (by simpa [eq_comm] using hs)
  case hsub =>
    intro s
    simp only [Demand.wanted_iff, Demand.mem_unsubscribe]
    exact fun ⟨ch', hmem, _⟩ => ⟨ch', hmem⟩
  case hsids =>
    intro s hs
    split at hs
    · next h =>
      simp at hs
      subst hs
      exact (hlast.mp h).2
    · simp at hs
  case hgone =>
    intro s hs hnot
    by_cases heq : s = sid
    · subst heq
      simp [hlast.mpr ⟨hs, hnot⟩]
    · exact absurd ((hframe s heq).mpr hs) hnot

theorem dropChannel_edges (ch : Channel) : Edges d (d.dropChannel ch).1 (fun s => (s, ch) ∈ d.rows)
      (edges .sourceUnsubscribe (d.dropChannel ch).2) := by
  apply removal_edges
  case hframe =>
    intro s hs
    simp only [decide_eq_false_iff_not] at hs
    simp only [Demand.wanted_iff, Demand.mem_dropChannel]
    grind
  case hsub =>
    intro s
    simp only [Demand.wanted_iff, Demand.mem_dropChannel]
    exact fun ⟨ch', hmem, _⟩ => ⟨ch', hmem⟩
  case hsids =>
    intro s hs
    exact ((d.mem_zeroStreams ch s).mp hs).2
  case hgone =>
    intro s hs hnot
    exact (d.mem_zeroStreams ch s).mpr ⟨hs, hnot⟩

/-! ## the agent -/

namespace Engine

variable {backend : StreamId → RxStart}

variable {e : Engine} {sid : StreamId}

/-- A frame about a source stream starts or stops its pipeline, and no other
frame does. -/
theorem dispatch_source (h : e.Source backend sid) (f : Frame) :
    (e.dispatch backend f).1.Source backend sid ∧ (sid ∈ (e.dispatch backend f).1.rx ↔
        if f.stream = sid then f.wants = true else sid ∈ e.rx) := by
  obtain ⟨hopen, hreg, hmic, hstarts⟩ := h
  cases f with
  | sourceSubscribe s =>
    have hregistry : (e.dispatch backend (.sourceSubscribe s)).1.registry = e.registry ∧
        (e.dispatch backend (.sourceSubscribe s)).1.closed = e.closed := by
      simp only [dispatch, onSourceSubscribe, startRx]
      grind
    refine ⟨⟨hregistry.2.trans hopen, hregistry.1 ▸ hreg, hmic, hstarts⟩, ?_⟩
    simp only [dispatch, onSourceSubscribe, startRx, Frame.stream, Frame.wants]
    grind
  | sourceUnsubscribe s =>
    refine ⟨⟨hopen, hreg, hmic, hstarts⟩, ?_⟩
    simp only [dispatch, onSourceUnsubscribe, Frame.stream, Frame.wants]
    grind

theorem deliver_append (e : Engine) (frames : List Frame) (f : Frame) :
    e.deliver backend (frames ++ [f]) = ((e.deliver backend frames).dispatch backend f).1 := by
  simp [deliver]

theorem deliver_source (h : e.Source backend sid) (frames : List Frame) :
    (e.deliver backend frames).Source backend sid := by
  induction frames generalizing e with
  | nil => exact h
  | cons f frames ih => exact ih (dispatch_source h f).1

/-- What the last of several frames did to a source stream. -/
theorem mem_rx_deliver_append (h : e.Source backend sid) (frames : List Frame) (f : Frame) :
    sid ∈ (e.deliver backend (frames ++ [f])).rx ↔
      if f.stream = sid then f.wants = true else sid ∈ (e.deliver backend frames).rx := by
  rw [deliver_append]
  exact (dispatch_source (deliver_source h frames) f).2

end Engine

/-! ## one step of a handler -/

section Handlers

variable {digit : Char → Bool}

/-- What a step of a handler is: a relay, a transaction, or the end. -/
inductive Acted (digit : Char → Bool) (ch : Channel) (s s' : Server) (h : Handler) :
    Option Handler → Prop
  | relay (f : Frame) (relays : List Frame) : h.relays = f :: relays → s'.demand = s.demand →
      s'.relayed = s.relayed ++ [f] → Acted digit ch s s' h (some { h with relays })
  | transaction (relays : List Frame) (rest : Rest) : h.relays = [] → s'.relayed = s.relayed →
      Edges s.demand s'.demand (fun sid => h.rest.touches digit s.demand ch sid) relays →
      Acted digit ch s s' h (some ⟨relays, rest⟩)
  | finish : h.relays = [] → s' = s → Acted digit ch s s' h none

theorem acted_of_act {ch : Channel} {s s' : Server} {h : Handler} {q : Option Handler}
    (hact : act digit ch s h () = some (s', q)) : Acted digit ch s s' h q := by
  obtain ⟨relays, rest⟩ := h
  cases relays with
  | cons f relays =>
    cases hact
    exact .relay f relays rfl rfl rfl
  | nil =>
    cases rest with
    | subscribing sids =>
      cases sids with
      | nil =>
        cases hact
        exact .finish rfl rfl
      | cons sid sids =>
        simp only [act] at hact
        split at hact
        · next hvalid =>
          cases hact
          refine .transaction _ _ rfl rfl ?_
          simp only [Rest.touches, hvalid, Bool.true_and]
          exact subscribe_edges ..
        · cases hact
          exact .transaction _ _ rfl rfl (Edges.refl ..)
    | unsubscribing sids =>
      cases sids with
      | nil =>
        cases hact
        exact .finish rfl rfl
      | cons sid sids =>
        simp only [act] at hact
        split at hact
        · next hvalid =>
          cases hact
          refine .transaction _ _ rfl rfl ?_
          simp only [Rest.touches, hvalid, Bool.true_and]
          exact unsubscribe_edges ..
        · cases hact
          exact .transaction _ _ rfl rfl (Edges.refl ..)
    | dropping =>
      cases hact
      exact .transaction _ _ rfl rfl (dropChannel_edges ..)
    | done =>
      cases hact
      exact .finish rfl rfl

variable {i : Nat} {c c' : Pool Server Handler}

/-- Another handler has no frame outstanding for a stream that the transaction
of connection `i` touches. -/
theorem touches_false_of_not_overtakes {j : Nat} {h h' : Handler}
    (hok : overtakes digit c (.advance i ()) = false) (hi : c.procs.get? i = some h)
    (hrelays : h.relays = []) (hji : j ≠ i) (hj : c.procs.get? j = some h') {f : Frame}
    (hf : f ∈ h'.relays) : h.rest.touches digit c.shared.demand i f.stream = false := by
  obtain ⟨relays, rest⟩ := h
  cases hrelays
  simp only [overtakes, hi, List.any_eq_false] at hok
  have hentry := hok (j, h') ((c.procs.mem_entries_iff j h').mpr hj)
  simp only [Bool.and_eq_true, List.any_eq_true, not_and, not_exists] at hentry
  exact Bool.eq_false_iff.mpr (hentry (by simpa using hji) f hf)

/-! ## runs -/

/-- Every outstanding frame asks for what the rows say, and a source stream
without outstanding frames is produced exactly if it has rows. -/
structure Synced (backend : StreamId → RxStart) (e : Engine) (c : Pool Server Handler) :
    Prop where
  due : ∀ i h, c.procs.get? i = some h → ∀ f ∈ h.relays,
    f.wants = true ↔ c.shared.demand.Wanted f.stream
  settled : ∀ sid, e.Source backend sid →
    (sid ∈ (e.deliver backend c.shared.relayed).rx ↔ c.shared.demand.Wanted sid) ∨
      ∃ i h, c.procs.get? i = some h ∧ ∃ f ∈ h.relays, f.stream = sid

variable {backend : StreamId → RxStart} {e : Engine}

theorem Synced.spawn {h : Handler} (hc : Synced backend e c) (hrelays : h.relays = [])
    (hfree : c.procs.get? i = none) (hshared : c'.shared = c.shared)
    (hprocs : ∀ j, c'.procs.get? j = if j = i then some h else c.procs.get? j) :
    Synced backend e c' := by
  have hkeep : ∀ j h', c.procs.get? j = some h' → c'.procs.get? j = some h' := by grind
  constructor
  case due =>
    intro j h' hj f hf
    rw [hshared]
    rw [hprocs] at hj
    split at hj
    · cases hj
      rw [hrelays] at hf
      cases hf
    · exact hc.due j h' hj f hf
  case settled =>
    intro sid hsid
    rw [hshared]
    refine (hc.settled sid hsid).imp_right ?_
    rintro ⟨j, h', hj, hf⟩
    exact ⟨j, h', hkeep j h' hj, hf⟩

/-- A relay delivers what the rows say about its stream. -/
theorem Synced.relay {h : Handler} {f : Frame} {relays : List Frame} (hc : Synced backend e c)
    (hi : c.procs.get? i = some h) (hrelays : h.relays = f :: relays)
    (hdemand : c'.shared.demand = c.shared.demand)
    (hlog : c'.shared.relayed = c.shared.relayed ++ [f])
    (hprocs : ∀ j, c'.procs.get? j = if j = i then some { h with relays } else c.procs.get? j) :
    Synced backend e c' := by
  constructor
  case due =>
    intro j h' hj g hg
    rw [hdemand]
    rw [hprocs] at hj
    split at hj
    · cases hj
      exact hc.due i h hi g (by rw [hrelays]; exact List.mem_cons_of_mem f hg)
    · exact hc.due j h' hj g hg
  case settled =>
    intro sid hsid
    rw [hlog, hdemand, Engine.mem_rx_deliver_append hsid]
    by_cases hf : f.stream = sid
    · left
      rw [if_pos hf, ← hf]
      exact hc.due i h hi f (by rw [hrelays]; exact List.mem_cons_self)
    · rw [if_neg hf]
      refine (hc.settled sid hsid).imp_right ?_
      rintro ⟨j, h', hj, g, hg, hgs⟩
      by_cases hji : j = i
      · subst hji
        rw [hi] at hj
        cases hj
        rw [hrelays, List.mem_cons] at hg
        have hmem : g ∈ relays := hg.resolve_left fun heq => hf (heq ▸ hgs)
        exact ⟨j, _, by rw [hprocs, if_pos rfl], g, hmem, hgs⟩
      · exact ⟨j, h', by rw [hprocs, if_neg hji]; exact hj, g, hg, hgs⟩

/-- A transaction that overtakes no outstanding frame. -/
theorem Synced.transaction {h : Handler} {relays : List Frame} {rest : Rest}
    (hc : Synced backend e c) (hok : overtakes digit c (.advance i ()) = false)
    (hi : c.procs.get? i = some h) (hrelays : h.relays = [])
    (hlog : c'.shared.relayed = c.shared.relayed) (hedges : Edges c.shared.demand c'.shared.demand
      (fun sid => h.rest.touches digit c.shared.demand i sid) relays)
    (hprocs : ∀ j, c'.procs.get? j = if j = i then some ⟨relays, rest⟩ else c.procs.get? j) :
    Synced backend e c' := by
  constructor
  case due =>
    intro j h' hj f hf
    rw [hprocs] at hj
    split at hj
    · cases hj
      exact hedges.sound f hf
    · next hji =>
      have hfree := touches_false_of_not_overtakes hok hi hrelays hji hj hf
      rw [hedges.frame f.stream hfree]
      exact hc.due j h' hj f hf
  case settled =>
    intro sid hsid
    rw [hlog]
    obtain hsame | ⟨f, hf, hfs⟩ := hedges.complete sid hsid.notMic
    · rw [hsame]
      refine (hc.settled sid hsid).imp_right ?_
      rintro ⟨j, h', hj, g, hg, hgs⟩
      -- the handler that acts has nothing outstanding, so it is another one
      have hji : j ≠ i := by
        intro hji
        subst hji
        rw [hi] at hj
        cases hj
        rw [hrelays] at hg
        cases hg
      exact ⟨j, h', by rw [hprocs, if_neg hji]; exact hj, g, hg, hgs⟩
    · exact .inr ⟨i, _, by rw [hprocs, if_pos rfl], f, hf, hfs⟩

theorem Synced.finish {h : Handler} (hc : Synced backend e c) (hi : c.procs.get? i = some h)
    (hrelays : h.relays = []) (hshared : c'.shared = c.shared)
    (hprocs : ∀ j, c'.procs.get? j = if j = i then none else c.procs.get? j) :
    Synced backend e c' := by
  constructor
  case due =>
    intro j h' hj
    rw [hshared]
    rw [hprocs] at hj
    split at hj
    · cases hj
    · exact hc.due j h' hj
  case settled =>
    intro sid hsid
    rw [hshared]
    refine (hc.settled sid hsid).imp_right ?_
    rintro ⟨j, h', hj, f, hf, hfs⟩
    have hji : j ≠ i := by
      intro hji
      subst hji
      rw [hi] at hj
      cases hj
      rw [hrelays] at hf
      cases hf
    exact ⟨j, h', by rw [hprocs, if_neg hji]; exact hj, f, hf, hfs⟩

theorem start_relays {s : Server} {r : Request} {h : Handler} (hstart : start s r = some h) :
    h.relays = [] := by
  cases r <;> cases hstart <;> rfl

/-- Every step that overtakes no outstanding frame keeps agent and rows in
step. -/
theorem step_synced {l : Sched Request Unit} (hc : Synced backend e c)
    (hok : overtakes digit c l = false) (hstep : serverStep digit c l = some c') :
    Synced backend e c' := by
  cases Pool.stepped_of_step hstep with
  | spawn i r h hstart hfree hshared hprocs =>
    exact hc.spawn (start_relays hstart) hfree hshared hprocs
  | advance i u h q hi hact hprocs =>
    cases acted_of_act hact with
    | relay f relays hrelays hdemand hlog => exact hc.relay hi hrelays hdemand hlog hprocs
    | transaction relays rest hrelays hlog hedges =>
      exact hc.transaction hok hi hrelays hlog hedges hprocs
    | finish hrelays hshared => exact hc.finish hi hrelays hshared hprocs

end Handlers

/-- **Demand is not lost.**  Start with no handler in progress, with an agent
that produces exactly the source streams that have rows, and let no
transaction on a stream overtake an outstanding relay for it.  Whenever all
handlers have finished and the relayed frames are delivered in order, the
agent produces a source stream if and only if it has subscription rows. -/
theorem produces_iff_subscribed (digit : Char → Bool) (backend : StreamId → RxStart) (e : Engine)
    (c₀ c : Pool Server Handler) (hidle : c₀.Quiescent) (hlog : c₀.shared.relayed = [])
    (hsync : ∀ sid, e.Source backend sid → (sid ∈ e.rx ↔ 0 < c₀.shared.demand.count sid))
    (h : Reachable (serverStep digit) (fun c l => overtakes digit c l = false) c₀ c)
    (hdone : c.Quiescent) (sid : StreamId) (hsid : e.Source backend sid) :
    sid ∈ (e.deliver backend c.shared.relayed).rx ↔ 0 < c.shared.demand.count sid := by
  have hinit : Synced backend e c₀ := by
    constructor
    case due =>
      intro i h' hi
      rw [hidle.get?] at hi
      cases hi
    case settled =>
      intro s hs
      rw [hlog]
      exact .inl (hsync s hs)
  have hsynced := h.invariant hinit fun c l c' hc hok hstep => step_synced hc hok hstep
  obtain hiff | ⟨i, h', hi, -⟩ := hsynced.settled sid hsid
  · exact hiff
  · rw [hdone.get?] at hi
    cases hi

/-! ## two browsers -/

namespace Sample

/-- Nobody listens; the agent advertises one receiver. -/
def silent : Pool Server Handler := ⟨⟨Demand.empty, [], []⟩, Table.empty⟩

def engine : Engine where
  registry := ["slot0.rx", opMicStreamId]
  closed := false
  rxDemand := []
  rx := []

/-- The first browser listens. -/
def listening : List (Sched Request Unit) :=
  [.spawn 1 (.subscribe ["slot0.rx"]), .advance 1 (), .advance 1 (), .advance 1 ()]

/-- It leaves up to the commit of its transaction. -/
def leaving : List (Sched Request Unit) := [.spawn 1 (.unsubscribe ["slot0.rx"]), .advance 1 ()]

/-- The second browser listens. -/
def joining : List (Sched Request Unit) :=
  [.spawn 2 (.subscribe ["slot0.rx"]), .advance 2 (), .advance 2 (), .advance 2 ()]

/-- The relay of the first browser's handler and its end. -/
def left : List (Sched Request Unit) := [.advance 1 (), .advance 1 ()]

/-- Handlers in progress, frames relayed, subscribers. -/
def overview (c : Pool Server Handler) : Nat × List Frame × Nat :=
  (c.procs.entries.length, c.shared.relayed, c.shared.demand.count "slot0.rx")

end Sample

theorem produces_iff_subscribed_sample : ∃ c,
    Reachable (serverStep Char.isDigit) (fun c l => overtakes Char.isDigit c l = false)
      Sample.silent c ∧ c.shared.demand.count "slot0.rx" = 1 ∧
    "slot0.rx" ∈ (Sample.engine.deliver (fun _ => .live) c.shared.relayed).rx := by
  obtain ⟨c, hreach, heq⟩ := exists_avoiding (serverStep Char.isDigit) (overtakes Char.isDigit)
    Sample.silent (Sample.listening ++ Sample.leaving ++ Sample.left ++ Sample.joining)
    (P := fun c => Sample.overview c = (0, [.sourceSubscribe "slot0.rx",
      .sourceUnsubscribe "slot0.rx", .sourceSubscribe "slot0.rx"], 1)) (by decide)
  have hdone : c.Quiescent := List.eq_nil_of_length_eq_zero (congrArg Prod.fst heq)
  have hcount : c.shared.demand.count "slot0.rx" = 1 := congrArg (·.2.2) heq
  have hsync : ∀ sid, Sample.engine.Source (fun _ => .live) sid →
      (sid ∈ Sample.engine.rx ↔ 0 < Sample.silent.shared.demand.count sid) := by
    intro sid _
    simp [Sample.engine, Sample.silent, Demand.empty, Demand.count]
  refine ⟨c, hreach, hcount, ?_⟩
  refine (produces_iff_subscribed Char.isDigit (fun _ => .live) Sample.engine Sample.silent c rfl
    rfl hsync hreach hdone "slot0.rx" ⟨rfl, by decide, by decide, rfl⟩).mpr ?_
  rw [hcount]
  decide

/-- The second browser subscribes between the first one's transaction and its
relay: the agent is told to stop last, and stays silent for a subscriber. -/
theorem wanted_source_stopped : ∃ c,
    Reachable (serverStep Char.isDigit) (fun _ _ => True) Sample.silent c ∧
    c.Quiescent ∧ Sample.engine.Source (fun _ => .live) "slot0.rx" ∧
    c.shared.demand.count "slot0.rx" = 1 ∧
    "slot0.rx" ∉ (Sample.engine.deliver (fun _ => .live) c.shared.relayed).rx := by
  obtain ⟨c, hreach, heq⟩ := exists_reachable (serverStep Char.isDigit) Sample.silent
    (Sample.listening ++ Sample.leaving ++ Sample.joining ++ Sample.left)
    (P := fun c => Sample.overview c = (0, [.sourceSubscribe "slot0.rx",
      .sourceSubscribe "slot0.rx", .sourceUnsubscribe "slot0.rx"], 1)) (by decide)
  have hlog : c.shared.relayed = [.sourceSubscribe "slot0.rx", .sourceSubscribe "slot0.rx",
      .sourceUnsubscribe "slot0.rx"] := congrArg (·.2.1) heq
  refine ⟨c, hreach, List.eq_nil_of_length_eq_zero (congrArg Prod.fst heq),
    ⟨rfl, by decide, by decide, rfl⟩, congrArg (·.2.2) heq, ?_⟩
  rw [hlog]
  decide

end StationManager.Audio
