import StationManager.Control.InventoryScan

/-!
# StationManager.Control.InventoryMoves

The persisted settings of a re-plugged module follow it.

The calibration of all keys that the moves of a snapshot involve is rewritten at once:
every destination gets what its module's source had, and a source that nobody moved into
ends up empty.  The rewrite cannot break `uniq_persisted_cap` as long as no two modules
move to one key, which a snapshot that names a key twice can ask for.
-/

namespace StationManager.Control.Inventory

open Firmware

/-! ## where modules sat -/

variable {sc : Scan} {modules : Table Key StationModule} {uid : Uid}

theorem mem_linkedRows {e : Key × StationModule} :
    e ∈ linkedRows modules uid ↔ modules.get? e.1 = some e.2 ∧ e.2.trackedModule = some uid := by
  rw [linkedRows, List.mem_insertionSort, List.mem_filter, Table.mem_entries_iff]
  simp

instance : Std.Total seenNoLater where
  total a b := by
    unfold seenNoLater
    cases a.2.lastSeen with
    | none => cases b.2.lastSeen with
        | none => exact Nat.le_total _ _
        | some y => simp
    | some x => cases b.2.lastSeen with
        | none => simp
        | some y =>
          simp only
          rcases Nat.lt_trichotomy x y with hlt | heq | hgt
          · exact .inl (.inl hlt)
          · rcases Nat.le_total a.2.updatedAt b.2.updatedAt with hle | hle
            · exact .inl (.inr ⟨heq, hle⟩)
            · exact .inr (.inr ⟨heq.symm, hle⟩)
          · exact .inr (.inl hgt)

instance : IsTrans (Key × StationModule) seenNoLater where
  trans a b c hab hbc := by
    unfold seenNoLater at *
    cases ha : a.2.lastSeen <;> cases hb : b.2.lastSeen <;> cases hc : c.2.lastSeen <;>
      simp only [ha, hb, hc] at hab hbc ⊢
    · exact Nat.le_trans hab hbc
    · rcases hab with hab | ⟨hab, hle⟩ <;> rcases hbc with hbc | ⟨hbc, hle'⟩
      · exact .inl (Nat.lt_trans hab hbc)
      · exact .inl (hbc ▸ hab)
      · exact .inl (hab ▸ hbc)
      · exact .inr ⟨hab.trans hbc, Nat.le_trans hle hle'⟩

/-- The most recently seen row of a tracked module. -/
def Latest (modules : Table Key StationModule) (uid : Uid) (source : Key) : Prop :=
  ∃ row, modules.get? source = some row ∧ row.trackedModule = some uid ∧
    ∀ k row', modules.get? k = some row' → row'.trackedModule = some uid →
      seenNoLater (k, row') (source, row)

/-- The row under the key is linked to the module. -/
def Linked (modules : Table Key StationModule) (k : Key) (uid : Uid) : Prop :=
  (modules.get? k).bind (·.trackedModule) = some uid

instance (modules : Table Key StationModule) (k : Key) (uid : Uid) :
    Decidable (Linked modules k uid) := inferInstanceAs (Decidable (_ = _))

theorem Latest.linked {source : Key} (h : Latest modules uid source) :
    Linked modules source uid := by
  obtain ⟨row, hrow, hlink, -⟩ := h
  simp [Linked, hrow, hlink]

theorem before_eq_some {place : Place} (h : before modules uid = some place) :
    Latest modules uid place.source ∧ ∀ k, k ∈ place.keys ↔ Linked modules k uid := by
  obtain ⟨e, he, rfl⟩ := Option.map_eq_some_iff.mp h
  obtain ⟨init, hlist⟩ := List.getLast?_eq_some_iff.mp he
  have hsorted : (linkedRows modules uid).Pairwise seenNoLater := List.pairwise_insertionSort _ _
  obtain ⟨hrow, hlink⟩ := mem_linkedRows.mp (List.mem_of_getLast? he)
  refine ⟨⟨e.2, hrow, hlink, fun k row' hrow' hlink' => ?_⟩, fun k => ?_⟩
  · have hmem : (k, row') ∈ linkedRows modules uid := mem_linkedRows.mpr ⟨hrow', hlink'⟩
    rw [hlist, List.pairwise_append] at hsorted
    rw [hlist, List.mem_append, List.mem_singleton] at hmem
    rcases hmem with hmem | hmem
    · exact hsorted.2.2 _ hmem e List.mem_cons_self
    · rw [hmem]
      exact (Std.Total.total e e).elim id id
  · simp only [List.mem_map, Linked, Option.bind_eq_some_iff]
    constructor
    · rintro ⟨f, hf, rfl⟩
      exact ⟨f.2, mem_linkedRows.mp hf⟩
    · rintro ⟨row, hrow, hlink⟩
      exact ⟨(k, row), mem_linkedRows.mpr ⟨hrow, hlink⟩, rfl⟩

/-! ## the moves -/

theorem mem_flashingKeys {k : Key} : k ∈ flashingKeys modules ↔
      ∃ row, modules.get? k = some row ∧ row.firmwareUpdating = true := by
  simp only [flashingKeys, List.mem_map, List.mem_filter]
  constructor
  · rintro ⟨e, ⟨he, hflash⟩, rfl⟩
    exact ⟨e.2, (Table.mem_entries_iff _ _ _).mp he, hflash⟩
  · rintro ⟨row, hrow, hflash⟩
    exact ⟨(k, row), ⟨(Table.mem_entries_iff _ _ _).mpr hrow, hflash⟩, rfl⟩

theorem mem_flashingModules : uid ∈ flashingModules modules ↔ ∃ k row, modules.get? k = some row ∧
      row.firmwareUpdating = true ∧ row.trackedModule = some uid := by
  simp only [flashingModules, List.mem_filterMap, List.mem_filter]
  constructor
  · rintro ⟨e, ⟨he, hflash⟩, hlink⟩
    exact ⟨e.1, e.2, (Table.mem_entries_iff _ _ _).mp he, hflash, hlink⟩
  · rintro ⟨k, row, hrow, hflash, hlink⟩
    exact ⟨(k, row), ⟨(Table.mem_entries_iff _ _ _).mpr hrow, hflash⟩, hlink⟩

section moves

variable {old modules : Table Key StationModule} {rows : List TrackedRow}

/-- What makes a move. -/
structure Moving (old modules : Table Key StationModule) (rows : List TrackedRow) (m : Move) :
    Prop where
  reported : m.row ∈ rows
  once : reportedOnce rows m.row.uid = true
  latest : (before old m.row.uid).map Place.source = some m.source
  fresh : ¬ Linked old m.row.key m.row.uid
  idle : m.row.uid ∉ flashingModules modules
  unlocked : m.source ∉ flashingKeys modules

variable {m : Move}

theorem moveOf_eq_some {t : TrackedRow} (ht : t ∈ rows) (h : moveOf old modules rows t = some m) :
    m.row = t ∧ Moving old modules rows m := by
  unfold moveOf at h
  split at h
  · cases h
  · next place hbefore =>
    split at h
    · next hcond =>
      cases h
      have hkeys := (before_eq_some hbefore).2 t.key
      exact ⟨rfl, ht, hcond.1, by simp [hbefore],
        fun hlinked => hcond.2.2.2 (hkeys.mpr hlinked), hcond.2.1, hcond.2.2.1⟩
    · cases h

/-- And nothing else is needed. -/
theorem moveOf_of_moving (h : Moving old modules rows m) :
    ∃ m' ∈ movesOf old modules rows, m'.row = m.row ∧ m'.source = m.source := by
  obtain ⟨place, hbefore, hsource⟩ := Option.map_eq_some_iff.mp h.latest
  have hkeys := (before_eq_some hbefore).2 m.row.key
  refine ⟨⟨m.row, place.source, place.lastState⟩, List.mem_filterMap.mpr ⟨m.row, h.reported, ?_⟩,
    rfl, hsource⟩
  simp only [moveOf, hbefore]
  exact if_pos ⟨h.once, h.idle, hsource ▸ h.unlocked, fun hmem => h.fresh (hkeys.mp hmem)⟩

theorem Moving.linked (h : Moving old modules rows m) : Linked old m.source m.row.uid := by
  obtain ⟨place, hbefore, hsource⟩ := Option.map_eq_some_iff.mp h.latest
  exact hsource ▸ (before_eq_some hbefore).1.linked

theorem moving_of_mem (h : m ∈ movesOf old modules rows) : Moving old modules rows m := by
  obtain ⟨t, ht, hmove⟩ := List.mem_filterMap.mp h
  exact (moveOf_eq_some ht hmove).2

/-- A module that is reported once has no other row. -/
theorem once_pairwise (rows : List TrackedRow) :
    rows.Pairwise fun t t' => reportedOnce rows t.uid = true → t.uid ≠ t'.uid := by
  rw [List.pairwise_iff_forall_sublist]
  intro t t' hsub honce heq
  have hlen := (hsub.filter fun x => x.uid = t.uid).length_le
  simp only [reportedOnce, decide_eq_true_eq] at honce
  rw [honce] at hlen
  simp [heq] at hlen

/-- Different moves are of different modules. -/
theorem movesOf_uid (old modules : Table Key StationModule) (rows : List TrackedRow) :
    (movesOf old modules rows).Pairwise fun m m' => m.row.uid ≠ m'.row.uid := by
  rw [movesOf, List.pairwise_filterMap]
  refine (once_pairwise rows).imp_of_mem fun {t t'} ht ht' hne m hm m' hm' => ?_
  obtain ⟨rfl, hmoving⟩ := moveOf_eq_some ht hm
  obtain ⟨rfl, -⟩ := moveOf_eq_some ht' hm'
  exact hne hmoving.once

/-- A row is linked to one module, so the moves have different sources. -/
theorem movesOf_source (old modules : Table Key StationModule) (rows : List TrackedRow) :
    ((movesOf old modules rows).map (·.source)).Nodup := by
  rw [List.Nodup, List.pairwise_map]
  refine (movesOf_uid old modules rows).imp_of_mem fun {m m'} hm hm' hne heq => hne ?_
  have hlinked := (moving_of_mem hm).linked
  have hlinked' := (moving_of_mem hm').linked
  rw [Linked, heq, hlinked'] at hlinked
  exact (Option.some.inj hlinked).symm

/-- If no key is reported twice, the moves have different destinations. -/
theorem movesOf_dest (hn : (rows.map TrackedRow.key).Nodup) :
    ((movesOf old modules rows).map (·.row.key)).Nodup := by
  rw [List.Nodup, List.pairwise_map] at hn ⊢
  rw [movesOf, List.pairwise_filterMap]
  refine hn.imp_of_mem fun {t t'} ht ht' hne m hm m' hm' => ?_
  obtain ⟨rfl, -⟩ := moveOf_eq_some ht hm
  obtain ⟨rfl, -⟩ := moveOf_eq_some ht' hm'
  exact hne

end moves

/-! ## the rewrite of the calibration -/

/-- What the persisted values should be: the keys that the moves involve are cleared, and
every destination gets the old content of its source. -/
def follow (moves : List Move) (old : Table (Key × String) PersistedCapability) (k : Key)
    (capability : String) : Option PersistedCapability :=
  match moves.find? fun m => m.row.key = k with
  | some m => old.get? (m.source, capability)
  | none => if k ∈ involved moves then none else old.get? (k, capability)

section rewrite

variable {old : Table (Key × String) PersistedCapability} {moves : List Move}

theorem mem_calibration {key : Key} {capability : String} {row : PersistedCapability} :
    (capability, row) ∈ calibration old key ↔ old.get? (key, capability) = some row := by
  simp only [calibration, List.mem_filterMap, ← Table.mem_entries_iff]
  constructor
  · rintro ⟨⟨⟨k, c⟩, row'⟩, he, hsome⟩
    split at hsome
    · next hk =>
      cases hsome
      exact hk ▸ he
    · cases hsome
  · intro he
    exact ⟨_, he, by simp⟩

theorem mem_carriedRows {k : Key} {capability : String} {row : PersistedCapability} :
    ((k, capability), row) ∈ carriedRows old moves ↔
      ∃ m ∈ moves, m.row.key = k ∧ old.get? (m.source, capability) = some row := by
  simp only [carriedRows, List.mem_flatMap, List.mem_map, Prod.mk.injEq]
  constructor
  · rintro ⟨m, hm, ⟨c, row'⟩, he, ⟨hk, hc⟩, hrow⟩
    subst hc hrow
    exact ⟨m, hm, hk, mem_calibration.mp he⟩
  · rintro ⟨m, hm, hk, hget⟩
    exact ⟨m, hm, (capability, row), mem_calibration.mpr hget, ⟨hk, rfl⟩, rfl⟩

theorem calibration_nodup (key : Key) : ((calibration old key).map Prod.fst).Nodup := by
  rw [List.Nodup, List.pairwise_map, calibration, List.pairwise_filterMap]
  have hkeys := old.nodup
  rw [List.Nodup, List.pairwise_map] at hkeys
  refine hkeys.imp fun {e f} hne a ha b hb heq => hne ?_
  split at ha
  · next hek =>
    split at hb
    · next hfk =>
      cases ha
      cases hb
      exact Prod.ext (hek.trans hfk.symm) heq
    · cases hb
  · cases ha

/-- With different destinations no row is created twice. -/
theorem carriedRows_nodup (old : Table (Key × String) PersistedCapability)
    (hdest : (moves.map (·.row.key)).Nodup) : ((carriedRows old moves).map Prod.fst).Nodup := by
  induction moves with
  | nil => simp [carriedRows]
  | cons m moves ih =>
    rw [List.map_cons, List.nodup_cons] at hdest
    have hsplit : (carriedRows old (m :: moves)).map Prod.fst =
        ((calibration old m.source).map Prod.fst).map (fun c => (m.row.key, c)) ++
          (carriedRows old moves).map Prod.fst := by
      simp [carriedRows, List.map_map, Function.comp_def]
    rw [hsplit, List.nodup_append]
    refine ⟨(calibration_nodup m.source).map fun c c' h => (Prod.mk.inj h).2, ih hdest.2, ?_⟩
    intro a ha b hb
    obtain ⟨c, -, rfl⟩ := List.mem_map.mp ha
    obtain ⟨⟨⟨k, c'⟩, row⟩, he, rfl⟩ := List.mem_map.mp hb
    obtain ⟨m', hm', hk, -⟩ := mem_carriedRows.mp he
    rintro heq
    exact hdest.1 (List.mem_map.mpr ⟨m', hm', hk.trans (Prod.mk.inj heq).1.symm⟩)

/-- **The rewrite does not break the constraint**, and the persisted values follow. -/
theorem moveCapabilities_ok (old : Table (Key × String) PersistedCapability)
    (hdest : (moves.map (·.row.key)).Nodup) : ∃ new, moveCapabilities old moves = .ok new ∧
      ∀ k capability, new.get? (k, capability) = follow moves old k capability := by
  have hnodup := carriedRows_nodup old hdest
  have hfresh : ∀ e ∈ carriedRows old moves,
      (old.filter fun k _ => decide (k.1 ∉ involved moves)).get? e.1 = none := by
    rintro ⟨⟨k, c⟩, row⟩ he
    obtain ⟨m, hm, hk, -⟩ := mem_carriedRows.mp he
    have hin : k ∈ involved moves := List.mem_append_right _ (List.mem_map.mpr ⟨m, hm, hk⟩)
    simp [Table.get?_filter, hin]
  refine ⟨_, if_pos ⟨hnodup, hfresh⟩, fun k capability => ?_⟩
  ext row
  rw [Table.get?_insertAll_eq_some hnodup hfresh, mem_carriedRows, Table.get?_filter,
    Option.filter_eq_some_iff, follow]
  split
  · next m hfind =>
    have hm := List.mem_of_find?_eq_some hfind
    have hk : m.row.key = k := by simpa using List.find?_some hfind
    have hin : k ∈ involved moves := List.mem_append_right _ (List.mem_map.mpr ⟨m, hm, hk⟩)
    constructor
    · rintro (⟨-, hout⟩ | ⟨m', hm', hk', hget⟩)
      · simp [hin] at hout
      · rwa [List.inj_on_of_nodup_map hdest hm hm' (hk.trans hk'.symm)]
    · exact fun hget => .inr ⟨m, hm, hk, hget⟩
  · next hfind =>
    have hnone : ∀ m ∈ moves, m.row.key ≠ k := by simpa using hfind
    split
    · next hin =>
      simp only [reduceCtorEq, iff_false, not_or, not_exists, not_and]
      exact ⟨fun _ => by simp [hin], fun m hm hk => absurd hk (hnone m hm)⟩
    · next hin =>
      constructor
      · rintro (⟨hget, -⟩ | ⟨m, hm, hk, -⟩)
        · exact hget
        · exact absurd hk (hnone m hm)
      · exact fun hget => .inl ⟨hget, by simpa using hin⟩

end rewrite

/-! ## the rows after the carry-over -/

section finish

variable {env : Env}

/-- A row apart from its settings. -/
def StationModule.panel (row : StationModule) : StationModule :=
  { row with lastState := [], updatedAt := 0 }

/-- Carrying settings over leaves the rest of the rows alone. -/
theorem panel_carryState (env : Env) (old : Table (Key × String) PersistedCapability)
    (moves : List Move) (acc : Nat × Table Key StationModule) (k : Key) :
    ((moves.foldl (carryState env old) acc).2.get? k).map StationModule.panel =
      (acc.2.get? k).map StationModule.panel := by
  induction moves generalizing acc with
  | nil => rfl
  | cons m moves ih =>
    rw [List.foldl_cons, ih, carryState]
    split
    · rfl
    · rw [Table.get?_modify]
      split
      · cases acc.2.get? k <;> rfl
      · rfl

variable {k : Key}

theorem mem_staleRows {modules : Table Key StationModule} {rows : List TrackedRow} {uid : Uid} :
    k ∈ (staleRows modules rows uid).map Prod.fst ↔
      ∃ row, modules.get? k = some row ∧ row.trackedModule = some uid ∧
        k ∉ rows.map TrackedRow.key ∧ row.firmwareUpdating = false := by
  simp only [staleRows, List.mem_map, List.mem_insertionSort, List.mem_filter, decide_eq_true_eq]
  constructor
  · rintro ⟨e, ⟨he, hlink, hkey, hflash⟩, rfl⟩
    exact ⟨e.2, (Table.mem_entries_iff _ _ _).mp he, hlink, by simpa using hkey, hflash⟩
  · rintro ⟨row, hrow, hlink, hkey, hflash⟩
    exact ⟨(k, row), ⟨(Table.mem_entries_iff _ _ _).mpr hrow, hlink, by simpa using hkey, hflash⟩,
      rfl⟩

theorem get?_dropStale (modules : Table Key StationModule) (rows : List TrackedRow)
    (moves : List Move) (l : List TrackedRow) (acc : Table Key StationModule × Store) (k : Key) :
    (l.foldl (dropStale env modules rows moves) acc).1.get? k =
      if ∃ t ∈ l, k ∈ (staleRows modules rows t.uid).map Prod.fst then none else acc.1.get? k := by
  induction l generalizing acc with
  | nil => simp
  | cons t l ih =>
    have hstep : (dropStale env modules rows moves acc t).1.get? k =
        if k ∈ (staleRows modules rows t.uid).map Prod.fst then none else acc.1.get? k := by
      unfold dropStale
      simp only
      split
      · next hnone => simp [hnone.1]
      · rw [Table.get?_filter]
        split
        · next hk => simp [hk]
        · next hk => cases acc.1.get? k <;> simp [hk]
    rw [List.foldl_cons, ih, hstep]
    simp only [List.mem_cons, exists_eq_or_imp]
    split
    · next h => rw [if_pos (.inr h)]
    · next h =>
      split
      · next h' => rw [if_pos (.inl h')]
      · next h' => rw [if_neg (not_or.mpr ⟨h', h⟩)]

/-- A row at the end has the same link and flash state as before the carry-over. -/
theorem settled_of_finish {r r' : Registry} {sc : Scan} (h : finish env r sc = .ok r')
    {row : StationModule} (hrow : r'.modules.get? k = some row) :
    ∃ row₀, (settled env sc).get? k = some row₀ ∧ row₀.panel = row.panel := by
  unfold finish at h
  simp only at h
  split at h
  · cases h
  · split at h
    · cases h
    · cases h
      rw [Table.get?_filter, Option.filter_eq_some_iff, get?_dropStale] at hrow
      obtain ⟨hrow, -⟩ := hrow
      split at hrow
      · cases hrow
      · have hpanel := panel_carryState env r.capabilities
          (movesOf r.modules (settled env sc) sc.trackedRows) (sc.saves, settled env sc) k
        rw [hrow, Option.map_some] at hpanel
        obtain ⟨row₀, hrow₀, heq⟩ := Option.map_eq_some_iff.mp hpanel.symm
        exact ⟨row₀, hrow₀, heq⟩

/-- A row that is being flashed stays. -/
theorem finish_of_flashing {r r' : Registry} {sc : Scan} (h : finish env r sc = .ok r')
    {row₀ : StationModule} (hrow : (settled env sc).get? k = some row₀)
    (hflash : row₀.firmwareUpdating = true) :
    ∃ row, r'.modules.get? k = some row ∧ row.panel = row₀.panel := by
  unfold finish at h
  simp only at h
  split at h
  · cases h
  · split at h
    · cases h
    · cases h
      have hpanel := panel_carryState env r.capabilities
        (movesOf r.modules (settled env sc) sc.trackedRows) (sc.saves, settled env sc) k
      rw [hrow, Option.map_some] at hpanel
      obtain ⟨row, hcarried, heq⟩ := Option.map_eq_some_iff.mp hpanel
      have hrowFlash : row.firmwareUpdating = true := by
        have hsame := congrArg StationModule.firmwareUpdating heq
        exact hsame.trans hflash
      refine ⟨row, ?_, heq⟩
      rw [Table.get?_filter, get?_dropStale, if_neg, hcarried]
      · simp [expired, hrowFlash]
      · rintro ⟨t, -, hstale⟩
        obtain ⟨row', hrow', -, -, hidle⟩ := mem_staleRows.mp hstale
        rw [hcarried] at hrow'
        cases hrow'
        simp [hrowFlash] at hidle

end finish

/-! ## the settings follow -/

/-- The modules that `ingest_module` accepts from the snapshot, with their keys. -/
def accepted (env : Env) (r : Registry) (slots : List SlotEntry) : List (Key × Uid) :=
  match scan env r slots with
  | .ok sc => sc.trackedRows.map fun t => (t.key, t.uid)
  | .error _ => []

/-- The moves of a snapshot. -/
def moves (env : Env) (r : Registry) (slots : List SlotEntry) : List Move :=
  match scan env r slots with
  | .ok sc => if slots = [] then [] else movesOf r.modules (settled env sc) sc.trackedRows
  | .error _ => []

/-- A tracked module has been re-plugged: it is reported once, at a key where it had no row
before, its most recently seen row was at the source, and neither is being flashed. -/
structure Replugged (r r' : Registry) (accepted : List (Key × Uid)) (uid : Uid)
    (source dest : Key) : Prop where
  reported : accepted.filter (fun a => a.2 = uid) = [(dest, uid)]
  latest : (before r.modules uid).map Place.source = some source
  fresh : ¬ Linked r.modules dest uid
  idle : ∀ k row, r'.modules.get? k = some row → row.firmwareUpdating = true →
    row.trackedModule ≠ some uid ∧ k ≠ source

/-- The loop over a snapshot never fails. -/
theorem scan_ok (env : Env) (r : Registry) (slots : List SlotEntry) :
    ∃ sc outs, scan env r slots = .ok sc ∧ outs.map Out.report = reports slots ∧
      Scanned env { modules := r.modules, store := r.store } outs sc :=
  foldlM_applyEntry_ok env (reports slots) _

section settled

variable {env : Env} {sc sc' : Scan} {outs : List Out}

theorem mem_reported (h : Scanned env sc outs sc') {o : Out} (ho : o ∈ outs) :
    o.key ∈ sc'.reported := by
  rw [h.reported]
  exact List.mem_append_left _ (List.mem_reverse.mpr (List.mem_map_of_mem ho))

/-- A reported row is the one that the loop has left. -/
theorem settled_reported (h : Scanned env sc outs sc') (hn : (outs.map Out.key).Nodup) {o : Out}
    (ho : o ∈ outs) : ∃ row, (settled env sc').get? o.key = some row ∧
      sc'.modules.get? o.key = some row ∧ Left env o (sc.modules.get? o.key) row := by
  obtain ⟨row, hrow, hleft⟩ := h.left hn o ho
  refine ⟨row, ?_, hrow, hleft⟩
  simp [settled, endOutage, softOffline, hrow, mem_reported h ho, hleft.offlineWithStation]

theorem keys_of_reports {slots : List SlotEntry} (h : outs.map Out.report = reports slots) :
    outs.map Out.key = (reports slots).map Prod.fst := by
  rw [← h, List.map_map]
  rfl

theorem trackedRows_keys (h : Scanned env sc outs sc') (hstart : sc.trackedRows = [])
    (hn : (outs.map Out.key).Nodup) : (sc'.trackedRows.map TrackedRow.key).Nodup := by
  rw [List.Nodup, List.pairwise_map] at hn ⊢
  rw [h.trackedRows, hstart, List.nil_append]
  refine pairwise_filterMap_key Out.key TrackedRow.key (fun o t ht => ?_) hn
  obtain ⟨uid, -, rfl⟩ := Option.map_eq_some_iff.mp ht
  rfl

end settled

/-- The rest of a snapshot that names no key twice does not fail either. -/
theorem finish_ok (env : Env) (r : Registry) (hn : (sc.trackedRows.map TrackedRow.key).Nodup) :
    ∃ r', finish env r sc = .ok r' ∧ ∀ k capability, r'.capabilities.get? (k, capability) =
      follow (movesOf r.modules (settled env sc) sc.trackedRows) r.capabilities k capability := by
  have hdest : ((movesOf r.modules (settled env sc) sc.trackedRows).map (·.row.key)).Nodup :=
    movesOf_dest hn
  obtain ⟨new, hnew, hfollow⟩ := moveCapabilities_ok r.capabilities hdest
  unfold finish
  simp only [hnew]
  generalize List.foldl (dropStale _ _ _ _) _ _ = cleaned
  obtain ⟨store, hstore, -⟩ := cleaned.2.reconcileStation_ok env.now env.station sc.trackedSlots
    sc.reportedUidBySlot
  rw [hstore]
  exact ⟨_, rfl, hfollow⟩

/-- A key that is being flashed at the end is none of those that the moves involve. -/
theorem not_involved_of_flashing {env : Env} {r r' : Registry} {outs : List Out}
    (hscan : Scanned env { modules := r.modules, store := r.store } outs sc)
    (hn : (outs.map Out.key).Nodup) (h : finish env r sc = .ok r') {k : Key} {row : StationModule}
    (hrow : r'.modules.get? k = some row) (hflash : row.firmwareUpdating = true) :
    k ∉ involved (movesOf r.modules (settled env sc) sc.trackedRows) := by
  obtain ⟨row₀, hrow₀, hpanel⟩ := settled_of_finish h hrow
  have hflash₀ : row₀.firmwareUpdating = true :=
    (congrArg StationModule.firmwareUpdating hpanel).trans hflash
  intro hin
  rcases List.mem_append.mp hin with hin | hin
  · obtain ⟨m, hm, rfl⟩ := List.mem_map.mp hin
    exact (moving_of_mem hm).unlocked (mem_flashingKeys.mpr ⟨row₀, hrow₀, hflash₀⟩)
  · obtain ⟨m, hm, rfl⟩ := List.mem_map.mp hin
    have hmem := (moving_of_mem hm).reported
    rw [hscan.trackedRows, List.nil_append] at hmem
    obtain ⟨o, ho, ht⟩ := List.mem_filterMap.mp hmem
    obtain ⟨uid, huid, heq⟩ := Option.map_eq_some_iff.mp ht
    have hkey : m.row.key = o.key := by rw [← heq]
    obtain ⟨row₁, hrow₁, -, hleft⟩ := settled_reported hscan hn ho
    rw [hkey, hrow₁] at hrow₀
    cases hrow₀
    rw [hleft.firmwareUpdating, (hscan.uid o ho uid huid).1] at hflash₀
    cases hflash₀

theorem reported_iff_once {rows : List TrackedRow} {t : TrackedRow} (ht : t ∈ rows) :
    reportedOnce rows t.uid = true ↔
      (rows.map fun t => (t.key, t.uid)).filter (fun a => a.2 = t.uid) = [(t.key, t.uid)] := by
  have hmem : t ∈ rows.filter fun t' => t'.uid = t.uid := List.mem_filter.mpr ⟨ht, by simp⟩
  simp only [reportedOnce, decide_eq_true_eq, List.filter_map, Function.comp_def]
  constructor
  · intro hlen
    obtain ⟨t', heq⟩ := List.length_eq_one_iff.mp hlen
    rw [heq, List.mem_singleton] at hmem
    rw [heq, hmem]
    rfl
  · intro heq
    simpa using congrArg List.length heq

/-- The moves are those of the re-plugged modules. -/
theorem moved_iff_replugged {env : Env} {r r' : Registry} (h : finish env r sc = .ok r') (uid : Uid)
    (source dest : Key) : (∃ m ∈ movesOf r.modules (settled env sc) sc.trackedRows,
      m.row.uid = uid ∧ m.source = source ∧ m.row.key = dest) ↔
      Replugged r r' (sc.trackedRows.map fun t => (t.key, t.uid)) uid source dest := by
  constructor
  · rintro ⟨m, hm, rfl, rfl, rfl⟩
    have hmoving := moving_of_mem hm
    refine ⟨(reported_iff_once hmoving.reported).mp hmoving.once, hmoving.latest, hmoving.fresh,
      fun k row hrow hflash => ?_⟩
    obtain ⟨row₀, hrow₀, hpanel⟩ := settled_of_finish h hrow
    have hflash₀ := (congrArg StationModule.firmwareUpdating hpanel).trans hflash
    constructor
    · intro hlink
      have hlink₀ := (congrArg StationModule.trackedModule hpanel).trans hlink
      exact hmoving.idle (mem_flashingModules.mpr ⟨k, row₀, hrow₀, hflash₀, hlink₀⟩)
    · rintro rfl
      exact hmoving.unlocked (mem_flashingKeys.mpr ⟨row₀, hrow₀, hflash₀⟩)
  · intro hreplugged
    have hmem : (dest, uid) ∈ sc.trackedRows.map fun t => (t.key, t.uid) := by
      have hin : (dest, uid) ∈ (sc.trackedRows.map fun t => (t.key, t.uid)).filter
          fun a => a.2 = uid := by simp [hreplugged.reported]
      exact (List.mem_filter.mp hin).1
    obtain ⟨t, ht, heq⟩ := List.mem_map.mp hmem
    obtain ⟨rfl, rfl⟩ := Prod.mk.inj heq
    have hmoving : Moving r.modules (settled env sc) sc.trackedRows ⟨t, source, []⟩ := by
      refine ⟨ht, (reported_iff_once ht).mpr hreplugged.reported, hreplugged.latest,
        hreplugged.fresh, fun hin => ?_, fun hin => ?_⟩
      · obtain ⟨k, row₀, hrow₀, hflash₀, hlink₀⟩ := mem_flashingModules.mp hin
        obtain ⟨row, hrow, hpanel⟩ := finish_of_flashing h hrow₀ hflash₀
        exact (hreplugged.idle k row hrow
          ((congrArg StationModule.firmwareUpdating hpanel).trans hflash₀)).1
          ((congrArg StationModule.trackedModule hpanel).trans hlink₀)
      · obtain ⟨row₀, hrow₀, hflash₀⟩ := mem_flashingKeys.mp hin
        obtain ⟨row, hrow, hpanel⟩ := finish_of_flashing h hrow₀ hflash₀
        exact (hreplugged.idle source row hrow
          ((congrArg StationModule.firmwareUpdating hpanel).trans hflash₀)).2 rfl
    obtain ⟨m, hm, hrow, hsource⟩ := moveOf_of_moving hmoving
    exact ⟨m, hm, by rw [hrow], hsource, by rw [hrow]⟩

/-- **The persisted settings follow the re-plugged modules.**  For every state of the tables
and every snapshot that names no key twice, `apply_inventory` does not fail; the persisted
values are the old ones with the sources and destinations of the moves cleared and every
destination set to the old content of its source; the sources, and the destinations, are
different keys; the moves are those of the re-plugged modules; and the values of a key that
is being flashed stay. -/
theorem settings_follow_module (env : Env) (r : Registry) (slots : List SlotEntry)
    (hkeys : ((reports slots).map Prod.fst).Nodup) : ∃ r', applyInventory env r slots = .ok r' ∧
      (∀ k capability, r'.capabilities.get? (k, capability) =
        follow (moves env r slots) r.capabilities k capability) ∧
      ((moves env r slots).map (·.source)).Nodup ∧ ((moves env r slots).map (·.row.key)).Nodup ∧
      (∀ uid source dest,
        (∃ m ∈ moves env r slots, m.row.uid = uid ∧ m.source = source ∧ m.row.key = dest) ↔
          Replugged r r' (accepted env r slots) uid source dest) ∧
      ∀ k row, r'.modules.get? k = some row → row.firmwareUpdating = true → ∀ capability,
        r'.capabilities.get? (k, capability) = r.capabilities.get? (k, capability) := by
  obtain ⟨sc, outs, hscan, houts, hscanned⟩ := scan_ok env r slots
  have hn : (outs.map Out.key).Nodup := by rwa [keys_of_reports houts]
  by_cases hempty : slots = []
  · -- an empty snapshot moves nothing
    subst hempty
    have hnone : outs = [] := by simpa [reports] using houts
    subst hnone
    have hmoves : moves env r [] = [] := by simp [moves, hscan]
    have haccepted : accepted env r [] = [] := by simpa [accepted, hscan] using hscanned.trackedRows
    have happly : applyInventory env r [] = .ok { r with
        modules := softOffline env.now sc.reported sc.modules
        store := sc.store } := by
      simp only [applyInventory, hscan, if_true]
    refine ⟨_, happly, ?_⟩
    rw [hmoves, haccepted]
    refine ⟨fun k capability => by simp [follow, involved], by simp, by simp, ?_,
      fun _ _ _ _ _ => rfl⟩
    refine fun uid source dest => ⟨by simp, fun h => ?_⟩
    simpa using h.reported
  · obtain ⟨r', hfinish, hfollow⟩ := finish_ok env r (trackedRows_keys hscanned rfl hn)
    have hmoves : moves env r slots = movesOf r.modules (settled env sc) sc.trackedRows := by
      simp [moves, hscan, hempty]
    have haccepted : accepted env r slots = sc.trackedRows.map fun t => (t.key, t.uid) := by
      simp [accepted, hscan]
    refine ⟨r', by simp only [applyInventory, hscan, if_neg hempty, hfinish], ?_⟩
    rw [hmoves, haccepted]
    refine ⟨hfollow, movesOf_source .., movesOf_dest (trackedRows_keys hscanned rfl hn),
      moved_iff_replugged hfinish, fun k row hrow hflash capability => ?_⟩
    have hout := not_involved_of_flashing hscanned hn hfinish hrow hflash
    have hfind : (movesOf r.modules (settled env sc) sc.trackedRows).find?
        (fun m => m.row.key = k) = none := by
      refine List.find?_eq_none.mpr fun m hm hk => hout (List.mem_append_right _ ?_)
      exact List.mem_map.mpr ⟨m, hm, of_decide_eq_true hk⟩
    simp [hfollow, follow, hfind, hout]

namespace Sample

/-- A station with a module of a registered type in each of two slots, each with a persisted
value. -/
def registry : Registry where
  modules := ⟨[(("1", "fm"), { trackedModule := some "a", online := true, updatedAt := 0 }),
    (("2", "fm"), { trackedModule := some "b", online := true, updatedAt := 0 })], by decide⟩
  capabilities := ⟨[((("1", "fm"), "filter_hpf"), ⟨.bool true, none⟩),
    ((("2", "fm"), "filter_hpf"), ⟨.bool false, none⟩)], by decide⟩
  store := {
    db := {
      moduleTypes := ⟨[(1, ⟨"fm"⟩)], by decide⟩
      modules := ⟨[("a", { moduleType := 1 }), ("b", { moduleType := 1 })], by decide⟩
      stations := ⟨[(1, { name := "S" })], by decide⟩
      assignments := Table.empty
      targets := []
      releases := ⟨Table.empty, by decide⟩
      rows := Table.empty
      locks := Table.empty
      auditLog := [] }
    history := History.empty
    synced := rfl }
  panelLog := []

def env : Env where
  station := 1
  now := 10
  stamp n := 10 + n
  ttl := 172800
  ttlHours := "48"

/-- A report of an `fm` module. -/
def fm (uid : Uid) : Entry := { module := some "fm", identity := { uid := some uid } }

/-- The two modules have changed places. -/
def swapped : List SlotEntry := [⟨some (.int 1), [fm "b"]⟩, ⟨some (.int 2), [fm "a"]⟩]

/-- Both are reported as the same module of a third slot. -/
def crowded : List SlotEntry := [⟨some (.int 3), [fm "a", fm "b"]⟩]

end Sample

/-- The values change places too. -/
theorem settings_follow_module_swapped :
    ∃ r', applyInventory Sample.env Sample.registry Sample.swapped = .ok r' ∧
      r'.capabilities.get? (("1", "fm"), "filter_hpf") = some ⟨.bool false, none⟩ ∧
      r'.capabilities.get? (("2", "fm"), "filter_hpf") = some ⟨.bool true, none⟩ := by
  obtain ⟨r', happly, hfollow, -⟩ := settings_follow_module Sample.env Sample.registry
    Sample.swapped (by decide)
  refine ⟨r', happly, ?_, ?_⟩
  · rw [hfollow]
    decide +kernel
  · rw [hfollow]
    decide +kernel

/-- Two modules that move to one key: the rewrite breaks `uniq_persisted_cap`. -/
theorem crowded_snapshot_refused :
    (moves Sample.env Sample.registry Sample.crowded).map (fun m => (m.row.uid, m.row.key)) =
      [("a", ("3", "fm")), ("b", ("3", "fm"))] ∧
    (applyInventory Sample.env Sample.registry Sample.crowded).map (fun _ => ()) =
      .error .persistedCap := by
  decide +kernel

end StationManager.Control.Inventory
