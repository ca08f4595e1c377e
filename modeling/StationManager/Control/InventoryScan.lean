import StationManager.Control.Inventory

/-!
# StationManager.Control.InventoryScan

What the loop of `apply_inventory` does with an entry, and what it leaves of a snapshot
that names no key twice.
-/

namespace StationManager.Control.Inventory

open Firmware

/-! ## one entry -/

theorem get?_updateOrCreate (modules : Table Key StationModule) (key k : Key) (stamp : Time)
    (set create : StationModule → StationModule) :
    (updateOrCreate modules key stamp set create).get? k =
      if k = key then some (match modules.get? key with
        | none => create { updatedAt := stamp }
        | some row => { set row with updatedAt := stamp })
      else modules.get? k := by
  unfold updateOrCreate
  cases hget : modules.get? key with
  | none => simp [Table.get?_insert, hget]
  | some row =>
    simp only [Table.get?_modify]
    split
    · next hk => simp [hk, hget]
    · rfl

/-- An entry and what `ingest_module` answered; an updating entry is not ingested. -/
structure Out where
  key : Key
  entry : Entry
  tracked : Option Uid

namespace Out

def report (o : Out) : Key × Entry := (o.key, o.entry)

/-- The row object that is kept of a tracked module. -/
def trackedRow (o : Out) : Option TrackedRow :=
  o.tracked.map fun uid =>
    ⟨o.key, uid, o.entry.capabilities, settings o.entry.capabilities o.entry.state⟩

end Out

/-- What the loop does with an entry. -/
inductive Applied (env : Env) (sc : Scan) : Out → Scan → Prop
  | updating {key : Key} {m : Entry} (h : m.updating = true) : Applied env sc ⟨key, m, none⟩
      { sc with
        modules := applyUpdatingEntry env (env.stamp sc.saves) sc.modules key m
        saves := sc.saves + 1
        reported := key :: sc.reported
        trackedSlots := key.1 :: sc.trackedSlots }
  | ingested {key : Key} {m : Entry} {store : Store} {tracked : Option Uid}
      (h : m.updating = false)
      (hingest : sc.store.ingestModule env.now env.station key.1 (some key.2) m.identity none
        (!(sc.modules.get? key).any (·.online)) = .ok (store, tracked)) :
      Applied env sc ⟨key, m, tracked⟩ (ingested env sc key m store tracked)

/-- An entry never breaks a constraint. -/
theorem applyEntry_ok (env : Env) (sc : Scan) (report : Key × Entry) :
    ∃ o sc', applyEntry env sc report = .ok sc' ∧ o.report = report ∧ Applied env sc o sc' := by
  obtain ⟨key, m⟩ := report
  cases h : m.updating with
  | true => exact ⟨⟨key, m, none⟩, _, by simp [applyEntry, h], rfl, .updating h⟩
  | false =>
    obtain ⟨store, tracked, hingest, -⟩ := sc.store.ingestModule_ok env.now env.station key.1
      (some key.2) m.identity none (!(sc.modules.get? key).any (·.online))
    exact ⟨⟨key, m, tracked⟩, _, by simp [applyEntry, h, hingest], rfl, .ingested h hingest⟩

/-- An accepted module is the reported one. -/
theorem accept_uid {db db' : Db} {now : Time} {station : Pk} {slot : String}
    {moduleId : Option String} {m : Entry} {uid : Uid}
    (h : db.accept now station slot moduleId m.identity = (db', some uid)) : m.uid? = some uid := by
  simp only [Db.accept] at h
  cases huid : m.identity.uid with
  | none => simp [huid] at h
  | some v =>
    simp only [huid] at h
    split at h
    · cases h
    · next hblank =>
      have hv : v = uid := by
        split at h
        · cases h
        · split at h
          · cases h
            rfl
          · split at h <;> cases h
            rfl
      subst hv
      simp [Entry.uid?, huid, hblank]

theorem ingestModule_uid {s s' : Store} {now : Time} {station : Pk} {slot : String}
    {moduleId : Option String} {m : Entry} {cameOnline : Bool} {uid : Uid}
    (h : s.ingestModule now station slot moduleId m.identity none cameOnline =
      .ok (s', some uid)) : m.uid? = some uid := by
  obtain ⟨s'', accepted, hok, haccepted, -⟩ := s.ingestModule_ok now station slot moduleId
    m.identity none cameOnline
  rw [h] at hok
  cases hok
  exact accept_uid (Prod.ext rfl haccepted.symm)

/-! ## the row of an entry -/

/-- The row after an updating entry. -/
def paused (env : Env) (stamp : Time) (m : Entry) : Option StationModule → StationModule
  | none => (m.describe { updatedAt := stamp }).present env.now true
  | some row => { row.present env.now true with updatedAt := stamp }

/-- The row after any other entry. -/
def shown (env : Env) (stamp : Time) (m : Entry) (link : Option Uid) : StationModule :=
  { (m.describe { updatedAt := stamp }).present env.now false with trackedModule := link }

/-- The link after an entry that `ingest_module` has answered. -/
def linkAfter (db : Db) (m : Entry) (tracked old : Option Uid) : Option Uid :=
  match tracked with
  | some uid => some uid
  | none => keptLink db m.uid? old

theorem get?_applyUpdatingEntry (env : Env) (stamp : Time) (modules : Table Key StationModule)
    (key k : Key) (m : Entry) : (applyUpdatingEntry env stamp modules key m).get? k =
      if k = key then some (paused env stamp m (modules.get? key)) else modules.get? k := by
  rw [applyUpdatingEntry, get?_updateOrCreate]
  cases modules.get? key <;> rfl

theorem get?_ingested (env : Env) (sc : Scan) (key k : Key) (m : Entry) (store : Store)
    (tracked : Option Uid) : (ingested env sc key m store tracked).modules.get? k =
      if k = key then some (shown env (env.stamp sc.saves) m
        (linkAfter store.db m tracked ((sc.modules.get? key).bind (·.trackedModule))))
      else sc.modules.get? k := by
  simp only [ingested, Table.get?_modify, get?_updateOrCreate]
  split
  · cases sc.modules.get? key <;> cases tracked <;> rfl
  · rfl

/-- The row that an entry leaves, given the one it found. -/
inductive Left (env : Env) (o : Out) (old : Option StationModule) : StationModule → Prop
  | paused (h : o.entry.updating = true) (stamp : Time) :
      Left env o old (paused env stamp o.entry old)
  | shown (h : o.entry.updating = false) (stamp : Time) (db : Db) :
      Left env o old (shown env stamp o.entry
        (linkAfter db o.entry o.tracked (old.bind (·.trackedModule))))

namespace Left

variable {env : Env} {o : Out} {old : Option StationModule} {row : StationModule}

theorem offlineWithStation (h : Left env o old row) : row.offlineWithStation = false := by
  cases h with
  | paused => cases old <;> rfl
  | shown => rfl

theorem firmwareUpdating (h : Left env o old row) : row.firmwareUpdating = o.entry.updating := by
  cases h with
  | paused h => cases old <;> simp [Inventory.paused, StationModule.present, h]
  | shown h => simp [Inventory.shown, StationModule.present, h]

end Left

/-- An entry leaves its row, and the others as they are. -/
theorem Applied.get? {env : Env} {sc sc' : Scan} {o : Out} (h : Applied env sc o sc') :
    ∃ row, Left env o (sc.modules.get? o.key) row ∧
      ∀ k, sc'.modules.get? k = if k = o.key then some row else sc.modules.get? k := by
  cases h with
  | updating h => exact ⟨_, .paused h _, fun k => get?_applyUpdatingEntry ..⟩
  | ingested h => exact ⟨_, .shown h _ _, fun k => get?_ingested ..⟩

/-! ## the loop -/

/-- What the loop does with a list of entries. -/
inductive Scanned (env : Env) : Scan → List Out → Scan → Prop
  | nil {sc : Scan} : Scanned env sc [] sc
  | cons {sc sc₁ sc' : Scan} {o : Out} {outs : List Out} (h : Applied env sc o sc₁)
      (hrest : Scanned env sc₁ outs sc') : Scanned env sc (o :: outs) sc'

/-- **The loop never fails.** -/
theorem foldlM_applyEntry_ok (env : Env) (reports : List (Key × Entry)) (sc : Scan) :
    ∃ sc' outs, reports.foldlM (applyEntry env) sc = .ok sc' ∧ outs.map Out.report = reports ∧
      Scanned env sc outs sc' := by
  induction reports generalizing sc with
  | nil => exact ⟨sc, [], rfl, rfl, .nil⟩
  | cons report reports ih =>
    obtain ⟨o, sc₁, happly, hreport, happlied⟩ := applyEntry_ok env sc report
    obtain ⟨sc', outs, hrest, houts, hscanned⟩ := ih sc₁
    rw [List.foldlM_cons, happly]
    exact ⟨sc', o :: outs, hrest, by simp [hreport, houts], .cons happlied hscanned⟩

namespace Scanned

variable {env : Env} {sc sc' : Scan} {outs : List Out}

theorem reported (h : Scanned env sc outs sc') :
    sc'.reported = (outs.map Out.key).reverse ++ sc.reported := by
  induction h with
  | nil => rfl
  | cons h _ ih => cases h <;> simp [ih, Inventory.ingested]

theorem trackedRows (h : Scanned env sc outs sc') :
    sc'.trackedRows = sc.trackedRows ++ outs.filterMap Out.trackedRow := by
  induction h with
  | nil => simp
  | cons h _ ih =>
    cases h with
    | updating => simp [ih, Out.trackedRow, List.filterMap_cons]
    | @ingested _ _ _ tracked =>
      cases tracked <;> simp [ih, Inventory.ingested, Out.trackedRow, List.filterMap_cons]

/-- A row that is not reported stays. -/
theorem get?_other (h : Scanned env sc outs sc') {k : Key} (hk : k ∉ outs.map Out.key) :
    sc'.modules.get? k = sc.modules.get? k := by
  induction h with
  | nil => rfl
  | cons h _ ih =>
    obtain ⟨_, -, hget⟩ := h.get?
    simp only [List.map_cons, List.mem_cons, not_or] at hk
    rw [ih hk.2, hget, if_neg hk.1]

/-- An accepted module is the reported one. -/
theorem uid (h : Scanned env sc outs sc') : ∀ o ∈ outs, ∀ uid, o.tracked = some uid →
    o.entry.updating = false ∧ o.entry.uid? = some uid := by
  induction h with
  | nil => simp
  | cons h _ ih =>
    intro o ho uid huid
    rcases List.mem_cons.mp ho with rfl | ho
    · cases h with
      | updating => cases huid
      | ingested h hingest =>
        cases huid
        exact ⟨h, ingestModule_uid hingest⟩
    · exact ih o ho uid huid

/-- In a snapshot that names no key twice every entry leaves its row. -/
theorem left (h : Scanned env sc outs sc') (hn : (outs.map Out.key).Nodup) :
    ∀ o ∈ outs, ∃ row, sc'.modules.get? o.key = some row ∧
      Left env o (sc.modules.get? o.key) row := by
  induction h with
  | nil => simp
  | @cons _ _ _ first _ h hrest ih =>
    rw [List.map_cons, List.nodup_cons] at hn
    intro o ho
    obtain ⟨row, hleft, hget⟩ := h.get?
    rcases List.mem_cons.mp ho with rfl | hmem
    · exact ⟨row, by rw [hrest.get?_other hn.1, hget, if_pos rfl], hleft⟩
    · have hne : o.key ≠ first.key := fun heq => hn.1 (heq ▸ List.mem_map_of_mem hmem)
      have hrow := ih hn.2 o hmem
      rwa [hget, if_neg hne] at hrow

end Scanned

end StationManager.Control.Inventory
