import Mathlib.Data.List.Nodup

/-!
# StationManager.Lib.Table

Keyed tables: association lists whose keys are pairwise distinct, kept in
insertion order.  A table is what a database table with a unique key looks
like to the code above it: a row is found by its key (`get?`), rewritten in
place (`modify`, `map`), appended under a fresh key (`insert`) or dropped
(`erase`), and a query walks `entries` in the order the rows were created.

Key uniqueness is a field of the table, so no operation has to re-establish
it, and the read-after-write laws below are the only facts the modules above
need about the representation.
-/

namespace StationManager

/-- Serial primary keys. -/
abbrev Pk := Nat

/-- Time stamps, in microseconds. -/
abbrev Time := Nat

/-- Rows addressed by a unique key, in insertion order. -/
structure Table (κ : Type u) (α : Type v) where
  entries : List (κ × α)
  nodup : (entries.map Prod.fst).Nodup
deriving DecidableEq, Repr

namespace Table

/-- The table without rows. -/
def empty : Table κ α := ⟨[], List.nodup_nil⟩

/-- Rewrite every row, keys included in what the rewriting may look at. -/
def map (t : Table κ α) (f : κ → α → α) : Table κ α where
  entries := t.entries.map fun e => (e.1, f e.1 e.2)
  nodup := by
    have hkeys : (t.entries.map fun e => (e.1, f e.1 e.2)).map Prod.fst =
        t.entries.map Prod.fst := by simp
    rw [hkeys]
    exact t.nodup

/-- Keep the rows that satisfy `p`. -/
def filter (t : Table κ α) (p : κ → α → Bool) : Table κ α where
  entries := t.entries.filter fun e => p e.1 e.2
  nodup := t.nodup.sublist ((List.filter_sublist).map Prod.fst)

variable [DecidableEq κ]

/-- The row stored under `k`. -/
def get? (t : Table κ α) (k : κ) : Option α :=
  (t.entries.find? fun e => decide (e.1 = k)).map Prod.snd

/-- Rewrite the row stored under `k`; a missing key changes nothing. -/
def modify (t : Table κ α) (k : κ) (f : α → α) : Table κ α :=
  t.map fun j a => if j = k then f a else a

/-- Append a row under a fresh key; a key that is taken keeps its row. -/
def insert (t : Table κ α) (k : κ) (a : α) : Table κ α :=
  if h : k ∈ t.entries.map Prod.fst then t
  else ⟨t.entries ++ [(k, a)], by
    rw [List.map_append, List.nodup_append]
    refine ⟨t.nodup, by simp, ?_⟩
    intro x hx y hy hxy
    simp only [List.map_cons, List.map_nil, List.mem_singleton] at hy
    subst hxy hy
    exact h hx⟩

/-- Append rows one after the other. -/
def insertAll (t : Table κ α) (es : List (κ × α)) : Table κ α :=
  es.foldl (fun t e => t.insert e.1 e.2) t

/-- Write a row, over the one of the key if there is one. -/
def put (t : Table κ α) (k : κ) (a : α) : Table κ α := (t.insert k a).modify k fun _ => a

def putAll (t : Table κ α) (es : List (κ × α)) : Table κ α :=
  es.foldl (fun t e => t.put e.1 e.2) t

/-- Drop the row stored under `k`. -/
def erase (t : Table κ α) (k : κ) : Table κ α := t.filter fun j _ => decide (j ≠ k)

/-! ## reading a rewritten table -/

variable {es : List (κ × α)} {a : α} {p : α → Prop} {k : κ} (t : Table κ α) (g : α → α)

@[simp] theorem get?_map (f : κ → α → α) (k : κ) : (t.map f).get? k = (t.get? k).map (f k) := by
  simp only [get?, map]
  induction t.entries with
  | nil => rfl
  | cons e l ih =>
    by_cases he : e.1 = k
    · subst he
      simp
    · simp only [List.map_cons, List.find?_cons, he, decide_false]
      exact ih

theorem get?_modify (k j : κ) (f : α → α) :
    (t.modify k f).get? j = if j = k then (t.get? j).map f else t.get? j := by
  rw [modify, get?_map]
  split
  · rfl
  · simp

@[simp] theorem get?_modify_self (k : κ) (f : α → α) :
    (t.modify k f).get? k = (t.get? k).map f := by
  rw [get?_modify, if_pos rfl]

@[simp] theorem get?_modify_ne {j : κ} (f : α → α) (h : j ≠ k) :
    (t.modify k f).get? j = t.get? j := by
  rw [get?_modify, if_neg h]

/-- A key occurs in the table exactly when it has a row. -/
theorem mem_keys_iff (k : κ) : k ∈ t.entries.map Prod.fst ↔ (t.get? k).isSome = true := by
  rw [get?, Option.isSome_map, List.find?_isSome]
  simp

/-- Entries and lookups agree: a pair is stored iff looking its key up finds
its row. -/
theorem mem_entries_iff (k : κ) (a : α) : (k, a) ∈ t.entries ↔ t.get? k = some a := by
  obtain ⟨l, hl⟩ := t
  simp only [get?]
  induction l with
  | nil => simp
  | cons e l ih =>
    simp only [List.map_cons, List.nodup_cons] at hl
    by_cases he : e.1 = k
    · subst he
      have hnot : (e.1, a) ∉ l := fun hm => hl.1 (List.mem_map.mpr ⟨_, hm, rfl⟩)
      simp only [List.mem_cons, hnot, or_false, List.find?_cons, decide_true, Option.map_some,
        Option.some.injEq]
      constructor
      · intro h
        exact (congrArg Prod.snd h).symm
      · intro h
        rw [← h]
    · have hne : (k, a) ≠ e := fun h => he (by rw [← h])
      simp only [List.mem_cons, hne, false_or, List.find?_cons, he, decide_false]
      exact ih hl.2

theorem get?_insert (k j : κ) (a : α) :
    (t.insert k a).get? j = if j = k then some ((t.get? k).getD a) else t.get? j := by
  unfold insert
  split
  · next h =>
    split
    · next hj =>
      subst hj
      obtain ⟨b, hb⟩ := Option.isSome_iff_exists.mp ((mem_keys_iff t j).mp h)
      rw [hb]
      rfl
    · rfl
  · next h =>
    have hnone : t.get? k = none := by
      rw [mem_keys_iff] at h
      simpa using h
    simp only [get?, List.find?_append] at hnone ⊢
    split
    · next hj =>
      subst hj
      have hfind : t.entries.find? (fun e => decide (e.1 = j)) = none := by simpa using hnone
      rw [hfind]
      simp
    · next hj =>
      have hkj : k ≠ j := fun h' => hj h'.symm
      simp [hkj]

/-- What is in the table stays in it. -/
theorem get?_insert_of_get? {j : κ} {b : α} (h : t.get? j = some a) :
    (t.insert k b).get? j = some a := by
  rw [get?_insert]
  split
  · next hj => simp [← hj, h]
  · exact h

/-- Of several rows appended under one key the first one stays. -/
theorem get?_insertAll (es : List (κ × α)) (k : κ) :
    (t.insertAll es).get? k = (t.get? k).or ((es.find? fun e => e.1 = k).map Prod.snd) := by
  induction es generalizing t with
  | nil => simp [insertAll]
  | cons e es ih =>
    have hrest := ih (t.insert e.1 e.2)
    rw [insertAll] at hrest ⊢
    rw [List.foldl_cons, hrest, get?_insert]
    by_cases hk : k = e.1
    · subst hk
      cases t.get? e.1 <;> simp
    · have hne : e.1 ≠ k := fun h => hk h.symm
      simp [hk, hne]

theorem get?_put (k j : κ) (a : α) : (t.put k a).get? j = if j = k then some a else t.get? j := by
  rw [put, get?_modify, get?_insert]
  split <;> rfl

theorem get?_putAll_of_not_mem (h : k ∉ es.map Prod.fst) : (t.putAll es).get? k = t.get? k := by
  induction es generalizing t with
  | nil => rfl
  | cons e es ih =>
    rw [List.map_cons, List.mem_cons, not_or] at h
    rw [putAll, List.foldl_cons, ← putAll, ih _ h.2, get?_put, if_neg h.1]

theorem get?_putAll_of_mem (hn : (es.map Prod.fst).Nodup) (h : (k, a) ∈ es) :
    (t.putAll es).get? k = some a := by
  induction es generalizing t with
  | nil => cases h
  | cons e es ih =>
    rw [List.map_cons, List.nodup_cons] at hn
    rw [putAll, List.foldl_cons, ← putAll]
    rcases List.mem_cons.mp h with rfl | h
    · rw [get?_putAll_of_not_mem _ hn.1, get?_put, if_pos rfl]
    · exact ih _ hn.2 h

/-- New rows are appended. -/
theorem entries_insertAll (es : List (κ × α)) :
    ∃ new, (t.insertAll es).entries = t.entries ++ new ∧ ∀ e ∈ new, e ∈ es := by
  induction es generalizing t with
  | nil => exact ⟨[], by simp [insertAll]⟩
  | cons e es ih =>
    obtain ⟨new, hnew, hsub⟩ := ih (t.insert e.1 e.2)
    rw [insertAll] at hnew
    rw [insertAll, List.foldl_cons, hnew]
    unfold insert
    split
    · exact ⟨new, rfl, fun x hx => List.mem_cons_of_mem _ (hsub x hx)⟩
    · refine ⟨e :: new, by simp, fun x hx => ?_⟩
      rcases List.mem_cons.mp hx with rfl | hx
      · exact List.mem_cons_self
      · exact List.mem_cons_of_mem _ (hsub x hx)

theorem get?_filter (p : κ → α → Bool) (k : κ) : (t.filter p).get? k = (t.get? k).filter (p k) := by
  ext a
  rw [← mem_entries_iff, Option.filter_eq_some_iff, ← mem_entries_iff, filter, List.mem_filter]

/-- New rows under new keys. -/
theorem get?_insertAll_eq_some {t : Table κ α} (hn : (es.map Prod.fst).Nodup)
    (hfresh : ∀ e ∈ es, t.get? e.1 = none) :
    (t.insertAll es).get? k = some a ↔ t.get? k = some a ∨ (k, a) ∈ es := by
  have hrows : (es.find? fun e => e.1 = k).map Prod.snd = some a ↔ (k, a) ∈ es :=
    (mem_entries_iff ⟨es, hn⟩ k a).symm
  rw [get?_insertAll, ← hrows]
  cases hget : t.get? k with
  | none => simp
  | some b =>
    -- a key of the table is none of the new ones
    have hnone : es.find? (fun e => e.1 = k) = none := by
      refine List.find?_eq_none.mpr fun e he => ?_
      rintro hk
      simp [← of_decide_eq_true hk, hfresh e he] at hget
    simp [hnone]

theorem get?_erase (k j : κ) : (t.erase k).get? j = if j = k then none else t.get? j := by
  rw [erase, get?_filter]
  split
  · next hj => simp [hj]
  · next hj =>
    cases t.get? j with
    | none => rfl
    | some a => simp [hj]

theorem get?_of_erase {k j : κ} (h : (t.erase k).get? j = some a) : t.get? j = some a := by
  rw [get?_erase] at h
  split at h
  · cases h
  · exact h

/-- A key that is taken keeps its row. -/
theorem insert_of_get? (b : α) (h : t.get? k = some a) : t.insert k b = t :=
  dif_pos ((mem_keys_iff t k).mpr (by rw [h]; rfl))

theorem entries_insert (a : α) (h : t.get? k = none) :
    (t.insert k a).entries = t.entries ++ [(k, a)] := by
  have hmem : k ∉ t.entries.map Prod.fst := by
    rw [mem_keys_iff, h]
    exact Bool.false_ne_true
  rw [insert, dif_neg hmem]

/-- A rewriting that `u` does not see leaves what `u` sees of the table. -/
theorem map_modify (u : κ → α → α) (h : ∀ a, t.get? k = some a → u k (g a) = u k a) :
    (t.modify k g).map u = t.map u := by
  simp only [modify, map, List.map_map, mk.injEq]
  refine List.map_congr_left fun e he => ?_
  simp only [Function.comp_apply]
  by_cases hek : e.1 = k
  · subst hek
    rw [if_pos rfl, h e.2 ((mem_entries_iff t e.1 e.2).mp he)]
  · rw [if_neg hek]

theorem modify_of_fixed (h : ∀ a, t.get? k = some a → g a = a) : t.modify k g = t := by
  have hid : ∀ s : Table κ α, s.map (fun _ a => a) = s := fun s => by simp [map]
  have heq := t.map_modify g (fun _ a => a) h
  rwa [hid, hid] at heq

/-! ## rows with a property -/

/-- Some row has the property. -/
def Any (t : Table κ α) (p : α → Prop) : Prop := ∃ k a, t.get? k = some a ∧ p a

theorem any_insert {t : Table κ α} (h : t.get? k = none) :
    (t.insert k a).Any p ↔ t.Any p ∨ p a := by
  have hget : ∀ j, (t.insert k a).get? j = if j = k then some a else t.get? j := fun j => by
    rw [get?_insert, h, Option.getD_none]
  constructor
  · rintro ⟨j, b, hb, hp⟩
    rw [hget] at hb
    by_cases hj : j = k
    · rw [if_pos hj, Option.some.injEq] at hb
      exact .inr (hb ▸ hp)
    · rw [if_neg hj] at hb
      exact .inl ⟨j, b, hb, hp⟩
  · rintro (⟨j, b, hb, hp⟩ | hp)
    · have hj : j ≠ k := fun hj => by simp [hj, h] at hb
      exact ⟨j, b, by rw [hget, if_neg hj, hb], hp⟩
    · exact ⟨k, a, by rw [hget, if_pos rfl], hp⟩

theorem any_map {t : Table κ α} {f : κ → α → α} {q : α → Prop}
    (h : ∀ k a, t.get? k = some a → (p (f k a) ↔ q a)) : (t.map f).Any p ↔ t.Any q := by
  constructor
  · rintro ⟨k, b, hb, hp⟩
    rw [get?_map, Option.map_eq_some_iff] at hb
    obtain ⟨a, ha, rfl⟩ := hb
    exact ⟨k, a, ha, (h k a ha).mp hp⟩
  · rintro ⟨k, a, ha, hq⟩
    exact ⟨k, f k a, by rw [get?_map, ha, Option.map_some], (h k a ha).mpr hq⟩

theorem any_modify {t : Table κ α} {f : α → α} (h : ∀ a, t.get? k = some a → (p (f a) ↔ p a)) :
    (t.modify k f).Any p ↔ t.Any p := by
  refine any_map fun j a ha => ?_
  by_cases hj : j = k
  · subst hj
    simpa using h a ha
  · simp [hj]

theorem any_of_erase {t : Table κ α} (h : (t.erase k).Any p) : t.Any p := by
  obtain ⟨j, b, hb, hp⟩ := h
  rw [get?_erase] at hb
  by_cases hj : j = k
  · simp [hj] at hb
  · exact ⟨j, b, by simpa [hj] using hb, hp⟩

theorem Any.imp {t : Table κ α} {q : α → Prop} (h : t.Any p) (hpq : ∀ a, p a → q a) : t.Any q :=
  let ⟨k, a, ha, hp⟩ := h
  ⟨k, a, ha, hpq a hp⟩

/-- Every row has the property. -/
def All (t : Table κ α) (p : κ → α → Prop) : Prop := ∀ k a, t.get? k = some a → p k a

theorem all_empty {p : κ → α → Prop} : (empty : Table κ α).All p := by
  simp [All, empty, get?]

theorem All.imp {t : Table κ α} {p q : κ → α → Prop} (h : t.All p)
    (hpq : ∀ k a, t.get? k = some a → p k a → q k a) : t.All q :=
  fun k a hget => hpq k a hget (h k a hget)

theorem All.insert {t : Table κ α} {p : κ → α → Prop} {b : α} (h : t.All p) (hk : p k b) :
    (t.insert k b).All p := by
  intro j a ha
  rw [get?_insert] at ha
  by_cases hj : j = k
  · subst hj
    rw [if_pos rfl, Option.some.injEq] at ha
    cases hget : t.get? j with
    | none => simpa [hget, ← ha] using hk
    | some c => exact h j a (by simpa [hget] using ha)
  · rw [if_neg hj] at ha
    exact h j a ha

theorem All.put {t : Table κ α} {p : κ → α → Prop} {b : α} (h : t.All p) (hk : p k b) :
    (t.put k b).All p := by
  intro j a ha
  rw [get?_put] at ha
  split at ha
  · next hj =>
    cases ha
    exact hj ▸ hk
  · exact h j a ha

/-! ## totals -/

/-- The sum of a measure over all rows. -/
def total (t : Table κ α) (f : α → Nat) : Nat := t.entries.foldr (fun e n => f e.2 + n) 0

theorem foldr_add (l : List α) (f : α → Nat) (n : Nat) :
    l.foldr (fun a m => f a + m) n = l.foldr (fun a m => f a + m) 0 + n := by
  induction l with
  | nil => simp
  | cons a l ih => rw [List.foldr_cons, List.foldr_cons, ih, Nat.add_assoc]

theorem total_insert (a : α) (f : α → Nat) (h : t.get? k = none) :
    (t.insert k a).total f = t.total f + f a := by
  rw [total, total, entries_insert t a h, List.foldr_append, foldr_add _ fun e : κ × α => f e.2]
  rfl

omit [DecidableEq κ] in
/-- Rows that weigh no more than before. -/
theorem total_map_le (t : Table κ α) (u : κ → α → α) (f g : α → Nat)
    (h : ∀ e ∈ t.entries, f (u e.1 e.2) ≤ g e.2) : (t.map u).total f ≤ t.total g := by
  obtain ⟨l, hl⟩ := t
  simp only [total, map, List.foldr_map] at h ⊢
  clear hl
  induction l with
  | nil => exact Nat.le_refl _
  | cons e l ih =>
    have hrest := ih fun e he => h e (List.mem_cons_of_mem _ he)
    exact Nat.add_le_add (h e List.mem_cons_self) hrest

/-- The row that is erased, and the others. -/
theorem total_erase (f : α → Nat) (h : t.get? k = some a) :
    (t.erase k).total f + f a = t.total f := by
  rw [← mem_entries_iff] at h
  obtain ⟨l, hl⟩ := t
  simp only [total, erase, filter] at h ⊢
  induction l with
  | nil => cases h
  | cons e l ih =>
    simp only [List.map_cons, List.nodup_cons] at hl
    rcases List.mem_cons.mp h with rfl | h
    · have hrest : l.filter (fun e => decide (e.1 ≠ k)) = l := by
        refine List.filter_eq_self.mpr fun e he => decide_eq_true fun hek => ?_
        exact hl.1 (List.mem_map.mpr ⟨e, he, hek⟩)
      rw [List.filter_cons_of_neg (by simp), hrest, List.foldr_cons]
      exact Nat.add_comm _ _
    · have hne : e.1 ≠ k := fun hek => hl.1 (List.mem_map.mpr ⟨(k, a), h, hek.symm⟩)
      have hsum := ih hl.2 h
      rw [List.filter_cons_of_pos (by simp [hne]), List.foldr_cons, List.foldr_cons]
      omega

theorem erase_modify : (t.modify k g).erase k = t.erase k := by
  obtain ⟨l, hl⟩ := t
  simp only [modify, erase, map, filter, List.filter_map, mk.injEq]
  refine (List.map_congr_left fun e he => ?_).trans (List.map_id _)
  have hne : e.1 ≠ k := by simpa using (List.mem_filter.mp he).2
  simp [hne]

theorem total_modify (f : α → Nat) (h : t.get? k = some a) :
    (t.modify k g).total f + f a = t.total f + f (g a) := by
  have hold := total_erase t f h
  have hnew := total_erase (t.modify k g) f (a := g a) (by rw [get?_modify_self, h]; rfl)
  rw [erase_modify] at hnew
  omega

end Table

/-! ## distinct keys -/

/-- A filter that keeps the keys of the elements that it keeps leaves them distinct. -/
theorem pairwise_filterMap_key {f : α → Option β} (key : α → κ) (key' : β → κ)
    {l : List α} (hf : ∀ a b, f a = some b → key' b = key a)
    (h : l.Pairwise fun a a' => key a ≠ key a') :
    (l.filterMap f).Pairwise fun b b' => key' b ≠ key' b' := by
  rw [List.pairwise_filterMap]
  refine h.imp fun {a a'} hne b hb b' hb' => ?_
  rw [hf a b hb, hf a' b' hb']
  exact hne

end StationManager
