import Mathlib.Algebra.Order.Ring.Rat
import Mathlib.Order.Lattice
import StationManager.MetricHistory.Maintenance

/-!
# StationManager.MetricHistory.Hours

What an hourly row is for: the exact aggregate of the samples of its hour.  The
upsert of a chunk writes these aggregates for its own hours and leaves the
other rows alone.
-/

namespace StationManager.MetricHistory

/-! ## hours and months -/

section
variable {t w : Nat}

theorem hour_dvd_hourFloor : hour ∣ hourFloor t := Nat.dvd_mul_left _ _

/-- A multiple of an hour is not after a time iff it is not after its whole hour. -/
theorem le_hourFloor_iff (h : hour ∣ w) : w ≤ hourFloor t ↔ w ≤ t := by
  obtain ⟨n, rfl⟩ := h
  rw [hourFloor, Nat.mul_comm hour n]
  constructor
  · intro h
    exact Nat.le_trans h (Nat.div_mul_le_self _ _)
  · intro h
    exact Nat.mul_le_mul_right _ ((Nat.le_div_iff_mul_le (by decide)).mpr h)

theorem hourFloor_lt_iff (h : hour ∣ w) : hourFloor t < w ↔ t < w := by
  rw [← Nat.not_le, le_hourFloor_iff h, Nat.not_le]

theorem hourFloor_eq_self (h : hour ∣ w) : hourFloor w = w := Nat.div_mul_cancel h

/-- A multiple of an hour after a time is after its whole hour. -/
theorem hourFloor_add_le (h : hour ∣ w) (ht : t < w) : hourFloor t + hour ≤ w := by
  obtain ⟨n, rfl⟩ := h
  have hlt := (hourFloor_lt_iff (Nat.dvd_mul_right hour n)).mpr ht
  rw [hourFloor, Nat.mul_comm hour n] at *
  have := Nat.lt_of_mul_lt_mul_right hlt
  calc t / hour * hour + hour = (t / hour + 1) * hour := (Nat.succ_mul _ _).symm
    _ ≤ n * hour := Nat.mul_le_mul_right _ this

/-- The months that have begun at a time. -/
theorem startOf_le_iff {m : Nat} : startOf m ≤ t ↔ m ≤ monthOf t := by
  rw [monthOf, ← Calendar.monthDay_le_iff, Nat.le_div_iff_mul_le (by decide), startOf]

theorem lt_startOf_iff {m : Nat} : t < startOf m ↔ monthOf t < m := by
  rw [← Nat.not_le, startOf_le_iff, Nat.not_le]

theorem startOf_strictMono : StrictMono startOf := fun _ _ h =>
  Nat.mul_lt_mul_of_pos_right (Calendar.monthDay_strictMono h) (by decide)

theorem startOf_pos (m : Nat) : 0 < startOf (m + 1) :=
  Nat.zero_lt_of_lt (startOf_strictMono (Nat.succ_pos m))

/-- The rows of a month are those whose time stamp is in it. -/
theorem inMonth_iff {m : Nat} {k : SeriesKey} : inMonth m k = true ↔ monthOf k.ts = m := by
  simp only [inMonth, Bool.and_eq_true, decide_eq_true_eq, startOf_le_iff, lt_startOf_iff]
  omega

end

/-! ## aggregates -/

/-- The row has the aggregates of the samples. -/
structure IsAggregate (rows : List Sample) (a : Hourly) : Prop where
  count : a.count = rows.length
  sum : a.avg * a.count = (rows.map Sample.avg).sum
  min : a.min ∈ rows.map Sample.min ∧ ∀ r ∈ rows, a.min ≤ r.min
  max : a.max ∈ rows.map Sample.max ∧ ∀ r ∈ rows, r.max ≤ a.max

/-- Samples have their aggregate as the row, and where there are none there is no row. -/
def Exact (rows : List Sample) : Option Hourly → Prop
  | some a => IsAggregate rows a
  | none => rows = []

/-- The smallest value of a list, as a fold finds it. -/
theorem foldl_least {α β : Type*} [LinearOrder α] (f : β → α) (l : List β) (a : α) :
    (l.foldl (fun m r => if f r < m then f r else m) a) ∈ a :: l.map f ∧
      ∀ x ∈ a :: l.map f, (l.foldl (fun m r => if f r < m then f r else m) a) ≤ x := by
  induction l generalizing a with
  | nil => simp
  | cons r l ih =>
    obtain ⟨hmem, hle⟩ := ih (if f r < a then f r else a)
    simp only [List.foldl_cons, List.map_cons]
    generalize List.foldl _ _ l = m at hmem hle ⊢
    have hm := hle _ List.mem_cons_self
    constructor
    · rcases List.mem_cons.mp hmem with h | h
      · split at h <;> simp [h]
      · simp [h]
    · intro x hx
      rcases List.mem_cons.mp hx with rfl | hx
      · refine hm.trans ?_
        split
        · next h => exact h.le
        · exact le_rfl
      rcases List.mem_cons.mp hx with rfl | hx
      · refine hm.trans ?_
        split
        · exact le_rfl
        · next h => exact not_lt.mp h
      · exact hle x (List.mem_cons_of_mem _ hx)

theorem foldl_avg (l : List Sample) (a : Rat) :
    l.foldl (fun a r => a + r.avg) a = a + (l.map Sample.avg).sum := by
  induction l generalizing a with
  | nil => simp
  | cons r l ih => rw [List.foldl_cons, ih, List.map_cons, List.sum_cons, add_assoc]

/-- The aggregate of some samples is exact. -/
theorem exact_aggregate (rows : List Sample) : Exact rows (aggregate rows) := by
  cases rows with
  | nil => rfl
  | cons s rest =>
    have hmin := foldl_least Sample.min rest s.min
    have hmax := foldl_least (α := Ratᵒᵈ) Sample.max rest s.max
    refine ⟨rfl, ?_, ⟨hmin.1, fun r hr => hmin.2 _ (List.mem_map_of_mem hr)⟩,
      ⟨hmax.1, fun r hr => hmax.2 _ (List.mem_map_of_mem hr)⟩⟩
    have hne : ((rest.length + 1 : Nat) : Rat) ≠ 0 :=
      Nat.cast_ne_zero.mpr (Nat.succ_ne_zero _)
    simp only [foldl_avg, List.map_cons, List.sum_cons]
    exact div_mul_cancel₀ _ hne

/-! ## the rows of a chunk -/

section
variable {db : Db} {start stop : Nat} {k : SeriesKey}

/-- Rows of other hours do not count. -/
theorem hourRows_filter {rows : List (SeriesKey × Sample)} {p : SeriesKey × Sample → Bool}
    (h : ∀ e ∈ rows, e.1.hour = k → p e = true) : hourRows (rows.filter p) k = hourRows rows k := by
  rw [hourRows, hourRows, List.filter_filter]
  congr 1
  refine List.filter_congr fun e he => ?_
  by_cases hk : e.1.hour = k
  · simp [hk, h e he hk]
  · simp [hk]

theorem hourRows_eq_nil {rows : List (SeriesKey × Sample)} (h : ∀ e ∈ rows, e.1.hour ≠ k) :
    hourRows rows k = [] := by
  rw [hourRows, List.map_eq_nil_iff, List.filter_eq_nil_iff]
  simpa using h

theorem hourRows_append (rows new : List (SeriesKey × Sample)) :
    hourRows (rows ++ new) k = hourRows rows k ++ hourRows new k := by
  simp [hourRows]

/-- The samples of a chunk that count for a row: all of its hour, or none. -/
theorem hourRows_chunk (rows : List (SeriesKey × Sample)) (hstart : hour ∣ start)
    (hstop : hour ∣ stop) : hourRows (rows.filter fun e => start ≤ e.1.ts && e.1.ts < stop) k =
      if start ≤ k.ts ∧ k.ts < stop then hourRows rows k else [] := by
  have hin : ∀ e : SeriesKey × Sample, e.1.hour = k →
      (start ≤ e.1.ts ∧ e.1.ts < stop ↔ start ≤ k.ts ∧ k.ts < stop) := by
    rintro e rfl
    exact (and_congr (le_hourFloor_iff hstart) (hourFloor_lt_iff hstop)).symm
  split
  · next hk =>
    refine hourRows_filter fun e _ he => ?_
    simpa using (hin e he).mpr hk
  · next hk =>
    refine hourRows_eq_nil fun e he hek => hk ?_
    exact (hin e hek).mp (by simpa using (List.mem_filter.mp he).2)

/-- A chunk has one row for each series and hour. -/
theorem chunkRows_nodup (db : Db) (start stop : Nat) :
    ((chunkRows db start stop).map Prod.fst).Nodup := by
  refine List.pairwise_map.mpr (pairwise_filterMap_key id Prod.fst (fun k r hr => ?_)
    (List.nodup_dedup _))
  obtain ⟨a, -, rfl⟩ := Option.map_eq_some_iff.mp hr
  rfl

/-- It is the aggregate of the samples of the chunk in its hour. -/
theorem mem_chunkRows {a : Hourly} : (k, a) ∈ chunkRows db start stop ↔
    aggregate (hourRows (db.samples.entries.filter fun e => start ≤ e.1.ts && e.1.ts < stop) k) =
      some a := by
  simp only [chunkRows, List.mem_filterMap, Option.map_eq_some_iff, Prod.mk.injEq]
  constructor
  · rintro ⟨_, -, _, h, rfl, rfl⟩
    exact h
  · intro h
    refine ⟨k, ?_, a, h, rfl, rfl⟩
    rw [List.mem_dedup, List.mem_map]
    by_contra hno
    rw [hourRows_eq_nil fun e he hk => hno ⟨e, he, hk⟩] at h
    cases h

/-- **The hours of a chunk** get their aggregates, and no other row is touched. -/
theorem get?_chunkRows (db : Db) (k : SeriesKey) (hstart : hour ∣ start) (hstop : hour ∣ stop) :
    (db.hourly.putAll (chunkRows db start stop)).get? k =
      (aggregate (if start ≤ k.ts ∧ k.ts < stop then hourRows db.samples.entries k else [])).or
        (db.hourly.get? k) := by
  rw [← hourRows_chunk _ hstart hstop]
  cases hagg : aggregate (hourRows (db.samples.entries.filter fun e =>
      start ≤ e.1.ts && e.1.ts < stop) k) with
  | some a =>
    exact Table.get?_putAll_of_mem _ (chunkRows_nodup db start stop) (mem_chunkRows.mpr hagg)
  | none =>
    refine Table.get?_putAll_of_not_mem _ fun hk => ?_
    obtain ⟨⟨k', a⟩, hmem, rfl⟩ := List.mem_map.mp hk
    rw [mem_chunkRows.mp hmem] at hagg
    cases hagg

/-- The transaction of a chunk writes hourly rows and the watermark. -/
theorem eq_of_compactChunk {cfg : Settings} {db' : Db} {n : Nat}
    (h : compactChunk cfg db start stop = some (db', n)) : db' = { db with
      hourly := db.hourly.putAll (chunkRows db start stop), compactedUntil := some stop } := by
  unfold compactChunk at h
  dsimp only at h
  split at h
  · cases h
  · cases h
    rfl

end

end StationManager.MetricHistory
