import StationManager.Lib.Table

/-!
# StationManager.Lib.Timeline

Logs of readings with a time stamp, and what it means that a value was read
over a whole interval.

Code that waits until a value has been stable for a while rarely stores its
readings.  It keeps the time at which the current value was first read and the
time up to which it knows that no reading was missing.  `Since` relates such a
pair of marks to the log, its three rules say how the marks may move when a
reading is added, and `Since.sustained` reads off what they prove.
-/

namespace StationManager

variable {α : Type u} {log : List (Time × α)} {gap : Time} {b : α} {t₀ m t : Time}

/-- From `t₀` to `t` every reading was `b`, with one at `t₀` itself; and each of
them but the last is followed by another within `gap`. -/
structure Sustained (log : List (Time × α)) (gap : Time) (b : α) (t₀ t : Time) : Prop where
  start : (t₀, b) ∈ log
  constant : ∀ e ∈ log, t₀ ≤ e.1 → e.1 ≤ t → e.2 = b
  close : ∀ e ∈ log, t₀ ≤ e.1 → e.1 < t →
    ∃ e' ∈ log, e.1 < e'.1 ∧ e'.1 ≤ t ∧ e'.1 ≤ e.1 + gap

/-- What two marks say: every reading since `t₀` was `b`, and up to `m` each of them
is followed by another within `gap`. -/
structure Since (log : List (Time × α)) (gap : Time) (b : α) (t₀ m : Time) : Prop where
  start : (t₀, b) ∈ log
  constant : ∀ e ∈ log, t₀ ≤ e.1 → e.2 = b
  close : ∀ e ∈ log, t₀ ≤ e.1 → e.1 < m →
    ∃ e' ∈ log, e.1 < e'.1 ∧ e'.1 ≤ m ∧ e'.1 ≤ e.1 + gap

theorem Since.sustained (h : Since log gap b t₀ t) : Sustained log gap b t₀ t :=
  ⟨h.start, fun e he hlo _ => h.constant e he hlo, h.close⟩

/-- A new reading starts an interval. -/
theorem Since.begin (hlog : ∀ e ∈ log, e.1 < t) (hm : m ≤ t) : Since ((t, b) :: log) gap b t m where
  start := List.mem_cons_self
  constant e he hlo := by
    rcases List.mem_cons.mp he with rfl | he
    · rfl
    · exact absurd (hlog e he) (Nat.not_lt.mpr hlo)
  close e _ hlo hlt := absurd (Nat.lt_of_lt_of_le hlt hm) (Nat.not_lt.mpr hlo)

/-- A further reading of the same value, whenever it comes; the second mark stays. -/
theorem Since.push (h : Since log gap b t₀ m) (hm : m ≤ t) : Since ((t, b) :: log) gap b t₀ m where
  start := List.mem_cons_of_mem _ h.start
  constant e he hlo := by
    rcases List.mem_cons.mp he with rfl | he
    · rfl
    · exact h.constant e he hlo
  close e he hlo hlt := by
    rcases List.mem_cons.mp he with rfl | he
    · exact absurd hlt (Nat.not_lt.mpr hm)
    · obtain ⟨e', he', hrest⟩ := h.close e he hlo hlt
      exact ⟨e', List.mem_cons_of_mem _ he', hrest⟩

/-- A further reading that comes within `gap` of the second mark moves it. -/
theorem Since.advance (h : Since log gap b t₀ m) (hlog : ∀ e ∈ log, e.1 < t)
    (hm : m ≤ t) (hgap : t ≤ m + gap) : Since ((t, b) :: log) gap b t₀ t where
  start := (h.push hm).start
  constant := (h.push hm).constant
  close e he hlo hlt := by
    rcases List.mem_cons.mp he with rfl | hmem
    · exact absurd hlt (Nat.lt_irrefl _)
    · by_cases hem : e.1 < m
      · obtain ⟨e', he', hgt, hle, hnear⟩ := h.close e hmem hlo hem
        exact ⟨e', List.mem_cons_of_mem _ he', hgt, Nat.le_trans hle hm, hnear⟩
      · -- after the mark the new reading itself is near enough
        refine ⟨(t, b), List.mem_cons_self, hlog e hmem, Nat.le_refl _, ?_⟩
        exact Nat.le_trans hgap (Nat.add_le_add_right (Nat.not_lt.mp hem) gap)

/-- Later readings do not change what was sustained. -/
theorem Sustained.push (h : Sustained log gap b t₀ t) {e : Time × α} (hlater : t < e.1) :
    Sustained (e :: log) gap b t₀ t where
  start := List.mem_cons_of_mem _ h.start
  constant e' he' hlo hhi := by
    rcases List.mem_cons.mp he' with rfl | he'
    · exact absurd hlater (Nat.not_lt.mpr hhi)
    · exact h.constant e' he' hlo hhi
  close e' he' hlo hlt := by
    rcases List.mem_cons.mp he' with rfl | he'
    · exact absurd hlater (Nat.not_lt.mpr (Nat.le_of_lt hlt))
    · obtain ⟨e'', he'', hrest⟩ := h.close e' he' hlo hlt
      exact ⟨e'', List.mem_cons_of_mem _ he'', hrest⟩

end StationManager
