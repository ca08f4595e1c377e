import StationManager.Lib.Timeline
import StationManager.Monitoring.Engine

/-!
# StationManager.Monitoring.Timers

One evaluation of a threshold state.

The engine does not store its evaluations, only three marks.  `Timed` relates
them to the log of the evaluations of the key: `breach_since` and `ok_since`
with `last_evaluated_at` are the two marks of a `Since`, although the last one
stands still while an alert is open.  `Evaluates` lists the ways an evaluation
can go, and `Timed.evaluate` says that each of them keeps the marks in step
with the log and acts on a confirmed value only.
-/

namespace StationManager.Monitoring.Thresholds

/-! ## one evaluation -/

/-- What the marks of a state say about the evaluations of its key; `d` is the
duration of the rule. -/
structure Timed (log : List (Time × Bool)) (d : Time) (st : ThresholdState) : Prop where
  breach : ∀ t₀, st.breachSince = some t₀ →
    Since log offlineThreshold true t₀ (st.lastEvaluatedAt.getD 0)
  ok : ∀ t₀, st.okSince = some t₀ →
    Since log offlineThreshold false t₀ (st.lastEvaluatedAt.getD 0) ∧
      st.lastEvaluatedAt ≠ none
  /-- A rule with a duration does not get to an alert without a pending timer. -/
  armed : st.lastEvaluatedAt = none → d = 0 ∨ (st.breachSince = none ∧ st.alert = none)
  evaluated : ∀ m, st.lastEvaluatedAt = some m → ∃ e ∈ log, e.1 = m

theorem Timed.empty (log : List (Time × Bool)) (d : Time) : Timed log d {} where
  breach := by simp
  ok := by simp
  armed _ := .inr ⟨rfl, rfl⟩
  evaluated := by simp

section
variable {log : List (Time × Bool)} {d now : Time} {st : ThresholdState} {isOpen : Bool}

/-- The value was read without a longer gap for the duration of the rule. -/
def Confirmed (log : List (Time × Bool)) (d : Time) (b : Bool) (now : Time) : Prop :=
  ∃ t₀, t₀ + d ≤ now ∧ Sustained log offlineThreshold b t₀ now

/-- The last mark is not ahead of the log. -/
theorem Timed.mark_le (h : Timed log d st) (hlog : ∀ e ∈ log, e.1 < now) :
    st.lastEvaluatedAt.getD 0 ≤ now := by
  cases hm : st.lastEvaluatedAt with
  | none => exact Nat.zero_le _
  | some m =>
    obtain ⟨e, he, rfl⟩ := h.evaluated m hm
    exact Nat.le_of_lt (hlog e he)

/-- No more than the threshold has passed since the last mark. -/
def NoGap (st : ThresholdState) (now : Time) : Prop :=
  ∀ m, st.lastEvaluatedAt = some m → now ≤ m + offlineThreshold

@[simp] theorem restart_lastEvaluatedAt :
    (st.restart now isOpen).lastEvaluatedAt = st.lastEvaluatedAt := by
  unfold ThresholdState.restart
  split <;> rfl

@[simp] theorem restart_alert : (st.restart now isOpen).alert = st.alert := by
  unfold ThresholdState.restart
  split <;> rfl

/-- A breach mark after a restart is new, or the old one where no gap counts. -/
theorem restart_breachSince {t₀ : Time} (h : (st.restart now isOpen).breachSince = some t₀) :
    t₀ = now ∨ (st.breachSince = some t₀ ∧ (isOpen = false → NoGap st now)) := by
  unfold ThresholdState.restart at h
  split at h
  · cases isOpen with
    | false =>
      simp only [Bool.not_false, if_true, Option.map_eq_some_iff] at h
      obtain ⟨-, -, rfl⟩ := h
      exact .inl rfl
    | true => exact .inr ⟨h, by simp⟩
  · next hgap =>
    refine .inr ⟨h, fun _ m hm => ?_⟩
    rw [hm, Option.any_some, decide_eq_true_eq, Nat.not_lt] at hgap
    exact hgap

theorem restart_okSince {t₀ : Time} (h : (st.restart now isOpen).okSince = some t₀) :
    t₀ = now ∨ (st.okSince = some t₀ ∧ NoGap st now) := by
  unfold ThresholdState.restart at h
  split at h
  · simp only [Option.map_eq_some_iff] at h
    obtain ⟨-, -, rfl⟩ := h
    exact .inl rfl
  · next hgap =>
    refine .inr ⟨h, fun m hm => ?_⟩
    rw [hm, Option.any_some, decide_eq_true_eq, Nat.not_lt] at hgap
    exact hgap

theorem restart_getD_of_none (h : st.breachSince = none) :
    (st.restart now isOpen).breachSince.getD now = now := by
  cases hr : (st.restart now isOpen).breachSince with
  | none => rfl
  | some t₀ =>
    rcases restart_breachSince hr with rfl | ⟨hold, -⟩
    · rfl
    · rw [h] at hold
      cases hold

/-- The breach mark that an evaluation goes on with. -/
theorem Timed.breach_since (h : Timed log d st) (hlog : ∀ e ∈ log, e.1 < now) {m : Time}
    (hm : m = st.lastEvaluatedAt.getD 0 ∨
      (m = now ∧ isOpen = false ∧ (st.lastEvaluatedAt = none → st.breachSince = none))) :
    Since ((now, true) :: log) offlineThreshold true
      ((st.restart now isOpen).breachSince.getD now) m := by
  have hle : m ≤ now := by
    rcases hm with rfl | ⟨rfl, -⟩
    · exact h.mark_le hlog
    · exact Nat.le_refl _
  cases hb : (st.restart now isOpen).breachSince with
  | none => exact Since.begin hlog hle
  | some t₀ =>
    rcases restart_breachSince hb with rfl | ⟨hold, hgap⟩
    · exact Since.begin hlog hle
    · rcases hm with rfl | ⟨rfl, hopen, hnone⟩
      · exact (h.breach t₀ hold).push hle
      · cases hl : st.lastEvaluatedAt with
        | none =>
          rw [hnone hl] at hold
          cases hold
        | some last =>
          have hsince := h.breach t₀ hold
          have hmark := h.mark_le hlog
          rw [hl] at hsince hmark
          exact hsince.advance hlog hmark (hgap hopen last hl)

/-- The ok mark that an evaluation goes on with. -/
theorem Timed.ok_since (h : Timed log d st) (hlog : ∀ e ∈ log, e.1 < now) :
    Since ((now, false) :: log) offlineThreshold false
      ((st.restart now isOpen).okSince.getD now) now := by
  cases ho : (st.restart now isOpen).okSince with
  | none => exact Since.begin hlog (Nat.le_refl _)
  | some t₀ =>
    rcases restart_okSince ho with rfl | ⟨hold, hgap⟩
    · exact Since.begin hlog (Nat.le_refl _)
    · obtain ⟨hsince, hsome⟩ := h.ok t₀ hold
      obtain ⟨last, hl⟩ := Option.ne_none_iff_exists'.mp hsome
      have hmark := h.mark_le hlog
      rw [hl] at hsince hmark
      exact hsince.advance hlog hmark (hgap last hl)

/-- The six ways an evaluation can go, by whether an alert is open and whether the
value is a breach. -/
inductive Evaluates (st : ThresholdState) (d now : Time) :
    Bool → Bool → ThresholdState × ThresholdState.Turn → Prop
  | stillBreach : Evaluates st d now true true
      ({ st.restart now true with
          okSince := none
          breachSince := some ((st.restart now true).breachSince.getD now) }, .keep)
  | fire : (st.restart now false).breachSince.getD now + d ≤ now →
      Evaluates st d now false true
        ({ st.restart now false with
            okSince := none
            breachSince := some ((st.restart now false).breachSince.getD now) },
          .fire ((st.restart now false).breachSince.getD now))
  | wait : ¬ (st.restart now false).breachSince.getD now + d ≤ now →
      Evaluates st d now false true
        ({ st.restart now false with
            okSince := none
            breachSince := some ((st.restart now false).breachSince.getD now)
            lastEvaluatedAt := some now }, .keep)
  | clear : (st.restart now true).okSince.getD now + d ≤ now →
      Evaluates st d now true false
        ({ st.restart now true with breachSince := none, okSince := none, alert := none }, .clear)
  | recover : ¬ (st.restart now true).okSince.getD now + d ≤ now →
      Evaluates st d now true false
        ({ st.restart now true with
            breachSince := none
            okSince := some ((st.restart now true).okSince.getD now)
            lastEvaluatedAt := some now }, .keep)
  | idle : Evaluates st d now false false
      ({ st.restart now false with breachSince := none, okSince := none, alert := none }, .keep)

theorem evaluates (st : ThresholdState) (d now : Time) (isOpen b : Bool) :
    Evaluates st d now isOpen b (st.evaluate d now isOpen b) := by
  cases b with
  | true =>
    cases isOpen with
    | true => exact .stillBreach
    | false =>
      by_cases hd : (st.restart now false).breachSince.getD now + d ≤ now
      · have heval := Evaluates.fire hd
        simpa [ThresholdState.evaluate, ThresholdState.turn, ThresholdState.touch,
          ThresholdState.Turn.leavesOpen, hd] using heval
      · have heval := Evaluates.wait hd
        simpa [ThresholdState.evaluate, ThresholdState.turn, ThresholdState.touch,
          ThresholdState.Turn.leavesOpen, hd] using heval
  | false =>
    cases isOpen with
    | true =>
      by_cases hd : (st.restart now true).okSince.getD now + d ≤ now
      · have heval := Evaluates.clear hd
        simpa [ThresholdState.evaluate, ThresholdState.turn, ThresholdState.touch,
          ThresholdState.Turn.leavesOpen, hd] using heval
      · have heval := Evaluates.recover hd
        simpa [ThresholdState.evaluate, ThresholdState.turn, ThresholdState.touch,
          ThresholdState.Turn.leavesOpen, hd] using heval
    | false => exact .idle

section
variable {b : Bool} {st' : ThresholdState} {turn : ThresholdState.Turn}

/-- An evaluation never makes up a reference to an alert. -/
theorem Evaluates.alert_eq (h : Evaluates st d now isOpen b (st', turn)) {a : Pk}
    (ha : st'.alert = some a) : st.alert = some a := by
  cases h <;> simp_all

/-- It keeps the reference to an open alert that it does not clear. -/
theorem Evaluates.alert_of_open (h : Evaluates st d now isOpen b (st', turn))
    (hopen : isOpen = true) (hturn : turn = .keep) : st'.alert = st.alert := by
  cases h <;> simp_all

/-- It fires only where no alert is open. -/
theorem Evaluates.not_open_of_fire {since : Time}
    (h : Evaluates st d now isOpen b (st', .fire since)) : isOpen = false := by
  cases h
  rfl

/-- It drops the reference of an alert that it clears. -/
theorem Evaluates.alert_of_clear (h : Evaluates st d now isOpen b (st', .clear)) :
    st'.alert = none := by
  cases h
  rfl

/-- It clears only an open alert. -/
theorem Evaluates.open_of_clear {r : ThresholdState × ThresholdState.Turn}
    (h : Evaluates st d now isOpen b r) (hclear : r.2 = .clear) : isOpen = true := by
  cases h <;> simp_all

end

/-- A breach confirms itself once the mark is old enough. -/
theorem Timed.confirmed_breach (h : Timed log d st) (hlog : ∀ e ∈ log, e.1 < now)
    (hd : (st.restart now false).breachSince.getD now + d ≤ now) :
    Confirmed ((now, true) :: log) d true now := by
  by_cases hz : d = 0
  · exact ⟨now, by rw [hz]; exact Nat.le_refl _, (Since.begin hlog (Nat.le_refl _)).sustained⟩
  · refine ⟨_, hd, (h.breach_since hlog (.inr ⟨rfl, rfl, fun hl => ?_⟩)).sustained⟩
    exact ((h.armed hl).resolve_left hz).1

/-- A breach while an alert is open, or one that opens it: the last mark stays. -/
theorem Timed.breach_open (h : Timed log d st) (hlog : ∀ e ∈ log, e.1 < now)
    (ha : st.lastEvaluatedAt = none → d = 0) (a : Option Pk) :
    Timed ((now, true) :: log) d
      { st.restart now isOpen with
        okSince := none
        breachSince := some ((st.restart now isOpen).breachSince.getD now)
        alert := a } where
  breach t₀ ht₀ := by
    cases ht₀
    simpa using h.breach_since hlog (.inl rfl)
  ok := by simp
  armed hl := .inl (ha (by simpa using hl))
  evaluated m hm := by
    obtain ⟨e, he, heq⟩ := h.evaluated m (by simpa using hm)
    exact ⟨e, List.mem_cons_of_mem _ he, heq⟩

/-- A breach that waits: the timer is pending. -/
theorem Timed.breach_pending (h : Timed log d st) (hlog : ∀ e ∈ log, e.1 < now)
    (hd : ¬ (st.restart now false).breachSince.getD now + d ≤ now) :
    Timed ((now, true) :: log) d
      { st.restart now false with
        okSince := none
        breachSince := some ((st.restart now false).breachSince.getD now)
        lastEvaluatedAt := some now } where
  breach t₀ ht₀ := by
    cases ht₀
    refine h.breach_since hlog (.inr ⟨rfl, rfl, fun hl => ?_⟩)
    rcases h.armed hl with rfl | hb
    · -- without a duration the alert would have fired
      have hsince : Since ((now, true) :: log) offlineThreshold true
          ((st.restart now false).breachSince.getD now) (st.lastEvaluatedAt.getD 0) :=
        h.breach_since hlog (.inl rfl)
      have hstart := hsince.start
      rcases List.mem_cons.mp hstart with heq | hmem
      · exact absurd (Nat.le_of_eq (congrArg Prod.fst heq)) hd
      · exact absurd (Nat.le_of_lt (hlog _ hmem)) hd
    · exact hb.1
  ok := by simp
  armed := by simp
  evaluated m hm := by
    cases hm
    exact ⟨_, List.mem_cons_self, rfl⟩

/-- Nothing is running: an ok value without an open alert. -/
theorem Timed.idle (h : Timed log d st) (b : Bool) :
    Timed ((now, b) :: log) d
      { st.restart now isOpen with breachSince := none, okSince := none, alert := none } where
  breach := by simp
  ok := by simp
  armed _ := .inr ⟨rfl, rfl⟩
  evaluated m hm := by
    obtain ⟨e, he, heq⟩ := h.evaluated m (by simpa using hm)
    exact ⟨e, List.mem_cons_of_mem _ he, heq⟩

/-- An ok value while the alert is open: the ok timer is pending. -/
theorem Timed.ok_pending (h : Timed log d st) (hlog : ∀ e ∈ log, e.1 < now) :
    Timed ((now, false) :: log) d
      { st.restart now isOpen with
        breachSince := none
        okSince := some ((st.restart now isOpen).okSince.getD now)
        lastEvaluatedAt := some now } where
  breach := by simp
  ok t₀ ht₀ := by
    cases ht₀
    exact ⟨h.ok_since hlog, by simp⟩
  armed := by simp
  evaluated m hm := by
    cases hm
    exact ⟨_, List.mem_cons_self, rfl⟩

/-- What an evaluation establishes about the log that it extends. -/
structure Evaluated (log : List (Time × Bool)) (d now : Time) (b : Bool)
    (r : ThresholdState × ThresholdState.Turn) : Prop where
  timed : Timed ((now, b) :: log) d r.1
  fired : ∀ since, r.2 = .fire since → Confirmed ((now, b) :: log) d true now ∧
    ∀ a, Timed ((now, b) :: log) d { r.1 with alert := a }
  cleared : r.2 = .clear → Confirmed ((now, b) :: log) d false now

/-- **One evaluation** keeps the marks in step with the log, and it fires or clears an
alert only on a confirmed value. -/
theorem Timed.evaluate (h : Timed log d st) (hlog : ∀ e ∈ log, e.1 < now) {b : Bool}
    (hopen : isOpen = true → st.alert ≠ none) {r : ThresholdState × ThresholdState.Turn}
    (hr : Evaluates st d now isOpen b r) : Evaluated log d now b r := by
  cases hr with
  | stillBreach =>
    have harmed : st.lastEvaluatedAt = none → d = 0 := fun hl =>
      (h.armed hl).resolve_right fun hb => hopen rfl hb.2
    exact ⟨h.breach_open hlog harmed _, by simp, by simp⟩
  | fire hd =>
    have harmed : st.lastEvaluatedAt = none → d = 0 := by
      intro hl
      rcases h.armed hl with hz | hb
      · exact hz
      · rw [restart_getD_of_none hb.1] at hd
        exact Nat.le_zero.mp (Nat.le_of_add_le_add_left (show now + d ≤ now + 0 from hd))
    exact ⟨h.breach_open hlog harmed _,
      fun _ _ => ⟨h.confirmed_breach hlog hd, h.breach_open hlog harmed⟩, by simp⟩
  | wait hd => exact ⟨h.breach_pending hlog hd, by simp, by simp⟩
  | clear hd => exact ⟨h.idle _, by simp, fun _ => ⟨_, hd, (h.ok_since hlog).sustained⟩⟩
  | recover hd => exact ⟨h.ok_pending hlog, by simp, by simp⟩
  | idle => exact ⟨h.idle _, by simp, by simp⟩

end

end StationManager.Monitoring.Thresholds
