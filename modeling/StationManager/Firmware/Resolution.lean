import StationManager.Firmware.Targets

/-!
# StationManager.Firmware.Resolution

`resolve_effective_target` is one pass over an unordered list of targets that keeps
the first match of each scope.  Under the constraints of the table a scope has at
most one match, so the outcome is a matter of membership alone (`Effective`): the
order does not count, nor do targets that the query of `effective_target` leaves
out.
-/

namespace StationManager.Firmware

/-! ## the loop -/

/-- The three variables of the loop. -/
structure Picked where
  station : Option Target := none
  group : Option Target := none
  fleet : Option Target := none
deriving DecidableEq, Repr

/-- One turn of the loop: a later match never replaces an earlier one. -/
def Picked.look (pk : Pk) (st : Station) (p : Picked) (t : Target) : Picked :=
  match t.scope with
  | .station => if p.station = none ∧ t.station = some pk then { p with station := some t } else p
  | .group =>
    if p.group = none ∧ st.rolloutGroup ≠ none ∧ t.group = st.rolloutGroup then
      { p with group := some t }
    else p
  | .fleet => if p.fleet = none then { p with fleet := some t } else p

/-- What follows the loop: station before group before fleet, and the canary gate. -/
def Picked.conclude (st : Station) (p : Picked) : Option Target :=
  match p.station with
  | some t => some t
  | none => match p.group with
      | some t => some t
      | none => match p.fleet with
          | none => none
          | some t =>
            if t.canaryGroup ≠ none ∧ t.canaryGroup ≠ st.rolloutGroup then none else some t

/-- The source's `resolve_effective_target`, turn by turn. -/
def resolveByLoop (pk : Pk) (st : Station) (targets : List Target) : Option Target :=
  (targets.foldl (Picked.look pk st) {}).conclude st

/-- The target of the station itself. -/
def isOwn (pk : Pk) (t : Target) : Bool := t.scope = .station ∧ t.station = some pk

/-- The target of the station's group. -/
def isGroups (st : Station) (t : Target) : Bool :=
  t.scope = .group ∧ st.rolloutGroup.isSome ∧ t.group = st.rolloutGroup

def isFleet (t : Target) : Bool := t.scope = .fleet

variable {ts ts' : List Target} {t : Target} (pk : Pk) (st : Station) (targets : List Target)

/-- The turn as it bears on each variable. -/
theorem look_eq (p : Picked) (t : Target) : p.look pk st t =
      ⟨p.station.or (if isOwn pk t then some t else none),
        p.group.or (if isGroups st t then some t else none),
        p.fleet.or (if isFleet t then some t else none)⟩ := by
  obtain ⟨s, g, f⟩ := p
  unfold Picked.look isOwn isGroups isFleet
  cases t.scope with
  | station =>
    by_cases hpk : t.station = some pk
    · cases s <;> simp [hpk]
    · simp [hpk]
  | group =>
    by_cases hmine : st.rolloutGroup ≠ none ∧ t.group = st.rolloutGroup
    · cases g <;> simp [hmine, Option.isSome_iff_ne_none]
    · have hnot : ¬(g = none ∧ st.rolloutGroup ≠ none ∧ t.group = st.rolloutGroup) :=
        fun h => hmine h.2
      simp only [if_neg hnot]
      simp [Option.isSome_iff_ne_none, hmine]
  | fleet => cases f <;> simp

theorem or_find?_cons {p : α → Bool} (o : Option α) (a : α) (l : List α) :
    (o.or (if p a then some a else none)).or (l.find? p) = o.or ((a :: l).find? p) := by
  rw [Option.or_assoc, List.find?_cons]
  cases p a <;> simp

/-- The loop keeps the first match of each scope. -/
theorem foldl_look (p : Picked) : targets.foldl (Picked.look pk st) p =
      ⟨p.station.or (targets.find? (isOwn pk)), p.group.or (targets.find? (isGroups st)),
        p.fleet.or (targets.find? isFleet)⟩ := by
  induction targets generalizing p with
  | nil => simp
  | cons t ts ih =>
    rw [List.foldl_cons, ih, look_eq]
    simp only [or_find?_cons]

theorem resolveByLoop_eq_conclude : resolveByLoop pk st targets =
      Picked.conclude st ⟨targets.find? (isOwn pk), targets.find? (isGroups st),
        targets.find? isFleet⟩ := by
  rw [resolveByLoop, foldl_look]
  simp

/-- The loop is the resolution that the rest of the model uses. -/
theorem resolveByLoop_eq : resolveByLoop pk st targets = resolveEffectiveTarget pk st targets := by
  have hgate : ∀ t : Target,
      (t.canaryGroup ≠ none ∧ t.canaryGroup ≠ st.rolloutGroup) =
        (t.canaryGroup.isSome = true ∧ t.canaryGroup ≠ st.rolloutGroup) := by
    intro t
    rw [Option.isSome_iff_ne_none]
  rw [resolveByLoop_eq_conclude, Picked.conclude, resolveEffectiveTarget]
  simp only [hgate]
  unfold isOwn isGroups isFleet
  cases targets.find? fun t => decide (t.scope = .station ∧ t.station = some pk) with
  | some t => rfl
  | none =>
    cases targets.find? fun t => decide (t.scope = .group ∧ st.rolloutGroup.isSome = true ∧
      t.group = st.rolloutGroup) with
    | some t => rfl
    | none =>
      cases targets.find? fun t => decide (t.scope = .fleet) with
      | none => rfl
      | some t => simp only

/-! ## resolution by membership -/

/-- The unique constraints of `ModuleFirmwareTarget` on targets of one module type; a
NULL equals nothing. -/
structure Constrained (ts : List Target) : Prop where
  fleet : ts.Pairwise fun a b => ¬(a.scope = .fleet ∧ b.scope = .fleet)
  group : ts.Pairwise fun a b =>
    ¬(a.scope = .group ∧ b.scope = .group ∧ a.group = b.group ∧ a.group ≠ none)
  station : ts.Pairwise fun a b =>
    ¬(a.scope = .station ∧ b.scope = .station ∧ a.station = b.station ∧ a.station ≠ none)

/-- `t` is the target for the station: its own one if present, else the one of its
group, else the fleet target unless its canary group is set and is another one. -/
def Effective (pk : Pk) (st : Station) (ts : List Target) (t : Target) : Prop :=
  t ∈ ts ∧
    (isOwn pk t ∨
      (isGroups st t ∧ ∀ u ∈ ts, ¬isOwn pk u) ∨
      (isFleet t ∧ (t.canaryGroup = none ∨ t.canaryGroup = st.rolloutGroup) ∧
        ∀ u ∈ ts, ¬isOwn pk u ∧ ¬isGroups st u))

theorem Constrained.sublist (h : Constrained ts) (hs : ts'.Sublist ts) : Constrained ts' :=
  ⟨h.fleet.sublist hs, h.group.sublist hs, h.station.sublist hs⟩

/-- A unique match is found wherever it stands. -/
theorem find?_eq_some_of_unique {p : α → Bool} {l : List α}
    (h : l.Pairwise fun a b => ¬(p a = true ∧ p b = true)) {a : α} :
    l.find? p = some a ↔ a ∈ l ∧ p a = true := by
  induction l with
  | nil => simp
  | cons b l ih =>
    obtain ⟨hb, hl⟩ := List.pairwise_cons.mp h
    rw [List.find?_cons]
    cases hp : p b with
    | true =>
      constructor
      · intro hba
        cases hba
        exact ⟨.head _, hp⟩
      · rintro ⟨hmem, ha⟩
        rcases List.mem_cons.mp hmem with rfl | hmem
        · rfl
        · exact absurd ⟨hp, ha⟩ (hb a hmem)
    | false =>
      rw [ih hl]
      constructor
      · rintro ⟨hmem, ha⟩
        exact ⟨.tail _ hmem, ha⟩
      · rintro ⟨hmem, ha⟩
        rcases List.mem_cons.mp hmem with rfl | hmem
        · rw [hp] at ha
          cases ha
        · exact ⟨hmem, ha⟩

theorem Constrained.find?_isOwn (h : Constrained ts) {pk : Pk} :
    ts.find? (isOwn pk) = some t ↔ t ∈ ts ∧ isOwn pk t = true := by
  refine find?_eq_some_of_unique (h.station.imp fun {a b} hne hab => hne ?_)
  simp only [isOwn, decide_eq_true_eq] at hab
  obtain ⟨⟨ha, ha'⟩, hb, hb'⟩ := hab
  exact ⟨ha, hb, ha'.trans hb'.symm, by simp [ha']⟩

theorem Constrained.find?_isGroups (h : Constrained ts) {st : Station} :
    ts.find? (isGroups st) = some t ↔ t ∈ ts ∧ isGroups st t = true := by
  refine find?_eq_some_of_unique (h.group.imp fun {a b} hne hab => hne ?_)
  simp only [isGroups, decide_eq_true_eq, Option.isSome_iff_ne_none] at hab
  obtain ⟨⟨ha, hsome, ha'⟩, hb, -, hb'⟩ := hab
  exact ⟨ha, hb, ha'.trans hb'.symm, ha' ▸ hsome⟩

theorem Constrained.find?_isFleet (h : Constrained ts) :
    ts.find? isFleet = some t ↔ t ∈ ts ∧ isFleet t = true :=
  find?_eq_some_of_unique (h.fleet.imp fun {a b} hne hab => hne (by simpa [isFleet] using hab))

/-- Resolution by membership. -/
theorem resolveByLoop_eq_some_iff (h : Constrained ts) (pk : Pk) (st : Station) (t : Target) :
    resolveByLoop pk st ts = some t ↔ Effective pk st ts t := by
  rw [resolveByLoop_eq_conclude, Picked.conclude, Effective]
  simp only
  cases hown : ts.find? (isOwn pk) with
  | some s =>
    obtain ⟨hs, hs'⟩ := h.find?_isOwn.mp hown
    constructor
    · intro hst
      cases hst
      exact ⟨hs, .inl hs'⟩
    · rintro ⟨hmem, ht | ⟨-, hno⟩ | ⟨-, -, hno⟩⟩
      · exact hown.symm.trans (h.find?_isOwn.mpr ⟨hmem, ht⟩)
      · exact absurd hs' (hno s hs)
      · exact absurd hs' (hno s hs).1
  | none =>
    have hnone : ∀ u ∈ ts, ¬isOwn pk u = true := List.find?_eq_none.mp hown
    cases hgroup : ts.find? (isGroups st) with
    | some g =>
      obtain ⟨hg, hg'⟩ := h.find?_isGroups.mp hgroup
      constructor
      · intro hst
        cases hst
        exact ⟨hg, .inr (.inl ⟨hg', hnone⟩)⟩
      · rintro ⟨hmem, ht | ⟨ht, -⟩ | ⟨-, -, hno⟩⟩
        · exact absurd ht (hnone t hmem)
        · exact hgroup.symm.trans (h.find?_isGroups.mpr ⟨hmem, ht⟩)
        · exact absurd hg' (hno g hg).2
    | none =>
      have hnone' : ∀ u ∈ ts, ¬isGroups st u = true := List.find?_eq_none.mp hgroup
      cases hfleet : ts.find? isFleet with
      | none =>
        have hnone'' : ∀ u ∈ ts, ¬isFleet u = true := List.find?_eq_none.mp hfleet
        constructor
        · intro hst
          cases hst
        · rintro ⟨hmem, ht | ⟨ht, -⟩ | ⟨ht, -⟩⟩
          · exact absurd ht (hnone t hmem)
          · exact absurd ht (hnone' t hmem)
          · exact absurd ht (hnone'' t hmem)
      | some f =>
        obtain ⟨hf, hf'⟩ := h.find?_isFleet.mp hfleet
        simp only
        constructor
        · intro hst
          split at hst
          · cases hst
          · next hgate =>
            cases hst
            refine ⟨hf, .inr (.inr ⟨hf', ?_, fun u hu => ⟨hnone u hu, hnone' u hu⟩⟩)⟩
            by_cases hc : t.canaryGroup = none
            · exact .inl hc
            · exact .inr (by_contra fun hne => hgate ⟨hc, hne⟩)
        · rintro ⟨hmem, ht | ⟨ht, -⟩ | ⟨ht, hgate, -⟩⟩
          · exact absurd ht (hnone t hmem)
          · exact absurd ht (hnone' t hmem)
          · have heq := hfleet.symm.trans (h.find?_isFleet.mpr ⟨hmem, ht⟩)
            cases heq
            rw [if_neg]
            rintro ⟨hc, hne⟩
            exact hgate.elim hc hne

/-- What a target that counts looks like. -/
theorem applicable_iff {pk : Pk} {st : Station} :
    applicable pk st t = true ↔ isOwn pk t = true ∨ isGroups st t = true ∨ isFleet t = true := by
  simp only [applicable, isOwn, isGroups, isFleet, decide_eq_true_eq]
  constructor
  · rintro (h | h | ⟨h, h', h''⟩)
    · exact .inr (.inr h)
    · exact .inl h
    · exact .inr (.inl ⟨h', h, h''⟩)
  · rintro (h | ⟨h, h', h''⟩ | h)
    · exact .inr (.inl h)
    · exact .inr (.inr ⟨h', h, h''⟩)
    · exact .inl h

/-- Only the applicable targets count. -/
theorem Effective.congr {pk : Pk} {st : Station}
    (h : ∀ u, applicable pk st u = true → (u ∈ ts ↔ u ∈ ts')) (ht : Effective pk st ts t) :
    Effective pk st ts' t := by
  have hown : ∀ u, isOwn pk u = true → (u ∈ ts ↔ u ∈ ts') := fun u hu =>
    h u (applicable_iff.mpr (.inl hu))
  have hgroup : ∀ u, isGroups st u = true → (u ∈ ts ↔ u ∈ ts') := fun u hu =>
    h u (applicable_iff.mpr (.inr (.inl hu)))
  have hfleet : ∀ u, isFleet u = true → (u ∈ ts ↔ u ∈ ts') := fun u hu =>
    h u (applicable_iff.mpr (.inr (.inr hu)))
  obtain ⟨hmem, ht | ⟨ht, hno⟩ | ⟨ht, hgate, hno⟩⟩ := ht
  · exact ⟨(hown t ht).mp hmem, .inl ht⟩
  · exact ⟨(hgroup t ht).mp hmem, .inr (.inl ⟨ht, fun u hu hu' =>
      hno u ((hown u hu').mpr hu) hu'⟩)⟩
  · exact ⟨(hfleet t ht).mp hmem, .inr (.inr ⟨ht, hgate, fun u hu =>
      ⟨fun hu' => (hno u ((hown u hu').mpr hu)).1 hu',
        fun hu' => (hno u ((hgroup u hu').mpr hu)).2 hu'⟩⟩)⟩

/-- Two lists with the same applicable targets resolve alike. -/
theorem resolveByLoop_congr {pk : Pk} {st : Station} (hc : Constrained ts) (hc' : Constrained ts')
    (h : ∀ u, applicable pk st u = true → (u ∈ ts ↔ u ∈ ts')) :
    resolveByLoop pk st ts = resolveByLoop pk st ts' := by
  refine Option.ext fun t => ?_
  rw [resolveByLoop_eq_some_iff hc, resolveByLoop_eq_some_iff hc']
  exact ⟨Effective.congr h, Effective.congr fun u hu => (h u hu).symm⟩

theorem Constrained.perm (h : Constrained ts) (hp : ts'.Perm ts) : Constrained ts' where
  fleet := hp.symm.pairwise h.fleet fun hab hba => hab ⟨hba.2, hba.1⟩
  group := hp.symm.pairwise h.group fun hab hba =>
    hab ⟨hba.2.1, hba.1, hba.2.2.1.symm, hba.2.2.1 ▸ hba.2.2.2⟩
  station := hp.symm.pairwise h.station fun hab hba =>
    hab ⟨hba.2.1, hba.1, hba.2.2.1.symm, hba.2.2.1 ▸ hba.2.2.2⟩

/-- **Target resolution.**  Over a list of targets that meets the unique constraints, the
loop returns the target of the station if present, else the one of its group, else the
fleet target unless the canary gate excludes the station, else nothing; so it returns the
same for every order of the list, and for every sublist that keeps the targets selected
by the query of `effective_target`. -/
theorem target_resolution (pk : Pk) (st : Station) (ts : List Target) (h : Constrained ts) :
    (∀ t, resolveByLoop pk st ts = some t ↔ Effective pk st ts t) ∧
      (∀ ts', ts'.Perm ts → resolveByLoop pk st ts' = resolveByLoop pk st ts) ∧
      ∀ ts', ts'.Sublist ts → (∀ t ∈ ts, applicable pk st t = true → t ∈ ts') →
        resolveByLoop pk st ts' = resolveByLoop pk st ts :=
  ⟨resolveByLoop_eq_some_iff h pk st,
    fun _ hp => resolveByLoop_congr (h.perm hp) h fun _ _ => hp.mem_iff,
    fun _ hs hkeep => resolveByLoop_congr (h.sublist hs) h fun u hu =>
      ⟨fun hmem => hs.subset hmem, fun hmem => hkeep u hmem hu⟩⟩

/-- A canary station and one outside the canary group, with a group target for another
group in the list. -/
theorem target_resolution_canary : let ts : List Target :=
      [{ moduleType := 1, version := "2", scope := .fleet, canaryGroup := some 7 },
        { moduleType := 1, version := "3", scope := .group, group := some 8 }]
    resolveByLoop 1 { rolloutGroup := some 7 } ts.reverse = ts.head? ∧
      resolveByLoop 1 { rolloutGroup := some 9 } ts.reverse = none := by
  intro ts
  have hc : Constrained ts := ⟨by decide, by decide, by decide⟩
  have hperm : ts.reverse.Perm ts := List.reverse_perm ts
  refine ⟨?_, ?_⟩
  · rw [(target_resolution 1 _ ts hc).2.1 _ hperm]
    decide
  · rw [(target_resolution 1 _ ts hc).2.1 _ hperm]
    decide

end StationManager.Firmware
