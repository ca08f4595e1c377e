import StationManager.Lib.Table
import Mathlib.Data.List.Sort
import Mathlib.Data.List.InsertIdx
import Mathlib.Data.List.Perm.Basic

/-!
# StationManager.Rollouts.Sequence

The rollout sequence: `apps.rollouts.services` and `SequenceReorderView`.  The table is a
singleton, so a sequence is its entries, addressed by primary key.  A `Sequence` carries the
constraints of the schema: no two entries share a position or a group, and positions fit a
`PositiveSmallIntegerField`.  A save that would break one is refused.

A transaction is a list of `Action`s; each action reads the entries and then writes rows one
by one (`Action.writes`, `writeAll`).  The rows that a queryset returns without an order are
taken in any order.

Read in the order of positions, a gap-free sequence is a list of groups, and the operations
are those of lists (`sequence_refines_list`).  All of them rewrite positions through
`Lists.assign`: rows get new positions one after the other, none of which a row still has.
-/

namespace StationManager.Rollouts

/-! ## the table -/

/-- `_POSITION_MAX`, the bound of the column. -/
def positionMax : Nat := 32767

structure Entry where
  group : Pk
  position : Nat
deriving DecidableEq, Repr

/-- Why a request fails; its transaction is rolled back. -/
inductive Failure
  /-- `uniq_position_per_sequence` -/
  | position
  /-- `uniq_group_per_sequence` -/
  | group
  /-- the position does not fit the column -/
  | range
  /-- a save with `update_fields` of a row that is gone -/
  | missing
  /-- the primary key has been used -/
  | primaryKey
  /-- `_calc_offset` raises `ValueError` -/
  | tooLarge
  /-- "order must match existing entries" -/
  | mismatch
deriving DecidableEq, Repr

/-- The entries, and the next primary key. -/
structure Sequence where
  entries : Table Pk Entry
  nextPk : Pk
  bounded : ∀ k e, entries.get? k = some e → e.position ≤ positionMax
  positions : ∀ j k d e, entries.get? j = some d → entries.get? k = some e →
    d.position = e.position → j = k
  groups : ∀ j k d e, entries.get? j = some d → entries.get? k = some e →
    d.group = e.group → j = k
  used : ∀ k e, entries.get? k = some e → k < nextPk

/-- No two rows agree in a column. -/
def Distinct (t : Table Pk Entry) (column : Entry → Nat) : Prop :=
  ∀ j k d e, t.get? j = some d → t.get? k = some e → column d = column e → j = k

theorem Distinct.put {t : Table Pk Entry} {column : Entry → Nat} {pk : Pk} {e : Entry}
    (h : Distinct t column)
    (hfree : ∀ f ∈ t.entries, f.1 ≠ pk → column f.2 ≠ column e) : Distinct (t.put pk e) column := by
  intro j k d f hd hf heq
  rw [Table.get?_put] at hd hf
  split at hd <;> split at hf
  · next hj hk => rw [hj, hk]
  · next hk =>
    cases hd
    exact absurd heq.symm (hfree (k, f) ((Table.mem_entries_iff ..).mpr hf) hk)
  · next hj _ =>
    cases hf
    exact absurd heq (hfree (j, d) ((Table.mem_entries_iff ..).mpr hd) hj)
  · exact h j k d f hd hf heq

theorem Distinct.erase {t : Table Pk Entry} {column : Entry → Nat} (h : Distinct t column)
    (pk : Pk) : Distinct (t.erase pk) column :=
  fun j k d e hd he => h j k d e (t.get?_of_erase hd) (t.get?_of_erase he)

namespace Sequence

/-- Write one row, which may be new. -/
def store (s : Sequence) (pk : Pk) (e : Entry) : Except Failure Sequence :=
  if hr : e.position ≤ positionMax then
    if hp : ∀ f ∈ s.entries.entries, f.1 ≠ pk → f.2.position ≠ e.position then
      if hg : ∀ f ∈ s.entries.entries, f.1 ≠ pk → f.2.group ≠ e.group then
        .ok {
          entries := s.entries.put pk e
          nextPk := if s.nextPk ≤ pk then pk + 1 else s.nextPk
          bounded := Table.All.put s.bounded hr
          positions := Distinct.put s.positions hp
          groups := Distinct.put s.groups hg
          used := by
            refine Table.All.put (Table.All.imp s.used fun k f _ hlt => ?_) ?_
            · split
              · next hle => exact Nat.lt_succ_of_lt (Nat.lt_of_lt_of_le hlt hle)
              · exact hlt
            · split
              · exact Nat.lt_succ_self pk
              · next hle => exact Nat.lt_of_not_le hle }
      else .error .group
    else .error .position
  else .error .range

/-- Delete one row. -/
def delete (s : Sequence) (pk : Pk) : Sequence where
  entries := s.entries.erase pk
  nextPk := s.nextPk
  bounded k e he := s.bounded k e (Table.get?_of_erase _ he)
  positions := Distinct.erase s.positions pk
  groups := Distinct.erase s.groups pk
  used k e he := s.used k e (Table.get?_of_erase _ he)

/-- The primary keys of the entries. -/
def pks (s : Sequence) : List Pk := s.entries.entries.map Prod.fst

/-- `order_by("position")` -/
def ordered (s : Sequence) : List (Pk × Entry) :=
  s.entries.entries.insertionSort fun a b => a.2.position ≤ b.2.position

/-- The sequence as a list: entries with their groups in the order of positions. -/
def reading (s : Sequence) : List (Pk × Pk) := s.ordered.map fun e => (e.1, e.2.group)

/-- The positions of the n entries are 0, …, n - 1. -/
def GapFree (s : Sequence) : Prop :=
  s.ordered.map (·.2.position) = List.range s.entries.entries.length

instance (s : Sequence) : Decidable s.GapFree := inferInstanceAs (Decidable (_ = _))

/-- The highest position. -/
def maxPosition (s : Sequence) : Option Nat := s.ordered.getLast?.map (·.2.position)

end Sequence

/-! ## writes -/

inductive Write
  /-- `objects.create` -/
  | create (pk : Pk) (e : Entry)
  | delete (pk : Pk)
  /-- `save(update_fields=["position"])` -/
  | savePosition (pk : Pk) (position : Nat)
deriving DecidableEq, Repr

def write (s : Sequence) : Write → Except Failure Sequence
  | .create pk e => if pk < s.nextPk then .error .primaryKey else s.store pk e
  | .delete pk => .ok (s.delete pk)
  | .savePosition pk position =>
    match s.entries.get? pk with
    | none => .error .missing
    | some e => s.store pk { e with position }

def writeAll (s : Sequence) : List Write → Except Failure Sequence
  | [] => .ok s
  | w :: ws =>
    match write s w with
    | .error f => .error f
    | .ok s' => writeAll s' ws

/-! ## the services -/

/-- What a transaction does after a read of the entries; `rows` is the order in which
`sequence.entries.select_for_update()` returns them. -/
inductive Action
  /-- the body of `add_entry`; `pk` is the new primary key -/
  | add (pk group : Pk)
  | delete (pk : Pk)
  /-- the loop of `remove_entry` and of the `post_delete` signal -/
  | renumber
  /-- the body of `move_entry` -/
  | move (pk : Pk) (position : Int) (rows : List Pk)
  /-- the body of `SequenceReorderView.post` -/
  | reorder (order rows : List Pk)
deriving DecidableEq, Repr

/-- `_calc_offset` -/
def calcOffset (maxCurrent n : Nat) : Except Failure Nat :=
  let offset := Nat.max maxCurrent n + 1
  if positionMax < maxCurrent + offset then .error .tooLarge else .ok offset

/-- The position of an entry; `existing[pk].position`. -/
def Sequence.positionOf (s : Sequence) (pk : Pk) : Nat :=
  ((s.entries.get? pk).map (·.position)).getD 0

/-- The two phases of `move_entry` and of the reorder view: all rows above the old and new
positions, then the final ones. -/
def twoPhase (s : Sequence) (offset : Nat) (rows order : List Pk) : List Write :=
  rows.map (fun pk => .savePosition pk (s.positionOf pk + offset)) ++
    order.zipIdx.map fun e => .savePosition e.1 e.2

/-- The order that `move_entry` builds; the position is clamped to the valid range. -/
def movedOrder (s : Sequence) (pk : Pk) (position : Int) : List Pk :=
  let others := (s.ordered.map Prod.fst).filter fun k => k ≠ pk
  others.insertIdx (Nat.min position.toNat others.length) pk

/-- The writes of an action. -/
def Action.writes (s : Sequence) : Action → Except Failure (List Write)
  | .add pk group =>
    if s.entries.entries.any fun e => e.2.group = group then .ok []
    else .ok [.create pk ⟨group, (s.maxPosition.map (· + 1)).getD 0⟩]
  | .delete pk => .ok [.delete pk]
  | .renumber => .ok (s.ordered.zipIdx.filterMap fun e =>
    if e.1.2.position ≠ e.2 then some (.savePosition e.1.1 e.2) else none)
  | .move pk position rows =>
    match calcOffset (s.maxPosition.getD 0) s.entries.entries.length with
    | .error f => .error f
    | .ok offset => .ok (twoPhase s offset rows (movedOrder s pk position))
  | .reorder order rows =>
    if ¬order.Nodup ∨ ¬order.Perm s.pks then .error .mismatch
    else match calcOffset (s.maxPosition.getD 0) order.length with
      | .error f => .error f
      | .ok offset => .ok (twoPhase s offset rows order)

/-- A transaction on the sequence. -/
def transact (s : Sequence) : List Action → Except Failure Sequence
  | [] => .ok s
  | a :: as =>
    match a.writes s with
    | .error f => .error f
    | .ok ws =>
      match writeAll s ws with
      | .error f => .error f
      | .ok s' => transact s' as

/-- The sequence after `with transaction.atomic()`. -/
def atomic (s : Sequence) (actions : List Action) : Sequence :=
  match transact s actions with
  | .ok s' => s'
  | .error _ => s

def addEntry (pk group : Pk) : List Action := [.add pk group]

/-- The signal renumbers before the service does. -/
def removeEntry (pk : Pk) : List Action := [.delete pk, .renumber, .renumber]

def moveEntry (pk : Pk) (position : Int) (rows : List Pk) : List Action :=
  [.move pk position rows]

def reorderEntries (order rows : List Pk) : List Action := [.reorder order rows]

/-! ## rows as a list -/

section lists

variable {s s' : Sequence} {es : List (Pk × Entry)}

/-- The rows of a sequence, each once, in some order. -/
structure Lists (s : Sequence) (es : List (Pk × Entry)) : Prop where
  mem : ∀ k e, s.entries.get? k = some e ↔ (k, e) ∈ es
  keys : (es.map Prod.fst).Nodup

theorem Lists.of_perm {es' : List (Pk × Entry)} (h : Lists s es) (hp : es.Perm es') : Lists s es' :=
  ⟨fun k e => (h.mem k e).trans hp.mem_iff, (hp.map Prod.fst).nodup h.keys⟩

theorem lists_entries (s : Sequence) : Lists s s.entries.entries :=
  ⟨fun _ _ => (Table.mem_entries_iff ..).symm, s.entries.nodup⟩

/-- Two listings of the rows differ in their order. -/
theorem Lists.perm {es' : List (Pk × Entry)} (h : Lists s es) (h' : Lists s es') : es.Perm es' := by
  refine (List.perm_ext_iff_of_nodup (.of_map _ h.keys) (.of_map _ h'.keys)).mpr ?_
  rintro ⟨k, e⟩
  rw [← h.mem, ← h'.mem]

theorem lists_ordered (s : Sequence) : Lists s s.ordered :=
  (lists_entries s).of_perm (List.perm_insertionSort ..).symm

theorem Lists.length (h : Lists s es) : s.entries.entries.length = es.length :=
  ((lists_entries s).perm h).length_eq

variable {e : Entry} {a b : List (Pk × Entry)} {k : Pk}

/-- An accepted write of a row. -/
theorem Sequence.store_eq_ok (h : s.store k e = .ok s') :
    s'.entries = s.entries.put k e := by
  unfold Sequence.store at h
  split at h
  · split at h
    · split at h
      · cases h
        rfl
      · cases h
    · cases h
  · cases h

theorem Lists.split_keys (h : Lists s (a ++ (k, e) :: b)) : k ∉ (a ++ b).map Prod.fst := by
  have hn := h.keys
  simp only [List.map_append, List.map_cons, List.nodup_append, List.nodup_cons] at hn
  simp only [List.map_append, List.mem_append]
  grind

/-- The listing after a row has been replaced. -/
theorem Lists.put {e' : Entry} (h : Lists s (a ++ (k, e) :: b))
    (hput : s'.entries = s.entries.put k e') : Lists s' (a ++ (k, e') :: b) := by
  refine ⟨fun j f => ?_, by simpa using h.keys⟩
  rw [hput, Table.get?_put]
  split
  · next hj =>
    subst hj
    have hin : (j, f) ∉ a ++ b := fun hin => h.split_keys (List.mem_map_of_mem hin)
    simp only [List.mem_append, List.mem_cons, Prod.mk.injEq] at hin ⊢
    grind
  · next hj =>
    rw [h.mem]
    simp [hj]

/-- A row is written where no other row has its position or group. -/
theorem Lists.store {e' : Entry} (h : Lists s (a ++ (k, e) :: b)) (hr : e'.position ≤ positionMax)
    (hp : ∀ f ∈ a ++ b, f.2.position ≠ e'.position) (hg : ∀ f ∈ a ++ b, f.2.group ≠ e'.group) :
    ∃ s', s.store k e' = .ok s' ∧ Lists s' (a ++ (k, e') :: b) := by
  have hother : ∀ f ∈ s.entries.entries, f.1 ≠ k → f ∈ a ++ b := by
    rintro ⟨j, f⟩ hf hj
    have hmem := (h.mem j f).mp ((Table.mem_entries_iff ..).mp hf)
    simp only [List.mem_append, List.mem_cons, Prod.mk.injEq] at hmem ⊢
    grind
  have hp' : ∀ f ∈ s.entries.entries, f.1 ≠ k → f.2.position ≠ e'.position :=
    fun f hf hk => hp f (hother f hf hk)
  have hg' : ∀ f ∈ s.entries.entries, f.1 ≠ k → f.2.group ≠ e'.group :=
    fun f hf hk => hg f (hother f hf hk)
  obtain ⟨s', hs'⟩ : ∃ s', s.store k e' = .ok s' :=
    ⟨_, by rw [Sequence.store, dif_pos hr, dif_pos hp', dif_pos hg']⟩
  exact ⟨s', hs', h.put (Sequence.store_eq_ok hs')⟩

/-- A new row. -/
theorem Lists.insert (h : Lists s es) (hk : s.nextPk ≤ k) (hr : e.position ≤ positionMax)
    (hp : ∀ f ∈ es, f.2.position ≠ e.position) (hg : ∀ f ∈ es, f.2.group ≠ e.group) :
    ∃ s', s.store k e = .ok s' ∧ Lists s' (es ++ [(k, e)]) := by
  have hmem : ∀ f ∈ s.entries.entries, f ∈ es := fun f hf =>
    (h.mem f.1 f.2).mp ((Table.mem_entries_iff ..).mp hf)
  have hp' : ∀ f ∈ s.entries.entries, f.1 ≠ k → f.2.position ≠ e.position :=
    fun f hf _ => hp f (hmem f hf)
  have hg' : ∀ f ∈ s.entries.entries, f.1 ≠ k → f.2.group ≠ e.group :=
    fun f hf _ => hg f (hmem f hf)
  obtain ⟨s', hs'⟩ : ∃ s', s.store k e = .ok s' :=
    ⟨_, by rw [Sequence.store, dif_pos hr, dif_pos hp', dif_pos hg']⟩
  have hnew : ∀ f, (k, f) ∉ es := fun f hf =>
    absurd (s.used k f ((h.mem k f).mpr hf)) (Nat.not_lt.mpr hk)
  refine ⟨s', hs', fun j f => ?_, ?_⟩
  · rw [Sequence.store_eq_ok hs', Table.get?_put]
    split
    · next hj =>
      subst hj
      simp [hnew, eq_comm]
    · next hj =>
      rw [h.mem]
      simp [hj]
  · have hkeys := h.keys
    simp only [List.map_append, List.nodup_append]
    refine ⟨hkeys, by simp, ?_⟩
    simp only [List.mem_map, Prod.exists, exists_and_right, exists_eq_right]
    rintro j ⟨f, hf⟩ i hi rfl
    have : j = k := by simpa using hi
    exact hnew f (this ▸ hf)

theorem Lists.delete (h : Lists s es) (k : Pk) :
    Lists (s.delete k) (es.filter fun e => e.1 ≠ k) := by
  refine ⟨fun j e => ?_, ?_⟩
  · rw [Sequence.delete, Table.get?_erase]
    split
    · next hj => simp [hj]
    · next hj =>
      rw [h.mem]
      simp [hj]
  · exact h.keys.sublist (List.filter_sublist.map _)

/-- **Positions are assigned one after the other.**  Each row gets a position that no row has
at that time: not those before it in the list, which have got theirs, and not those behind
it; rows that have theirs already may be skipped. -/
theorem Lists.assign (skip : (Pk × Entry) × Nat → Bool)
    (hskip : ∀ f, skip f = true → f.1.2.position = f.2) :
    ∀ (todo : List ((Pk × Entry) × Nat)) {s : Sequence} (done : List (Pk × Entry)),
      Lists s (done ++ todo.map Prod.fst) →
      (∀ f ∈ todo, f.2 ≤ positionMax) →
      (∀ f ∈ todo, ∀ d ∈ done, d.2.position ≠ f.2) →
      todo.Pairwise (fun f g => g.1.2.position ≠ f.2 ∧ g.2 ≠ f.2) →
      ∃ s', writeAll s (todo.filterMap fun f =>
          if skip f then none else some (.savePosition f.1.1 f.2)) = .ok s' ∧
        Lists s' (done ++ todo.map fun f => (f.1.1, { f.1.2 with position := f.2 })) := by
  intro todo
  induction todo with
  | nil =>
    intro s done h _ _ _
    exact ⟨s, rfl, h⟩
  | cons f todo ih =>
    intro s done h hmax hdone hpair
    obtain ⟨⟨k, e⟩, p⟩ := f
    have hmax' : ∀ g ∈ todo, g.2 ≤ positionMax := fun g hg => hmax g (List.mem_cons_of_mem _ hg)
    obtain ⟨hfirst, hpair'⟩ := List.pairwise_cons.mp hpair
    -- one row further: the head is among those done
    have hdone' : ∀ g ∈ todo, ∀ d ∈ done ++ [(k, { e with position := p })],
        d.2.position ≠ g.2 := by
      intro g hg d hd
      rcases List.mem_append.mp hd with hd | hd
      · exact hdone g (List.mem_cons_of_mem _ hg) d hd
      · cases List.mem_singleton.mp hd
        exact fun heq => (hfirst g hg).2 heq.symm
    cases hs : skip ((k, e), p) with
    | true =>
      have hpos : e.position = p := hskip _ hs
      have hsame : ({ e with position := p } : Entry) = e := by rw [← hpos]
      have h' : Lists s ((done ++ [(k, { e with position := p })]) ++ todo.map Prod.fst) := by
        simpa [hsame] using h
      obtain ⟨s', hrun, hlists⟩ := ih _ h' hmax' hdone' hpair'
      refine ⟨s', ?_, by simpa using hlists⟩
      simpa [List.filterMap_cons, hs] using hrun
    | false =>
      have hget : s.entries.get? k = some e := (h.mem k e).mpr (by simp)
      have hfree : ∀ f ∈ done ++ todo.map Prod.fst, f.2.position ≠ p := by
        intro f hf
        rcases List.mem_append.mp hf with hf | hf
        · exact hdone _ List.mem_cons_self f hf
        · obtain ⟨g, hg, rfl⟩ := List.mem_map.mp hf
          exact (hfirst g hg).1
      have hgroup : ∀ f ∈ done ++ todo.map Prod.fst, f.2.group ≠ e.group := by
        rintro ⟨j, d⟩ hf heq
        have hj : s.entries.get? j = some d := by
          rw [h.mem]
          simp only [List.mem_append, List.map_cons, List.mem_cons] at hf ⊢
          tauto
        have hjk := s.groups j k d e hj hget heq
        have hn := h.keys
        simp only [List.map_append, List.map_cons, List.nodup_append, List.nodup_cons] at hn
        have hjmem : j ∈ done.map Prod.fst ∨ j ∈ (todo.map Prod.fst).map Prod.fst := by
          rcases List.mem_append.mp hf with hf | hf
          · exact .inl (List.mem_map_of_mem hf)
          · exact .inr (List.mem_map_of_mem hf)
        grind
      have hcons : Lists s (done ++ (k, e) :: todo.map Prod.fst) := by simpa using h
      have hle : ({ e with position := p } : Entry).position ≤ positionMax :=
        hmax _ List.mem_cons_self
      obtain ⟨s₁, hstore, hlists₁⟩ := hcons.store hle hfree hgroup
      have h' : Lists s₁ ((done ++ [(k, { e with position := p })]) ++ todo.map Prod.fst) := by
        simpa using hlists₁
      obtain ⟨s', hrun, hlists⟩ := ih _ h' hmax' hdone' hpair'
      refine ⟨s', ?_, by simpa using hlists⟩
      simpa [List.filterMap_cons, hs, writeAll, write, hget, hstore] using hrun

end lists

/-! ## gap-free sequences -/

section gapFree

variable {s s' : Sequence} {l : List (Pk × Pk)}

/-- The rows of a list of entries with their groups. -/
def positioned (l : List (Pk × Pk)) : List (Pk × Entry) :=
  l.zipIdx.map fun f => (f.1.1, ⟨f.1.2, f.2⟩)

theorem positioned_position (l : List (Pk × Pk)) :
    (positioned l).map (·.2.position) = List.range l.length := by
  rw [positioned, List.map_map]
  show l.zipIdx.map Prod.snd = _
  rw [List.zipIdx_map_snd, List.range_eq_range']

theorem positioned_groups (l : List (Pk × Pk)) :
    (positioned l).map (fun e => (e.1, e.2.group)) = l := by
  rw [positioned, List.map_map]
  show l.zipIdx.map Prod.fst = _
  rw [List.zipIdx_map_fst]

theorem length_positioned (l : List (Pk × Pk)) : (positioned l).length = l.length := by
  simp [positioned]

theorem ordered_pairwise (s : Sequence) :
    s.ordered.Pairwise fun a b => a.2.position < b.2.position := by
  have hsorted : s.ordered.Pairwise fun a b => a.2.position ≤ b.2.position := by
    have : Std.Total fun a b : Pk × Entry => a.2.position ≤ b.2.position :=
      ⟨fun a b => Nat.le_total ..⟩
    have : IsTrans (Pk × Entry) fun a b => a.2.position ≤ b.2.position :=
      ⟨fun _ _ _ => Nat.le_trans⟩
    exact List.pairwise_insertionSort ..
  have hkeys := (lists_ordered s).keys
  rw [List.Nodup, List.pairwise_map] at hkeys
  refine (hsorted.and hkeys).imp_of_mem fun {a b} ha hb h => ?_
  refine Nat.lt_of_le_of_ne h.1 fun heq => h.2 ?_
  exact s.positions a.1 b.1 a.2 b.2 (((lists_ordered s).mem ..).mpr ha)
    (((lists_ordered s).mem ..).mpr hb) heq

/-- Rows listed by growing positions are in the order of the sequence. -/
theorem Lists.ordered_eq {es : List (Pk × Entry)} (h : Lists s es)
    (hp : es.Pairwise fun a b => a.2.position < b.2.position) : s.ordered = es := by
  refine List.Perm.eq_of_pairwise ?_ (ordered_pairwise s) hp ((lists_ordered s).perm h)
  intro a b _ _ hab hba
  exact absurd hab (Nat.lt_asymm hba)

theorem Lists.ordered (h : Lists s (positioned l)) : s.ordered = positioned l := by
  have hrange : ((positioned l).map (·.2.position)).Pairwise (· < ·) := by
    rw [positioned_position]
    exact List.pairwise_lt_range
  exact h.ordered_eq (List.pairwise_map.mp hrange)

theorem Lists.gapFree (h : Lists s (positioned l)) : s.GapFree ∧ s.reading = l := by
  constructor
  · rw [Sequence.GapFree, h.ordered, h.length, length_positioned, positioned_position]
  · rw [Sequence.reading, h.ordered, positioned_groups]

theorem Sequence.GapFree.lists (h : s.GapFree) : Lists s (positioned s.reading) := by
  have heq : positioned s.reading = s.ordered := by
    refine List.ext_getElem? fun i => ?_
    have hpos : (s.ordered.map (·.2.position))[i]? = (List.range s.entries.entries.length)[i]? :=
      congrArg (fun l : List Nat => l[i]?) h
    cases hi : s.ordered[i]? with
    | none => simp [positioned, Sequence.reading, hi]
    | some e =>
      obtain ⟨k, g, p⟩ := e
      have hposition : i = p := by
        simp only [List.getElem?_map, hi, Option.map_some] at hpos
        obtain ⟨hlt, hget⟩ := List.getElem?_eq_some_iff.mp hpos.symm
        simpa using hget
      simp [positioned, Sequence.reading, hi, ← hposition]
  rw [heq]
  exact lists_ordered s

/-! ## the operations -/

theorem writeAll_append (s : Sequence) (ws ws' : List Write) :
    writeAll s (ws ++ ws') = (writeAll s ws).bind fun s' => writeAll s' ws' := by
  induction ws generalizing s with
  | nil => rfl
  | cons w ws ih =>
    simp only [List.cons_append, writeAll]
    cases write s w with
    | error f => rfl
    | ok s' => exact ih s'

/-- The conditions of `Lists.assign` for rows that are numbered in their order. -/
theorem zipIdx_increasing (es : List (Pk × Entry)) (n : Nat)
    (hp : es.Pairwise fun a b => a.2.position < b.2.position) (hn : ∀ e ∈ es, n ≤ e.2.position) :
    (∀ f ∈ es.zipIdx n, f.2 ≤ f.1.2.position) ∧
      (es.zipIdx n).Pairwise fun f g => g.1.2.position ≠ f.2 ∧ g.2 ≠ f.2 := by
  induction es generalizing n with
  | nil => simp
  | cons e es ih =>
    obtain ⟨hfirst, hrest⟩ := List.pairwise_cons.mp hp
    have he : n ≤ e.2.position := hn e List.mem_cons_self
    have hn' : ∀ f ∈ es, n + 1 ≤ f.2.position := fun f hf => by
      have := hfirst f hf
      omega
    obtain ⟨hle, hpair⟩ := ih (n + 1) hrest hn'
    rw [List.zipIdx_cons]
    refine ⟨fun f hf => ?_, List.pairwise_cons.mpr ⟨fun g hg => ?_, hpair⟩⟩
    · rcases List.mem_cons.mp hf with rfl | hf
      · exact he
      · exact hle f hf
    · obtain ⟨hge, -⟩ := List.mem_zipIdx hg
      have hpos := hle g hg
      dsimp only
      omega

/-- Renumbering closes the gaps and keeps the order. -/
theorem renumber_ok (s : Sequence) :
    ∃ ws s', Action.renumber.writes s = .ok ws ∧ writeAll s ws = .ok s' ∧
      Lists s' (positioned s.reading) := by
  obtain ⟨hle, hpair⟩ := zipIdx_increasing s.ordered 0 (ordered_pairwise s) (by simp)
  have hlists : Lists s ([] ++ s.ordered.zipIdx.map Prod.fst) := by
    rw [List.nil_append, List.zipIdx_map_fst]
    exact lists_ordered s
  have hmax : ∀ f ∈ s.ordered.zipIdx, f.2 ≤ positionMax := by
    intro f hf
    have hmem : f.1 ∈ s.ordered := List.fst_mem_of_mem_zipIdx hf
    exact Nat.le_trans (hle f hf) (s.bounded f.1.1 f.1.2 (((lists_ordered s).mem ..).mpr hmem))
  obtain ⟨s', hrun, hlists'⟩ := Lists.assign (fun f => decide (f.1.2.position = f.2))
    (fun f h => of_decide_eq_true h) _ [] hlists hmax (by simp) hpair
  refine ⟨_, s', rfl, ?_, ?_⟩
  · rw [← hrun]
    congr 2
    funext f
    simp [ite_not]
  · simpa [positioned, Sequence.reading, List.zipIdx_map, Function.comp_def] using hlists'

/-- The row of an entry. -/
def Sequence.entryOf (s : Sequence) (k : Pk) : Entry := (s.entries.get? k).getD ⟨0, 0⟩

/-- The entry with its group. -/
def Sequence.element (s : Sequence) (k : Pk) : Pk × Pk := (k, (s.entryOf k).group)

variable {order rows : List Pk} {g k pk : Pk}

theorem entryOf_of_get? {e : Entry} (h : s.entries.get? k = some e) : s.entryOf k = e := by
  simp [Sequence.entryOf, h]

theorem positionOf_eq (s : Sequence) (k : Pk) : s.positionOf k = (s.entryOf k).position := by
  unfold Sequence.positionOf Sequence.entryOf
  cases s.entries.get? k <;> rfl

/-- The rows in any order of the primary keys. -/
theorem lists_of_perm (h : rows.Perm s.pks) : Lists s (rows.map fun k => (k, s.entryOf k)) := by
  have hmap : s.entries.entries = s.pks.map fun k => (k, s.entryOf k) := by
    rw [Sequence.pks, List.map_map]
    refine (List.map_id' _).symm.trans (List.map_congr_left fun e he => ?_)
    have hget := (Table.mem_entries_iff ..).mp he
    simp [entryOf_of_get? hget]
  have hlists := lists_entries s
  rw [hmap] at hlists
  exact hlists.of_perm (h.map _).symm

theorem filterMap_savePosition (todo : List ((Pk × Entry) × Nat)) :
    (todo.filterMap fun f => if false then none else some (Write.savePosition f.1.1 f.2)) =
      todo.map fun f => .savePosition f.1.1 f.2 := by
  simp

/-- A row in the first phase. -/
def Sequence.lifted (s : Sequence) (offset : Nat) (k : Pk) : Entry :=
  { s.entryOf k with position := (s.entryOf k).position + offset }

/-- The first phase: all rows go above the positions that there are. -/
theorem lift_ok {offset : Nat} (hrows : rows.Perm s.pks)
    (hbelow : ∀ k ∈ s.pks, (s.entryOf k).position < offset)
    (hmax : ∀ k ∈ s.pks, (s.entryOf k).position + offset ≤ positionMax) :
    ∃ s', writeAll s (rows.map fun k => .savePosition k (s.positionOf k + offset)) = .ok s' ∧
      Lists s' (rows.map fun k => (k, s.lifted offset k)) := by
  have hlists := lists_of_perm hrows
  let todo := rows.map fun k => ((k, s.entryOf k), (s.entryOf k).position + offset)
  have hstart : Lists s ([] ++ todo.map Prod.fst) := by simpa [todo, Function.comp_def] using hlists
  have hmax' : ∀ f ∈ todo, f.2 ≤ positionMax := by
    simpa [todo] using fun k hk => hmax k (hrows.mem_iff.mp hk)
  have hpair : todo.Pairwise fun f g => g.1.2.position ≠ f.2 ∧ g.2 ≠ f.2 := by
    refine List.pairwise_map.mpr ((hrows.nodup_iff.mpr s.entries.nodup).imp_of_mem ?_)
    intro j k hj hk hne
    have hlt := hbelow k (hrows.mem_iff.mp hk)
    refine ⟨by dsimp only; omega, fun heq => hne ?_⟩
    have hgj := (hlists.mem j _).mpr (List.mem_map.mpr ⟨j, hj, rfl⟩)
    have hgk := (hlists.mem k _).mpr (List.mem_map.mpr ⟨k, hk, rfl⟩)
    exact s.positions j k _ _ hgj hgk (Nat.add_right_cancel heq).symm
  obtain ⟨s', hrun, hlists'⟩ := Lists.assign (fun _ => false) (by simp) todo [] hstart
    hmax' (by simp) hpair
  rw [filterMap_savePosition] at hrun
  refine ⟨s', ?_, ?_⟩
  · simpa [todo, positionOf_eq, Function.comp_def] using hrun
  · simpa [todo, Sequence.lifted, Function.comp_def] using hlists'

/-- The second phase: rows that are all above the final positions get these. -/
theorem settle_ok {row : Pk → Entry} (h : Lists s (order.map fun k => (k, row k)))
    (habove : ∀ k ∈ order, order.length ≤ (row k).position) :
    ∃ s', writeAll s (order.zipIdx.map fun e => .savePosition e.1 e.2) = .ok s' ∧
      Lists s' (positioned (order.map fun k => (k, (row k).group))) := by
  let todo := order.zipIdx.map fun f => ((f.1, row f.1), f.2)
  have hidx : ∀ f ∈ order.zipIdx, f.2 < order.length ∧ order.length ≤ (row f.1).position := by
    intro f hf
    have hlt := List.mem_zipIdx hf
    exact ⟨by omega, habove f.1 (List.fst_mem_of_mem_zipIdx hf)⟩
  have hstart : Lists s ([] ++ todo.map Prod.fst) := by
    have hsame : todo.map Prod.fst = (order.zipIdx.map Prod.fst).map fun k => (k, row k) := by
      rw [List.map_map, List.map_map]
      rfl
    rw [List.nil_append, hsame, List.zipIdx_map_fst]
    exact h
  have hmax : ∀ f ∈ todo, f.2 ≤ positionMax := by
    intro f hf
    obtain ⟨g, hg, rfl⟩ := List.mem_map.mp hf
    obtain ⟨hlt, hle⟩ := hidx g hg
    have hget := (h.mem g.1 (row g.1)).mpr
      (List.mem_map.mpr ⟨g.1, List.fst_mem_of_mem_zipIdx hg, rfl⟩)
    have hbound := s.bounded _ _ hget
    dsimp only
    omega
  have hpair : todo.Pairwise fun f g => g.1.2.position ≠ f.2 ∧ g.2 ≠ f.2 := by
    have hsnd : (order.zipIdx.map Prod.snd).Pairwise (· < ·) := by
      rw [List.zipIdx_map_snd]
      exact List.pairwise_lt_range'
    refine List.pairwise_map.mpr ((List.pairwise_map.mp hsnd).imp_of_mem ?_)
    intro f g hf hg hlt
    have hf' := hidx f hf
    have hg' := hidx g hg
    dsimp only
    omega
  obtain ⟨s', hrun, hlists⟩ := Lists.assign (fun _ => false) (by simp) todo [] hstart
    hmax (by simp) hpair
  rw [filterMap_savePosition] at hrun
  refine ⟨s', ?_, ?_⟩
  · simpa [todo, Function.comp_def] using hrun
  · simpa [todo, positioned, List.zipIdx_map, Function.comp_def] using hlists

/-- **The two phases complete**: with all positions below the offset no write is refused,
whatever the order of the rows, and the entries end in the given order. -/
theorem twoPhase_ok {offset : Nat} (hrows : rows.Perm s.pks) (horder : order.Perm s.pks)
    (hbelow : ∀ k ∈ s.pks, (s.entryOf k).position < offset) (hlength : order.length ≤ offset)
    (hmax : ∀ k ∈ s.pks, (s.entryOf k).position + offset ≤ positionMax) :
    ∃ s', writeAll s (twoPhase s offset rows order) = .ok s' ∧
      Lists s' (positioned (order.map s.element)) := by
  obtain ⟨s₁, hrun₁, hlists₁⟩ := lift_ok hrows hbelow hmax
  have hperm := (hrows.trans horder.symm).map fun k => (k, s.lifted offset k)
  have habove : ∀ k ∈ order, order.length ≤ (s.lifted offset k).position := by
    intro k _
    dsimp only [Sequence.lifted]
    omega
  obtain ⟨s₂, hrun₂, hlists₂⟩ := settle_ok (hlists₁.of_perm hperm) habove
  refine ⟨s₂, ?_, hlists₂⟩
  rw [twoPhase, writeAll_append, hrun₁]
  exact hrun₂

/-! ### positions of a gap-free sequence -/

theorem Sequence.GapFree.length (h : s.GapFree) : s.entries.entries.length = s.reading.length := by
  rw [h.lists.length, length_positioned]

theorem Sequence.GapFree.length_order (h : s.GapFree) (horder : order.Perm s.pks) :
    order.length = s.reading.length := by
  rw [horder.length_eq, Sequence.pks, List.length_map, h.length]

theorem Sequence.GapFree.maxPosition (h : s.GapFree) :
    s.maxPosition = if s.reading.length = 0 then none else some (s.reading.length - 1) := by
  rw [Sequence.maxPosition, ← List.getLast?_map, h.lists.ordered, positioned_position]
  cases s.reading.length with
  | zero => rfl
  | succ n => simp [List.getLast?_range]

theorem Sequence.GapFree.position_lt (h : s.GapFree) (hk : k ∈ s.pks) :
    (s.entryOf k).position < s.reading.length := by
  obtain ⟨e, he, rfl⟩ := List.mem_map.mp hk
  have hget := (Table.mem_entries_iff ..).mp he
  have hmem := (h.lists.mem ..).mp hget
  have hposition : e.2.position ∈ (positioned s.reading).map (·.2.position) :=
    List.mem_map.mpr ⟨_, hmem, rfl⟩
  rw [positioned_position, List.mem_range] at hposition
  rwa [entryOf_of_get? hget]

/-- The largest sequence that can be reordered has 16383 entries. -/
theorem Sequence.GapFree.calcOffset (h : s.GapFree) :
    calcOffset (s.maxPosition.getD 0) s.reading.length =
      if positionMax < 2 * s.reading.length then .error .tooLarge
      else .ok (s.reading.length + 1) := by
  have hmax : s.maxPosition.getD 0 = s.reading.length - 1 := by
    rw [h.maxPosition]
    split
    · next hzero => simp [hzero]
    · rfl
  rw [hmax]
  generalize s.reading.length = n
  have hoffset : Nat.max (n - 1) n = n := Nat.max_eq_right (Nat.sub_le ..)
  unfold Rollouts.calcOffset
  rw [hoffset]
  by_cases hzero : n = 0
  · subst hzero
    rfl
  · have heq : n - 1 + (n + 1) = 2 * n := by omega
    simp only [heq]

/-! ### the list operations -/

/-- What the entries of a reading are. -/
theorem mem_reading : (k, g) ∈ s.reading ↔ ∃ e, s.entries.get? k = some e ∧ e.group = g := by
  simp only [Sequence.reading, List.mem_map, Prod.mk.injEq, Prod.exists]
  constructor
  · rintro ⟨j, e, he, rfl, rfl⟩
    exact ⟨e, ((lists_ordered s).mem ..).mpr he, rfl⟩
  · rintro ⟨e, he, rfl⟩
    exact ⟨k, e, ((lists_ordered s).mem ..).mp he, rfl, rfl⟩

theorem reading_pks (s : Sequence) : (s.reading.map Prod.fst).Perm s.pks := by
  have hmap : s.reading.map Prod.fst = s.ordered.map Prod.fst := by
    simp [Sequence.reading, Function.comp_def]
  rw [hmap]
  exact (List.perm_insertionSort ..).map _

theorem element_of_mem {e : Pk × Pk} (h : e ∈ s.reading) : s.element e.1 = e := by
  obtain ⟨row, hget, hgroup⟩ := mem_reading.mp h
  rw [Sequence.element, entryOf_of_get? hget, hgroup]

theorem map_element {l : List (Pk × Pk)} (h : ∀ e ∈ l, e ∈ s.reading) :
    (l.map Prod.fst).map s.element = l := by
  rw [List.map_map]
  exact (List.map_congr_left fun e he => element_of_mem (h e he)).trans (List.map_id' l)

theorem add_present (hg : g ∈ s.reading.map Prod.snd) : transact s (addEntry pk g) = .ok s := by
  obtain ⟨⟨k, g'⟩, hmem, rfl⟩ := List.mem_map.mp hg
  obtain ⟨e, hget, hgroup⟩ := mem_reading.mp hmem
  have hany : s.entries.entries.any (fun e => e.2.group = g') = true :=
    List.any_eq_true.mpr ⟨(k, e), (Table.mem_entries_iff ..).mpr hget, by simp [hgroup]⟩
  simp [transact, addEntry, Action.writes, hany, writeAll]

theorem Sequence.GapFree.add_writes (h : s.GapFree) (hg : g ∉ s.reading.map Prod.snd) :
    (Action.add pk g).writes s = .ok [.create pk ⟨g, s.reading.length⟩] := by
  have hany : ¬ s.entries.entries.any (fun e => e.2.group = g) = true := by
    intro hany
    obtain ⟨e, he, heq⟩ := List.any_eq_true.mp hany
    refine hg (List.mem_map.mpr ⟨(e.1, g), mem_reading.mpr ⟨e.2, ?_, ?_⟩, rfl⟩)
    · exact (Table.mem_entries_iff ..).mp he
    · exact of_decide_eq_true heq
  have hnext : (s.maxPosition.map (· + 1)).getD 0 = s.reading.length := by
    rw [h.maxPosition]
    split
    · next hzero => simp [hzero]
    · next hzero =>
      show s.reading.length - 1 + 1 = _
      omega
  rw [Action.writes, if_neg hany, hnext]

theorem Sequence.GapFree.add (h : s.GapFree) (hpk : s.nextPk ≤ pk) (hg : g ∉ s.reading.map Prod.snd)
    (hn : s.reading.length ≤ positionMax) :
    ∃ s', transact s (addEntry pk g) = .ok s' ∧
      Lists s' (positioned (s.reading ++ [(pk, g)])) := by
  have hp : ∀ f ∈ positioned s.reading, f.2.position ≠ s.reading.length := by
    intro f hf
    have hmem : f.2.position ∈ (positioned s.reading).map (·.2.position) :=
      List.mem_map.mpr ⟨f, hf, rfl⟩
    rw [positioned_position, List.mem_range] at hmem
    omega
  have hgroup : ∀ f ∈ positioned s.reading, f.2.group ≠ g := by
    rintro f hf rfl
    have hmem : (f.1, f.2.group) ∈ (positioned s.reading).map fun e => (e.1, e.2.group) :=
      List.mem_map.mpr ⟨f, hf, rfl⟩
    rw [positioned_groups] at hmem
    exact hg (List.mem_map.mpr ⟨_, hmem, rfl⟩)
  obtain ⟨s', hstore, hlists⟩ := h.lists.insert (e := ⟨g, s.reading.length⟩) hpk hn hp hgroup
  refine ⟨s', ?_, ?_⟩
  · simp [transact, addEntry, h.add_writes hg, writeAll, write, Nat.not_lt.mpr hpk, hstore]
  · simpa [positioned, List.zipIdx_append] using hlists

/-- A sequence that is full refuses one more entry. -/
theorem Sequence.GapFree.add_full (h : s.GapFree) (hpk : s.nextPk ≤ pk)
    (hg : g ∉ s.reading.map Prod.snd) (hn : positionMax < s.reading.length) :
    transact s (addEntry pk g) = .error .range := by
  have hstore : s.store pk ⟨g, s.reading.length⟩ = .error .range := by
    rw [Sequence.store, dif_neg (Nat.not_le.mpr hn)]
  simp [transact, addEntry, h.add_writes hg, writeAll, write, Nat.not_lt.mpr hpk, hstore]

theorem remove_ok (s : Sequence) (pk : Pk) :
    ∃ s', transact s (removeEntry pk) = .ok s' ∧
      Lists s' (positioned (s.reading.filter fun e => e.1 ≠ pk)) := by
  have hreading : (s.delete pk).reading = s.reading.filter fun e => e.1 ≠ pk := by
    have hordered : (s.delete pk).ordered = s.ordered.filter fun e => e.1 ≠ pk :=
      ((lists_ordered s).delete pk).ordered_eq ((ordered_pairwise s).filter _)
    rw [Sequence.reading, hordered, Sequence.reading, List.filter_map]
    rfl
  obtain ⟨ws₁, s₁, hws₁, hrun₁, hlists₁⟩ := renumber_ok (s.delete pk)
  obtain ⟨ws₂, s₂, hws₂, hrun₂, hlists₂⟩ := renumber_ok s₁
  have hdelete : (Action.delete pk).writes s = .ok [.delete pk] := rfl
  refine ⟨s₂, ?_, ?_⟩
  · simp [transact, removeEntry, hdelete, writeAll, write, hws₁, hrun₁, hws₂, hrun₂]
  · rw [hlists₁.gapFree.2, hreading] at hlists₂
    exact hlists₂

/-- Both phases on a gap-free sequence. -/
theorem Sequence.GapFree.twoPhase (h : s.GapFree) (hrows : rows.Perm s.pks)
    (horder : order.Perm s.pks) (hn : 2 * s.reading.length ≤ positionMax) :
    ∃ s', writeAll s (Rollouts.twoPhase s (s.reading.length + 1) rows order) = .ok s' ∧
      Lists s' (positioned (order.map s.element)) := by
  have hlength := h.length_order horder
  refine twoPhase_ok hrows horder (fun k hk => ?_) (by omega) fun k hk => ?_
  · have := h.position_lt hk
    omega
  · have := h.position_lt hk
    omega

theorem movedOrder_eq (hmem : (pk, g) ∈ s.reading) (position : Int) :
    (movedOrder s pk position).Perm s.pks ∧ (movedOrder s pk position).map s.element =
      (s.reading.filter fun e => e.1 ≠ pk).insertIdx
        (Nat.min position.toNat (s.reading.length - 1)) (pk, g) := by
  have hothers : (s.ordered.map Prod.fst).filter (fun k => k ≠ pk) =
      (s.reading.filter fun e => e.1 ≠ pk).map Prod.fst := by
    simp [Sequence.reading, List.filter_map, Function.comp_def]
  have hnodup : (s.reading.map Prod.fst).Nodup := (reading_pks s).nodup_iff.mpr s.entries.nodup
  have hin : pk ∈ s.reading.map Prod.fst := List.mem_map.mpr ⟨_, hmem, rfl⟩
  have herase : (s.reading.filter fun e => e.1 ≠ pk).map Prod.fst =
      (s.reading.map Prod.fst).erase pk := by
    rw [hnodup.erase_eq_filter, List.filter_map]
    congr 2
    funext e
    by_cases he : e.1 = pk <;> simp [he]
  have hperm : (pk :: (s.reading.filter fun e => e.1 ≠ pk).map Prod.fst).Perm s.pks := by
    rw [herase]
    exact (List.perm_cons_erase hin).symm.trans (reading_pks s)
  have hlength : ((s.reading.filter fun e => e.1 ≠ pk).map Prod.fst).length =
      s.reading.length - 1 := by
    rw [herase, List.length_erase_of_mem hin, List.length_map]
  have hle : Nat.min position.toNat (s.reading.length - 1) ≤
      ((s.reading.filter fun e => e.1 ≠ pk).map Prod.fst).length := by
    rw [hlength]
    exact Nat.min_le_right ..
  simp only [movedOrder, hothers, hlength]
  constructor
  · exact (List.perm_insertIdx _ _ hle).trans hperm
  · rw [List.map_insertIdx, map_element fun e he => (List.mem_filter.mp he).1]
    rw [element_of_mem hmem]

theorem Sequence.GapFree.move (h : s.GapFree) (hmem : (pk, g) ∈ s.reading) (position : Int)
    (hrows : rows.Perm s.pks) (hn : 2 * s.reading.length ≤ positionMax) :
    ∃ s', transact s (moveEntry pk position rows) = .ok s' ∧
      Lists s' (positioned ((s.reading.filter fun e => e.1 ≠ pk).insertIdx
        (Nat.min position.toNat (s.reading.length - 1)) (pk, g))) := by
  obtain ⟨hperm, helements⟩ := movedOrder_eq hmem position
  obtain ⟨s', hrun, hlists⟩ := h.twoPhase hrows hperm hn
  rw [helements] at hlists
  refine ⟨s', ?_, hlists⟩
  simp [transact, moveEntry, Action.writes, h.length, h.calcOffset, Nat.not_lt.mpr hn, hrun]

theorem Sequence.GapFree.reorder (h : s.GapFree) (hrows : rows.Perm s.pks)
    (horder : order.Perm s.pks) (hn : 2 * s.reading.length ≤ positionMax) :
    ∃ s', transact s (reorderEntries order rows) = .ok s' ∧
      Lists s' (positioned (order.map s.element)) := by
  obtain ⟨s', hrun, hlists⟩ := h.twoPhase hrows horder hn
  have hlength := h.length_order horder
  have hnodup : order.Nodup := horder.nodup_iff.mpr s.entries.nodup
  refine ⟨s', ?_, hlists⟩
  simp [transact, reorderEntries, Action.writes, hnodup, horder, h.calcOffset, hlength,
    Nat.not_lt.mpr hn, hrun]

/-- A sequence that is too large is not reordered. -/
theorem Sequence.GapFree.move_tooLarge (h : s.GapFree) (hn : positionMax < 2 * s.reading.length)
    (pk : Pk) (position : Int) (rows : List Pk) :
    transact s (moveEntry pk position rows) = .error .tooLarge := by
  simp [transact, moveEntry, Action.writes, h.length, h.calcOffset, hn]

theorem reorder_mismatch (h : ¬ order.Perm s.pks) (rows : List Pk) :
    transact s (reorderEntries order rows) = .error .mismatch := by
  simp [transact, reorderEntries, Action.writes, h]

theorem Sequence.GapFree.reorder_tooLarge (h : s.GapFree) (horder : order.Perm s.pks)
    (hn : positionMax < 2 * s.reading.length) (rows : List Pk) :
    transact s (reorderEntries order rows) = .error .tooLarge := by
  have hlength := h.length_order horder
  have hnodup : order.Nodup := horder.nodup_iff.mpr s.entries.nodup
  simp [transact, reorderEntries, Action.writes, hnodup, horder, h.calcOffset, hlength, hn]

end gapFree

/-! ## the refinement -/

/-- The transaction commits, and the sequence is the given list without gaps. -/
def Completes (s : Sequence) (actions : List Action) (l : List (Pk × Pk)) : Prop :=
  ∃ s', transact s actions = .ok s' ∧ atomic s actions = s' ∧ s'.GapFree ∧ s'.reading = l

/-- The transaction fails and leaves the sequence as it was. -/
def Refused (s : Sequence) (actions : List Action) : Prop :=
  (∃ f, transact s actions = .error f) ∧ atomic s actions = s

theorem completes_of_lists {s s' : Sequence} {actions : List Action} {l : List (Pk × Pk)}
    (h : transact s actions = .ok s') (hlists : Lists s' (positioned l)) : Completes s actions l :=
  ⟨s', h, by rw [atomic, h], hlists.gapFree.1, hlists.gapFree.2⟩

theorem refused_of_error {s : Sequence} {actions : List Action} {f : Failure}
    (h : transact s actions = .error f) : Refused s actions :=
  ⟨⟨f, h⟩, by rw [atomic, h]⟩

/-- **The operations are list operations.**  On a gap-free sequence of any length `add_entry`
appends, or does nothing if the group is there; `remove_entry` deletes; `move_entry` takes the
entry out and inserts it at the clamped position; the reorder view makes the requested
permutation.  A transaction that completes has had every save accepted, so that no save on the
way made two equal positions or one out of range, in whichever order the rows were written; and
one that does not (no room above the last position, no room for the offset, not a permutation)
changes nothing. -/
theorem sequence_refines_list (s : Sequence) (h : s.GapFree) : (∀ pk g, s.nextPk ≤ pk →
      (g ∈ s.reading.map Prod.snd → Completes s (addEntry pk g) s.reading) ∧
      (g ∉ s.reading.map Prod.snd → s.reading.length ≤ positionMax →
        Completes s (addEntry pk g) (s.reading ++ [(pk, g)])) ∧
      (g ∉ s.reading.map Prod.snd → positionMax < s.reading.length → Refused s (addEntry pk g))) ∧
    (∀ pk, Completes s (removeEntry pk) (s.reading.filter fun e => e.1 ≠ pk)) ∧
    (∀ pk g position rows, (pk, g) ∈ s.reading → rows.Perm s.pks →
      (2 * s.reading.length ≤ positionMax → Completes s (moveEntry pk position rows)
        ((s.reading.filter fun e => e.1 ≠ pk).insertIdx
          (Nat.min position.toNat (s.reading.length - 1)) (pk, g))) ∧
      (positionMax < 2 * s.reading.length → Refused s (moveEntry pk position rows))) ∧
    ∀ order rows, rows.Perm s.pks → (order.Perm s.pks → 2 * s.reading.length ≤ positionMax →
        Completes s (reorderEntries order rows) (order.map s.element)) ∧
      (¬ order.Perm s.pks ∨ positionMax < 2 * s.reading.length →
        Refused s (reorderEntries order rows)) := by
  refine ⟨fun pk g hpk => ⟨fun hg => ?_, fun hg hn => ?_, fun hg hn => ?_⟩, fun pk => ?_,
    fun pk g position rows hmem hrows => ⟨fun hn => ?_, fun hn => ?_⟩,
    fun order rows hrows => ⟨fun horder hn => ?_, fun hbad => ?_⟩⟩
  · exact completes_of_lists (add_present hg) h.lists
  · obtain ⟨s', hok, hlists⟩ := h.add hpk hg hn
    exact completes_of_lists hok hlists
  · exact refused_of_error (h.add_full hpk hg hn)
  · obtain ⟨s', hok, hlists⟩ := remove_ok s pk
    exact completes_of_lists hok hlists
  · obtain ⟨s', hok, hlists⟩ := h.move hmem position hrows hn
    exact completes_of_lists hok hlists
  · exact refused_of_error (h.move_tooLarge hn pk position rows)
  · obtain ⟨s', hok, hlists⟩ := h.reorder hrows horder hn
    exact completes_of_lists hok hlists
  · by_cases horder : order.Perm s.pks
    · have hn := hbad.resolve_left (not_not_intro horder)
      exact refused_of_error (h.reorder_tooLarge horder hn rows)
    · exact refused_of_error (reorder_mismatch horder rows)

namespace Sample

def empty : Sequence where
  entries := .empty
  nextPk := 0
  bounded := by simp [Table.get?, Table.empty]
  positions := by simp [Table.get?, Table.empty]
  groups := by simp [Table.get?, Table.empty]
  used := by simp [Table.get?, Table.empty]

/-- Groups 10, 11 and 12 at the positions 0, 1 and 2. -/
def three : Sequence :=
  atomic (atomic (atomic empty (addEntry 0 10)) (addEntry 1 11)) (addEntry 2 12)

end Sample

/-- Group 12 moves to the front. -/
theorem sequence_refines_list_front :
    Completes Sample.three (moveEntry 2 (-5) [1, 0, 2]) [(2, 12), (0, 10), (1, 11)] := by
  have hmove := (sequence_refines_list Sample.three (by decide +kernel)).2.2.1 2 12 (-5) [1, 0, 2]
    (by decide +kernel) (by decide +kernel)
  have hlist : ((Sample.three.reading.filter fun e => e.1 ≠ 2).insertIdx
      (Nat.min (-5 : Int).toNat (Sample.three.reading.length - 1)) (2, 12)) =
      [(2, 12), (0, 10), (1, 11)] := by decide +kernel
  rw [← hlist]
  exact hmove.1 (by decide +kernel)

end StationManager.Rollouts
