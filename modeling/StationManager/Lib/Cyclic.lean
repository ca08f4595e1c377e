import Mathlib.Data.List.Chain
import Mathlib.Data.List.Nodup
import Mathlib.Data.List.Perm.Subperm

/-!
# StationManager.Lib.Cyclic

Walks around a circle of `n` places, newest first: every place is the one after
its predecessor, modulo `n`.  Any `n` places in a row are all the places, each
of them once.
-/

namespace StationManager

/-- Each place is on the circle and follows the one before it. -/
structure Cyclic (n : Nat) (walk : List Nat) : Prop where
  chain : walk.IsChain fun a b => a = (b + 1) % n
  bound : ∀ i ∈ walk, i < n

namespace Cyclic

variable {n : Nat} {walk : List Nat}

theorem nil : Cyclic n [] := ⟨.nil, nofun⟩

/-- One place further. -/
theorem cons {i : Nat} (h : Cyclic n walk) (hi : i < n)
    (hnext : ∀ j, walk.head? = some j → i = (j + 1) % n) : Cyclic n (i :: walk) where
  chain := h.chain.cons fun j hj => hnext j hj
  bound := by
    intro j hj
    obtain rfl | hj := List.mem_cons.mp hj
    · exact hi
    · exact h.bound j hj

theorem tail {a : Nat} (h : Cyclic n (a :: walk)) : Cyclic n walk where
  chain := h.chain.tail
  bound := fun i hi => h.bound i (List.mem_cons_of_mem a hi)

theorem window (h : Cyclic n walk) (k m : Nat) : Cyclic n ((walk.drop k).take m) where
  chain := (h.chain.drop k).take m
  bound := fun i hi => h.bound i (List.mem_of_mem_drop (List.mem_of_mem_take hi))

/-- Going back `j` places. -/
theorem head_eq {a j b : Nat} (h : Cyclic n (a :: walk)) (hb : (a :: walk)[j]? = some b) :
    a = (b + j) % n := by
  induction walk generalizing a j with
  | nil =>
    cases j with
    | zero =>
      cases hb
      exact (Nat.mod_eq_of_lt (h.bound _ List.mem_cons_self)).symm
    | succ j => cases hb
  | cons c walk ih =>
    cases j with
    | zero =>
      cases hb
      exact (Nat.mod_eq_of_lt (h.bound _ List.mem_cons_self)).symm
    | succ j =>
      have hac := (List.isChain_cons_cons.mp h.chain).1
      have hcb : c = (b + j) % n := ih h.tail hb
      rw [hac, hcb, Nat.mod_add_mod, Nat.add_assoc]

/-- A walk of at most one round visits no place twice. -/
theorem nodup (h : Cyclic n walk) (hlen : walk.length ≤ n) : walk.Nodup := by
  induction walk with
  | nil => exact List.nodup_nil
  | cons a walk ih =>
    have hlen' : walk.length < n := hlen
    refine List.nodup_cons.mpr ⟨?_, ih h.tail (Nat.le_of_lt hlen')⟩
    intro hmem
    obtain ⟨j, hj⟩ := List.mem_iff_getElem?.mp hmem
    have hback := h.head_eq (j := j + 1) hj
    have hjlen := (List.getElem?_eq_some_iff.mp hj).1
    have ha := h.bound a List.mem_cons_self
    by_cases hwrap : a + (j + 1) < n
    · rw [Nat.mod_eq_of_lt hwrap] at hback
      omega
    · rw [Nat.mod_eq_sub_mod (by omega), Nat.mod_eq_of_lt (by omega)] at hback
      omega

/-- **A round visits every place once.** -/
theorem count_eq_one (h : Cyclic n walk) (hlen : walk.length = n) {i : Nat} (hi : i < n) :
    walk.count i = 1 := by
  have hnodup := h.nodup (Nat.le_of_eq hlen)
  have hsub : walk ⊆ List.range n := fun j hj => List.mem_range.mpr (h.bound j hj)
  have hperm : walk.Perm (List.range n) := by
    apply (hnodup.subperm hsub).perm_of_length_le
    rw [List.length_range, hlen]
  rw [hperm.count_eq]
  exact List.count_eq_one_of_mem List.nodup_range (List.mem_range.mpr hi)

end Cyclic

end StationManager
