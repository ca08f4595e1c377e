/-!
# StationManager.Lib.Raising

Programs over a state that return, raise or do not end, and rules of pre- and
postconditions for them.  `wp x Q E s` says that if `x` ends from `s`, then `Q` holds
where it returns and `E` where it raises.
-/

namespace StationManager

universe u v w

/-- A program; `none` does not end. -/
def Prog (σ : Type u) (ε : Type v) (α : Type w) := σ → Option (Except ε α × σ)

/-- A database in an open transaction; an error of the database itself leaves it
to be rolled back. -/
structure Txn (σ : Type u) where
  data : σ
  needsRollback : Bool

/-- What is left of a transaction opened in `s` whose block ended without an exception. -/
def Txn.committed (t : Txn σ) (s : σ) : σ := if t.needsRollback then s else t.data

namespace Prog

variable {σ ε α β : Type} {s s' : σ}

/-- Run `f` on what `x` returned. -/
def andThen (x : Prog σ ε α) (f : α → Prog σ ε β) : Prog σ ε β := fun s =>
  match x s with
  | none => none
  | some (.error e, s') => some (.error e, s')
  | some (.ok a, s') => f a s'

instance : Monad (Prog σ ε) where
  pure a s := some (.ok a, s)
  bind := andThen

/-- Raise an exception. -/
def raise (e : ε) : Prog σ ε α := fun s => some (.error e, s)

/-- A program that does not end. -/
def diverge : Prog σ ε α := fun _ => none

/-- Change the state. -/
def change (f : σ → σ) : Prog σ ε Unit := fun s => some (.ok (), f s)

/-- An answer that depends on the state and changes it. -/
def answer (f : σ → Except ε α) (g : σ → σ) : Prog σ ε α := fun s => some (f s, g s)

/-- Look at the state. -/
def read (f : σ → α) : Prog σ ε α := answer (fun s => .ok (f s)) id

/-- `try: x except Exception as e: handler(e)` -/
def tryCatch (x : Prog σ ε α) (handler : ε → Prog σ ε α) : Prog σ ε α := fun s =>
  match x s with
  | none => none
  | some (.error e, s') => handler e s'
  | some (.ok a, s') => some (.ok a, s')

/-! ## transactions -/

/-- A database error. -/
def fail (e : ε) : Prog (Txn σ) ε α :=
  answer (fun _ => .error e) fun t => { t with needsRollback := true }

/-- Look at the data. -/
def query (f : σ → α) : Prog (Txn σ) ε α := read fun t => f t.data

/-- Change the data. -/
def update (f : σ → σ) : Prog (Txn σ) ε Unit := change fun t => { t with data := f t.data }

/-- A block whose changes are kept only if no exception leaves it and no database
error was raised inside it. -/
def atomic (x : Prog (Txn σ) ε α) : Prog σ ε α := fun s =>
  match x ⟨s, false⟩ with
  | none => none
  | some (.error e, _) => some (.error e, s)
  | some (.ok a, t) => some (.ok a, t.committed s)

/-! ## pre- and postconditions -/

/-- `Q` holds where a program returns, and `E` where it raises. -/
def wp (x : Prog σ ε α) (Q : α → σ → Prop) (E : ε → σ → Prop) (s : σ) : Prop :=
  ∀ s', (∀ a, x s = some (.ok a, s') → Q a s') ∧ ∀ e, x s = some (.error e, s') → E e s'

variable {x : Prog σ ε α} {Q Q' : α → σ → Prop} {E E' : ε → σ → Prop}

theorem wp_mono (h : wp x Q E s) (hq : ∀ a s', Q a s' → Q' a s') (he : ∀ e s', E e s' → E' e s') :
    wp x Q' E' s :=
  fun s' => ⟨fun a hx => hq a s' ((h s').1 a hx), fun e hx => he e s' ((h s').2 e hx)⟩

theorem wp_pure {a : α} (h : Q a s) : wp (pure a : Prog σ ε α) Q E s := by
  intro s'
  refine ⟨fun b hb => ?_, fun e he => ?_⟩
  · cases hb
    exact h
  · cases he

theorem wp_bind {f : α → Prog σ ε β} {Q : β → σ → Prop}
    (h : wp x (fun a s' => wp (f a) Q E s') E s) : wp (x >>= f) Q E s := by
  intro s''
  have hbind : (x >>= f) s = andThen x f s := rfl
  rw [hbind]
  cases hx : x s with
  | none => simp [andThen, hx]
  | some r =>
    obtain ⟨r, s'⟩ := r
    cases r with
    | error e =>
      simp only [andThen, hx, Option.some.injEq, Prod.mk.injEq, Except.error.injEq]
      refine ⟨fun _ h => (by cases h.1), ?_⟩
      rintro _ ⟨rfl, rfl⟩
      exact (h _).2 e hx
    | ok a =>
      have hrun : andThen x f s = f a s' := by simp [andThen, hx]
      rw [hrun]
      exact (h s').1 a hx s''

theorem wp_raise {e : ε} (h : E e s) : wp (raise e : Prog σ ε α) Q E s := by
  intro s'
  refine ⟨fun b hb => ?_, fun e he => ?_⟩
  · cases hb
  · cases he
    exact h

theorem wp_diverge : wp (diverge : Prog σ ε α) Q E s :=
  fun _ => ⟨fun _ h => (by cases h), fun _ h => (by cases h)⟩

theorem wp_change {f : σ → σ} {Q : Unit → σ → Prop} (h : Q () (f s)) :
    wp (change f : Prog σ ε Unit) Q E s := by
  intro s'
  refine ⟨fun _ hb => ?_, fun e he => ?_⟩
  · cases hb
    exact h
  · cases he

theorem wp_answer {f : σ → Except ε α} {g : σ → σ} (hq : ∀ a, f s = .ok a → Q a (g s))
    (he : ∀ e, f s = .error e → E e (g s)) : wp (answer f g) Q E s := by
  intro s'
  refine ⟨fun a ha => ?_, fun e hr => ?_⟩
  · simp only [answer, Option.some.injEq, Prod.mk.injEq] at ha
    exact ha.2 ▸ hq a ha.1
  · simp only [answer, Option.some.injEq, Prod.mk.injEq] at hr
    exact hr.2 ▸ he e hr.1

theorem wp_read {f : σ → α} (h : Q (f s) s) : wp (read f : Prog σ ε α) Q E s := by
  refine wp_answer (fun a ha => ?_) fun e he => ?_
  · cases ha
    exact h
  · cases he

theorem wp_tryCatch {handler : ε → Prog σ ε α}
    (h : wp x Q (fun e s' => wp (handler e) Q E s') s) : wp (tryCatch x handler) Q E s := by
  intro s''
  cases hx : x s with
  | none => simp [tryCatch, hx]
  | some r =>
    obtain ⟨r, s'⟩ := r
    cases r with
    | error e =>
      have hrun : tryCatch x handler s = handler e s' := by simp [tryCatch, hx]
      rw [hrun]
      exact (h s').2 e hx s''
    | ok a =>
      simp only [tryCatch, hx, Option.some.injEq, Prod.mk.injEq, Except.ok.injEq]
      refine ⟨?_, fun _ h => (by cases h.1)⟩
      rintro _ ⟨rfl, rfl⟩
      exact (h _).1 a hx

theorem wp_atomic {x : Prog (Txn σ) ε α}
    (h : wp x (fun a t => Q a (t.committed s)) (fun e _ => E e s) ⟨s, false⟩) :
    wp (atomic x) Q E s := by
  intro s'
  cases hx : x ⟨s, false⟩ with
  | none => simp [atomic, hx]
  | some r =>
    obtain ⟨r, t⟩ := r
    cases r with
    | error e =>
      simp only [atomic, hx, Option.some.injEq, Prod.mk.injEq, Except.error.injEq]
      refine ⟨fun _ h => (by cases h.1), ?_⟩
      rintro _ ⟨rfl, rfl⟩
      exact (h t).2 e hx
    | ok a =>
      simp only [atomic, hx, Option.some.injEq, Prod.mk.injEq, Except.ok.injEq]
      refine ⟨?_, fun _ h => (by cases h.1)⟩
      rintro _ ⟨rfl, rfl⟩
      exact (h t).1 a hx

theorem wp_ite {c : Prop} [Decidable c] {y : Prog σ ε α} (hx : c → wp x Q E s)
    (hy : ¬ c → wp y Q E s) : wp (if c then x else y) Q E s := by
  by_cases hc : c
  · simpa [hc] using hx hc
  · simpa [hc] using hy hc

/-! ## programs that end -/

/-- The program returns or raises from every state. -/
def Ends (x : Prog σ ε α) : Prop := ∀ s, (x s).isSome = true

theorem Ends.pure (a : α) : Ends (Pure.pure a : Prog σ ε α) := fun _ => rfl

theorem Ends.raise (e : ε) : Ends (raise e : Prog σ ε α) := fun _ => rfl

theorem Ends.answer (f : σ → Except ε α) (g : σ → σ) : Ends (answer f g) := fun _ => rfl

theorem Ends.change (f : σ → σ) : Ends (change f : Prog σ ε Unit) := fun _ => rfl

theorem Ends.bind {f : α → Prog σ ε β} (hx : Ends x) (hf : ∀ a, Ends (f a)) : Ends (x >>= f) := by
  intro s
  have hbind : (x >>= f) s = andThen x f s := rfl
  obtain ⟨⟨r, s'⟩, hr⟩ := Option.isSome_iff_exists.mp (hx s)
  cases r with
  | error e => simp [hbind, andThen, hr]
  | ok a => simpa [hbind, andThen, hr] using hf a s'

theorem Ends.tryCatch {handler : ε → Prog σ ε α} (hx : Ends x) (hh : ∀ e, Ends (handler e)) :
    Ends (tryCatch x handler) := by
  intro s
  obtain ⟨⟨r, s'⟩, hr⟩ := Option.isSome_iff_exists.mp (hx s)
  cases r with
  | error e => simpa [Prog.tryCatch, hr] using hh e s'
  | ok a => simp [Prog.tryCatch, hr]

theorem Ends.atomic {x : Prog (Txn σ) ε α} (hx : Ends x) : Ends (atomic x) := by
  intro s
  obtain ⟨⟨r, t⟩, hr⟩ := Option.isSome_iff_exists.mp (hx ⟨s, false⟩)
  cases r <;> simp [Prog.atomic, hr]

theorem Ends.ite {c : Prop} [Decidable c] {y : Prog σ ε α} (hx : Ends x) (hy : Ends y) :
    Ends (if c then x else y) := by
  by_cases hc : c
  · simpa [hc] using hx
  · simpa [hc] using hy

/-- A program that ends has an outcome, which meets its postconditions. -/
theorem Ends.outcome (hx : Ends x) (h : wp x Q E s) : ∃ r s', x s = some (r, s') ∧
    (∀ a, r = .ok a → Q a s') ∧ ∀ e, r = .error e → E e s' := by
  obtain ⟨⟨r, s'⟩, hr⟩ := Option.isSome_iff_exists.mp (hx s)
  refine ⟨r, s', hr, ?_, ?_⟩
  · rintro a rfl
    exact (h s').1 a hr
  · rintro e rfl
    exact (h s').2 e hr

/-! ## counted effects

`R n s s'` says that something was done `n` times between two states.  A program
`Does` it `n` times if it does so where it returns, and not at all where it
raises; one that `Surely` does it does not raise. -/

/-- Effects that add up. -/
structure Graded (R : Nat → σ → σ → Prop) : Prop where
  refl : ∀ s, R 0 s s
  trans : ∀ {a b s s' s''}, R a s s' → R b s' s'' → R (a + b) s s''

/-- `n` times where the program returns, not at all where it raises. -/
def Does (R : Nat → σ → σ → Prop) (n : Nat) (x : Prog σ ε α) : Prop :=
  ∀ s, wp x (fun _ s' => R n s s') (fun _ s' => R 0 s s') s

/-- `n` times, and the program does not raise. -/
def Surely (R : Nat → σ → σ → Prop) (n : Nat) (x : Prog σ ε α) : Prop :=
  ∀ s, wp x (fun _ s' => R n s s') (fun _ _ => False) s

section Graded

variable {R : Nat → σ → σ → Prop} {m n : Nat} {f : α → Prog σ ε β}

theorem Surely.does (h : Surely R n x) : Does R n x :=
  fun s => wp_mono (h s) (fun _ _ hq => hq) fun _ _ he => he.elim

theorem Does.mono {R' : Nat → σ → σ → Prop} (h : Does R n x)
    (hR : ∀ {n s s'}, R n s s' → R' n s s') : Does R' n x :=
  fun s => wp_mono (h s) (fun _ _ => hR) fun _ _ => hR

theorem Surely.mono {R' : Nat → σ → σ → Prop} (h : Surely R n x)
    (hR : ∀ {n s s'}, R n s s' → R' n s s') : Surely R' n x :=
  fun s => wp_mono (h s) (fun _ _ => hR) fun _ _ => id

theorem Surely.pure (hR : Graded R) (a : α) : Surely R 0 (pure a : Prog σ ε α) :=
  fun s => wp_pure (hR.refl s)

theorem Does.raise (hR : Graded R) (e : ε) : Does R n (raise e : Prog σ ε α) :=
  fun s => wp_raise (hR.refl s)

theorem Surely.bind (hR : Graded R) (hx : Surely R m x) (hf : ∀ a, Surely R n (f a)) :
    Surely R (m + n) (x >>= f) := by
  intro s
  refine wp_bind (wp_mono (hx s) (fun a s' hs => ?_) fun _ _ he => he)
  exact wp_mono (hf a s') (fun _ _ hs' => hR.trans hs hs') fun _ _ he => he

/-- Nothing before, then `n` times. -/
theorem Does.bind (hR : Graded R) (hx : Does R 0 x) (hf : ∀ a, Does R n (f a)) :
    Does R n (x >>= f) := by
  intro s
  refine wp_bind (wp_mono (hx s) (fun a s' hs => ?_) fun _ _ he => he)
  refine wp_mono (hf a s') (fun _ _ hs' => ?_) fun _ _ he => ?_
  · exact Nat.zero_add n ▸ hR.trans hs hs'
  · exact hR.trans hs he

/-- `n` times, then nothing. -/
theorem Surely.bind_pure (hR : Graded R) (hx : Surely R n x) (g : α → β) :
    Surely R n (x >>= fun a => (Pure.pure (g a) : Prog σ ε β)) :=
  hx.bind hR fun a => Surely.pure hR (g a)

/-- What a raised exception has left undone, the handler does. -/
theorem Does.tryCatch (hR : Graded R) {handler : ε → Prog σ ε α} (hx : Does R n x)
    (hh : ∀ e, Surely R n (handler e)) : Surely R n (tryCatch x handler) := by
  intro s
  refine wp_tryCatch (wp_mono (hx s) (fun _ _ hs => hs) fun e s' hs => ?_)
  exact wp_mono (hh e s') (fun _ _ hs' => Nat.zero_add n ▸ hR.trans hs hs') fun _ _ he => he

theorem Does.ite {c : Prop} [Decidable c] {y : Prog σ ε α} (hx : Does R n x) (hy : Does R n y) :
    Does R n (if c then x else y) := by
  by_cases hc : c
  · rw [if_pos hc]
    exact hx
  · rw [if_neg hc]
    exact hy

end Graded

end Prog
end StationManager
