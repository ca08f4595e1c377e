import StationManager.Control.Lock
import StationManager.Firmware.Rows

/-!
# StationManager.Control.IdleGate

The idle gate of the reconcile check against control grants, as an
interleaving of their database steps.  A check reads the gate, lists the
station's assignments, reconciles one module after the other, marks the chosen
row and answers; a grant evaluates the drain and then locks the lock row.
Everything else the server does is one step of its own.

Neither side holds a lock across its two reads, so a grant can fall between
the gate and the answer (`instruction_while_held`).  Without such a grant no
check answers with an instruction while the station's control is held.
-/

namespace StationManager.Control

open Firmware

/-! ## processes -/

/-- Requests that start a process. -/
inductive Request
  | check (station : Pk)
  | lock (station : Pk) (scope : String) (op : LockOp)
  | other (op : Op)

/-- Where a process stands: its next database step. -/
inductive Proc
  | gate (station : Pk) (st : Station)
  | list (station : Pk) (st : Station)
  | loop (station : Pk) (st : Station) (todo : List (Uid × Assignment)) (c : Candidates)
  | respond (station : Pk) (response : Response)
  | drain (station : Pk) (scope : String) (op : LockOp)
  | lockRow (station : Pk) (scope : String) (op : LockOp) (draining : Bool)
  | other (op : Op)

/-- Lock rows are only written by lock operations. -/
def keepsLocks : Op → Bool
  | .setLocks _ => false
  | _ => true

/-- Authentication loads the station of a check; a lock operation evaluates
the drain first if it can refuse for it. -/
def start (db : Db) : Request → Option Proc
  | .check station => (db.stations.get? station).map (.gate station)
  | .lock station scope op =>
    if op.evaluatesDrain then some (.drain station scope op)
    else some (.lockRow station scope op false)
  | .other op => some (.other op)

/-- One database step of a process, at the time `now`. -/
def act (_ : Nat) (db : Db) (p : Proc) (now : Time) : Option (Db × Option Proc) :=
  match p with
  | .gate station st =>
    if db.lockHeld station then some (db, some (.respond station .noContent))
    else some (db, some (.list station st))
  | .list station st => some (db, some (.loop station st (db.openAssignments station) {}))
  | .loop station st (a :: todo) c =>
    let r := Db.checkModule now (moduleOtaBackends st) (db, c) a
    some (r.1, some (.loop station st todo r.2))
  | .loop station _ [] c =>
    let r := db.answer now station c
    some (r.1, some (.respond station r.2))
  | .respond _ _ => some (db, none)
  | .drain station scope op =>
    some (db, some (.lockRow station scope op (isDraining db now station)))
  | .lockRow station scope op draining => some (applyLock db now station scope op draining, none)
  | .other op => if keepsLocks op then (db.step op).map fun db' => (db', none) else none

/-- The server: any number of processes over one database. -/
def serverStep : Pool Db Proc → Sched Request Time → Option (Pool Db Proc) := Pool.step start act

/-- No check is about to answer with an instruction while a lock of its
station is held. -/
def Safe (c : Pool Db Proc) : Prop :=
  ∀ i station ins, c.procs.get? i = some (.respond station (.instruction ins)) →
    c.shared.lockHeld station = false

/-- A check of the station that has passed the idle gate and may still answer
with an instruction. -/
def Proc.pastGate (station : Pk) : Proc → Bool
  | .list s _ | .loop s _ _ _ | .respond s (.instruction _) => s = station
  | _ => false

/-- The step gives a free lock of a station to a user while a check of that
station is between its gate and its answer. -/
def overtakes (c : Pool Db Proc) : Sched Request Time → Bool
  | .spawn _ _ => false
  | .advance i now => match c.procs.get? i with
      | some (.lockRow station scope op draining) =>
        grantsFree c.shared now station scope op draining ∧
          c.procs.entries.any fun e => e.2.pastGate station
      | _ => false

/-! ## firmware operations leave the locks alone -/

variable {db' : Db} {i : Nat} {p q : Proc}

theorem step_locks {db : Db} {op : Op} (h : db.step op = some db') (hk : keepsLocks op = true) :
    db'.locks = db.locks := by
  refine (step_moved h fun locks hop => ?_).locks
  rw [hop] at hk
  cases hk

/-! ## safety without overtaking grants -/

/-- What holds for a check past its gate: no lock of its station is held. -/
def GateHolds (_ : Nat) (p : Proc) (db : Db) : Prop :=
  ∀ station, p.pastGate station = true → db.lockHeld station = false

theorem lockHeld_of_locks {db : Db} (h : db'.locks = db.locks) (station : Pk) :
    db'.lockHeld station = db.lockHeld station := by
  unfold Db.lockHeld
  rw [h]

/-- What a database step does to the lock rows: a lock operation runs on its
row, anything else leaves them alone. -/
theorem act_locks {db : Db} {p' : Option Proc} {now : Time} (h : act i db p now = some (db', p')) :
    (∃ station scope op draining, p = .lockRow station scope op draining ∧
      db' = applyLock db now station scope op draining) ∨ db'.locks = db.locks := by
  cases p with
  | gate s st =>
    simp only [act] at h
    split at h <;> cases h <;> exact .inr rfl
  | list s st =>
    cases h
    exact .inr rfl
  | loop s st todo c =>
    cases todo with
    | nil =>
      cases h
      exact .inr (answer_frame db now s c).locks
    | cons a todo =>
      cases h
      exact .inr (reconcileModule_frame db now a.1).locks
  | respond s r =>
    cases h
    exact .inr rfl
  | drain s scope op =>
    cases h
    exact .inr rfl
  | lockRow s scope op draining =>
    cases h
    exact .inl ⟨s, scope, op, draining, rfl, rfl⟩
  | other op =>
    simp only [act] at h
    split at h
    · next hkeeps =>
      obtain ⟨db₁, hstep, heq⟩ := Option.map_eq_some_iff.mp h
      cases heq
      exact .inr (step_locks hstep hkeeps)
    · cases h

/-- A check that is past its gate after a step was past it before, or has just
found the locks free. -/
theorem pastGate_own {db : Db} {now : Time} {station : Pk} (h : act i db p now = some (db', some q))
    (hq : q.pastGate station = true) : p.pastGate station = true ∨ db.lockHeld station = false := by
  cases p with
  | gate s st =>
    simp only [act] at h
    split at h
    · cases h
      cases hq
    · next hfree =>
      cases h
      have hs : s = station := of_decide_eq_true hq
      rw [← hs]
      exact .inr (Bool.eq_false_iff.mpr hfree)
  | list s st =>
    cases h
    exact .inl hq
  | loop s st todo c =>
    cases todo with
    | nil =>
      cases h
      generalize (db.answer now s c).2 = response at hq
      cases response with
      | instruction ins => exact .inl hq
      | ok => cases hq
      | noContent => cases hq
      | notFound => cases hq
      | conflict => cases hq
    | cons a todo =>
      cases h
      exact .inl hq
  | respond s r => cases h
  | drain s scope op =>
    cases h
    cases hq
  | lockRow s scope op draining => cases h
  | other op =>
    simp only [act] at h
    split at h
    · obtain ⟨_, _, heq⟩ := Option.map_eq_some_iff.mp h
      cases heq
    · cases h

/-- A process keeps its own assertion. -/
theorem gateHolds_own {db : Db} {now : Time} (hp : GateHolds i p db)
    (h : act i db p now = some (db', some q)) : GateHolds i q db' := by
  intro station hq
  have hfree : db.lockHeld station = false := (pastGate_own h hq).elim (hp station) id
  rcases act_locks h with ⟨s, scope, op, draining, rfl, _⟩ | hlocks
  · cases h
  · rw [lockHeld_of_locks hlocks]
    exact hfree

/-- A step keeps the assertion of a process other than the one that takes it,
unless it overtakes that process. -/
theorem gateHolds_other {c : Pool Db Proc} {j : Nat} {now : Time} {p' : Option Proc}
    (hok : overtakes c (.advance i now) = false) (hi : c.procs.get? i = some p)
    (h : act i c.shared p now = some (db', p')) (hj : c.procs.get? j = some q)
    (hq : GateHolds j q c.shared) : GateHolds j q db' := by
  intro station hpast
  have hfree := hq station hpast
  rcases act_locks h with ⟨s, scope, op, draining, rfl, rfl⟩ | hlocks
  · refine lockHeld_applyLock now scope op draining hfree ?_
    rintro rfl
    -- a grant of a free lock would overtake process `j`
    have hany : (c.procs.entries.any fun e => e.2.pastGate station) = true :=
      List.any_eq_true.mpr ⟨(j, q), (Table.mem_entries_iff _ _ _).mpr hj, hpast⟩
    simpa only [overtakes, hi, hany, and_true, decide_eq_false_iff_not, Bool.not_eq_true] using hok
  · rw [lockHeld_of_locks hlocks]
    exact hfree

/-- **No instruction while control is held**, in every run in which no free
lock is given out between the gate and the answer of a check of its
station. -/
theorem no_instruction_while_held (c₀ c : Pool Db Proc) (h₀ : c₀.procs = Table.empty)
    (h : Reachable serverStep (fun c l => overtakes c l = false) c₀ c) : Safe c := by
  have hinv : Pool.Holds (fun _ => True) GateHolds c := by
    refine h.invariant (P := Pool.Holds (fun _ => True) GateHolds) ⟨trivial, ?_⟩ ?_
    · intro i p hp
      rw [h₀] at hp
      cases hp
    · intro c l c' hc hok hstep
      refine Pool.invariant_step (fun c l => overtakes c l = false) ?_ ?_ ?_ hc hok hstep
      · intro c i r p _ _ hstart station hpast
        -- a new process is in front of its gate
        cases r with
        | check s =>
          obtain ⟨st, _, rfl⟩ := Option.map_eq_some_iff.mp hstart
          cases hpast
        | lock s scope op =>
          simp only [start] at hstart
          split at hstart <;> cases hstart <;> cases hpast
        | other op =>
          cases hstart
          cases hpast
      · intro c i p now db' p' hc _ hi hact
        refine ⟨trivial, ?_⟩
        rintro q rfl
        exact gateHolds_own (hc.2 i p hi) hact
      · intro c i p now db' p' j q hc hok hi hact _ hj
        exact gateHolds_other hok hi hact hj (hc.2 j q hj)
  intro i station ins hi
  exact hinv.2 i _ hi station (decide_eq_true rfl)

namespace Sample

/-- The sample fleet before any process. -/
def idle : Pool Db Proc :=
  ⟨Firmware.Sample.fleet Firmware.Sample.module Table.empty, Table.empty⟩

/-- A check of station 1 up to its answer. -/
def checkRun : List (Sched Request Time) :=
  [.spawn 0 (.check 1), .advance 0 1, .advance 0 2, .advance 0 3, .advance 0 4]

/-- The same check; user 7 evaluates the drain before the check has created
the row and is granted control before the check answers. -/
def overtakenRun : List (Sched Request Time) :=
  [.spawn 0 (.check 1), .spawn 1 (.lock 1 "station" (.acquire 7)), .advance 0 1, .advance 1 2,
    .advance 0 3, .advance 0 4, .advance 0 5, .advance 1 6]

/-- Process 0 is about to answer for station 1 with an instruction. -/
def instructs (c : Pool Db Proc) : Bool :=
  match c.procs.get? 0 with
  | some (.respond 1 (.instruction _)) => true
  | _ => false

theorem instructs_iff (c : Pool Db Proc) :
    instructs c = true ↔ ∃ ins, c.procs.get? 0 = some (.respond 1 (.instruction ins)) := by
  unfold instructs
  split <;> simp_all

end Sample

/-- The undisturbed check answers with an instruction, and no lock is held. -/
theorem no_instruction_while_held_checkRun :
    ∃ c, Reachable serverStep (fun c l => overtakes c l = false) Sample.idle c ∧
      Sample.instructs c = true ∧ Safe c := by
  obtain ⟨c, hreach, hins⟩ := exists_avoiding serverStep overtakes Sample.idle Sample.checkRun
    (P := fun c => Sample.instructs c = true) (by decide)
  exact ⟨c, hreach, hins, no_instruction_while_held Sample.idle c rfl hreach⟩

/-- A grant between the gate and the answer: the check answers with an
instruction while user 7 holds the lock. -/
theorem instruction_while_held :
    ∃ c, Reachable serverStep (fun _ _ => True) Sample.idle c ∧ ¬Safe c := by
  obtain ⟨c, hreach, hinstructs, hheld⟩ := exists_reachable serverStep Sample.idle
    Sample.overtakenRun (P := fun c => Sample.instructs c = true ∧ c.shared.lockHeld 1 = true)
    (by decide)
  refine ⟨c, hreach, fun hsafe => ?_⟩
  obtain ⟨ins, hins⟩ := (Sample.instructs_iff c).mp hinstructs
  have hfree := hsafe 0 1 ins hins
  rw [hheld] at hfree
  cases hfree

end StationManager.Control
