import StationManager.Audio.Gate
import StationManager.Control.Lock

/-!
# StationManager.Control.Keying

Who can key the transmitter.  The handlers of `ControlConsumer` check the lock
in one await, relay the command in another and record it in the audio gate in
a third; the handlers that take the lock away change the row first and clean up
afterwards.  A handler is modelled as the list of its awaits, any number of
handlers run interleaved, and the answers of the permission layer, of the drain
evaluation and of the clock are choices of the environment.

`Entry` notes every effect with the holder of the lock at that moment.  A lock
operation that falls between a keying handler's lock check and its last effect
lets a user key who has lost control (`keyed_after_preempt`).  Without such a
step every `ptt true` that is relayed or recorded was issued by the holder.
-/

namespace StationManager.Control.Keying

open Firmware
open Audio (AudioGate)

/-! ## effects -/

structure User where
  id : Pk
  username : String
deriving DecidableEq, Repr

/-- Frames relayed to the agent. -/
inductive AgentFrame
  | command (c : Command)
  | pttKeepalive
  /-- `apply_preset`, `scan_start` or `scan_control` -/
  | operate (type : String)
deriving DecidableEq, Repr

/-- One await of a handler that is past its checks. -/
inductive Effect
  | relay (frame : AgentFrame)
  | audit (event message : String)
  | error (code message : String)
  | forbidden
  | setPtt (slot : Option Slot) (module : String)
  | refreshPtt
  | clearPtt
  | setTxRoute (slot : Option Slot) (module : String)
  | clearTxRoute
  | stopScan (reason : String) (unlessUser : Option Pk)
  | bridgeGate
  | broadcastLock
  | sendLockStatus
  | controlRequested
  | agentOffline
deriving DecidableEq, Repr

/-- The effect relays or records a `ptt true`. -/
def Effect.keys : Effect → Bool
  | .relay (.command c) => c.keys
  | .setPtt .. => true
  | _ => false

/-- Whose handler runs: that of a user's connection, or one of the server's
own tasks. -/
inductive Issuer
  | user (u : User)
  | server
deriving DecidableEq, Repr

/-- The issuer is the user who holds the lock. -/
def Issuer.isHolder (holder : Option Pk) : Issuer → Bool
  | .user u => holder = some u.id
  | .server => false

/-- An effect, who issued it, and the holder of the lock at that moment. -/
structure Entry where
  issuer : Issuer
  effect : Effect
  holder : Option Pk
deriving DecidableEq, Repr

/-- What the handlers of one station share. -/
structure Desk where
  lock : ControlLock
  gate : AudioGate
  log : List Entry

/-- Seconds and time spans of the settings. -/
structure Settings where
  tIdleSeconds : Nat := 300
  reconnectGraceSeconds : Nat := 12
  audioPttTtl : Time := 3000000

def Desk.perform (cfg : Settings) (s : Desk) (now : Time) (issuer : Issuer) (f : Effect) :
    Desk where
  lock := s.lock
  gate := match f with
    | .setPtt slot module => s.gate.setPtt now cfg.audioPttTtl slot module
    | .refreshPtt => s.gate.refreshPtt now cfg.audioPttTtl
    | .clearPtt => s.gate.clearPtt
    | .setTxRoute slot module => s.gate.setTxRoute slot module
    | .clearTxRoute => s.gate.clearTxRoute
    | _ => s.gate
  log := s.log ++ [⟨issuer, f, s.lock.holder⟩]

/-! ## handlers -/

/-- Browser frames that touch the lock. -/
inductive Message
  | command (c : Command)
  | pttKeepalive
  | operate (type : String)
  | lockAcquire
  | lockRelease
  | lockRequest
  | lockTransfer (toUser : Option Pk)
  | lockPreempt

/-- Frames that re-check `control.use` first. -/
def Message.checksUse : Message → Bool
  | .lockRelease | .lockPreempt => false
  | _ => true

/-- What starts a handler: a browser frame, a connection that opens or closes,
a permission re-check that failed, a sweep of the lock, the end of the agent's
connection. -/
inductive Request
  | receive (user : User) (m : Message)
  | connect (user : User)
  | revoke (user : User)
  | disconnect (user : User)
  | sweep
  | agentDisconnect

/-- Why a handler runs a lock operation. -/
inductive Origin
  | command (user : User) (c : Command)
  | keepalive (user : User)
  | operate (user : User) (type : String)
  | acquire (user : User)
  | release (user : User)
  | revoke (user : User)
  | request (user : User)
  | transfer (user : User) (toUser : Pk)
  | preempt (user : User)
  | reconnected (user : User)
  | disconnected (user : User)
  | sweep
  | agentDisconnect

/-- The answers a step gets: the time, and whether the query it makes (a
permission, the drain, a running scan) says yes. -/
structure Answer where
  now : Time
  yes : Bool
  verb : String := ""

/-- The lock operation.  A transfer looks its target up inside the
transaction, a sweep asks whether a scan is running. -/
def Origin.op (cfg : Settings) (yes : Bool) : Origin → LockOp
  | .command user _ | .keepalive user | .operate user _ => .touch user.id
  | .acquire user => .acquire user.id
  | .release user | .revoke user => .release user.id
  | .request user => .requestControl user.id
  | .transfer user toUser => .transfer user.id toUser yes
  | .preempt user => .preempt user.id
  | .reconnected user => .holderReconnected user.id
  | .disconnected user => .holderDisconnected user.id cfg.reconnectGraceSeconds
  | .sweep => .sweep cfg.tIdleSeconds yes
  | .agentDisconnect => .forceFree

/-- Where a handler stands: its next await. -/
inductive Handler
  | permission (user : User) (m : Message)
  | canUse (user : User)
  | canOverride (user : User)
  | drain (o : Origin)
  | lock (o : Origin) (draining : Bool)
  | authorize (user : User) (c : Command)
  | effects (issuer : Issuer) (todo : List Effect)

/-- The audio side of a command. -/
def audioEffects (c : Command) : List Effect :=
  if c.capability = "ptt" then
    (if c.value.truthy then [.setPtt c.slot c.module] else [.clearPtt]) ++ [.bridgeGate]
  else if c.capability = "tx_route" then
    match c.value with
    | .dict slot module _ => [.setTxRoute slot module, .bridgeGate]
    | .null => [.clearTxRoute, .bridgeGate]
    | _ => []
  else []

/-- `_handle_command` once the command is allowed. -/
def commandEffects (user : User) (c : Command) : List Effect :=
  let event := if c.capability = "ptt" then "control_ptt" else "control_command"
  [.relay (.command c), .audit event (user.username ++ " " ++ c.op ++ " " ++ c.capability)] ++
    audioEffects c

/-- Bound a field before it reaches the audit log. -/
def clip (s : String) : String := String.ofList (s.toList.take 64)

/-- `_handle_command` for a command that is refused. -/
def deniedEffects (user : User) (c : Command) (verb : String) : List Effect :=
  [.audit "control_command" (user.username ++ " " ++ clip c.op ++ " " ++ clip c.capability ++
      " on " ++ clip (slotText c.slot) ++ "/" ++ clip c.module ++
      " denied (requires control." ++ verb ++ ")"),
    .forbidden]

def notLocked : Effect := .error "not_locked" "You do not hold the lock"

def drainRefusal : Effect :=
  .error "firmware_update_pending"
    ("Firmware-Update ausstehend — neue Steuerung ist gesperrt, bis das Update " ++
      "abgeschlossen ist.")

/-- What a handler does after its lock operation has answered. -/
def Origin.follow (reply : Reply) : Origin → Handler
  | .command user c => if reply = .yes then .authorize user c else .effects (.user user) [notLocked]
  | .keepalive user => .effects (.user user) <|
      if reply = .yes then [.relay .pttKeepalive, .refreshPtt, .bridgeGate] else [notLocked]
  | .operate user type => .effects (.user user) <|
      if reply = .yes then [.relay (.operate type)] else [notLocked]
  | .acquire user => .effects (.user user) <|
      (if reply = .yes then
        [.audit "control_lock_acquired" (user.username ++ " acquired control")]
      else []) ++
      (if reply = .drainRefused then [drainRefusal] else []) ++ [.broadcastLock]
  | .release user => .effects (.user user) <|
      (if reply = .yes then
        [.audit "control_lock_released" (user.username ++ " released control"),
          .stopScan "lock released" none, .clearPtt, .bridgeGate]
      else []) ++ [.broadcastLock]
  | .revoke user => .effects (.user user) <|
      if reply = .yes then
        [.audit "control_lock_released" (user.username ++ " lost control (requires control.use)"),
          .stopScan "lock released" none, .clearPtt, .clearTxRoute, .bridgeGate, .broadcastLock]
      else []
  | .request user => .effects (.user user) <|
      if reply = .drainRefused then [drainRefusal]
      else if reply = .held then [.controlRequested]
      else []
  | .transfer user toUser => .effects (.user user) <|
      (if reply = .yes then
        [.audit "control_lock_transferred" (user.username ++ " -> user " ++ toString toUser),
          .stopScan "lock transferred" none, .clearPtt, .bridgeGate]
      else []) ++
      (if reply = .drainRefused then [drainRefusal] else []) ++ [.broadcastLock]
  | .preempt user => .effects (.user user) <|
      if reply = .drainRefused then [drainRefusal, .sendLockStatus]
      else
        [.audit "control_lock_preempted" (user.username ++ " preempted control"),
          .stopScan "lock preempted" (some user.id), .clearPtt, .bridgeGate, .broadcastLock]
  | .reconnected user | .disconnected user => .effects (.user user) []
  | .sweep => .effects .server <|
      if reply = .yes then [.stopScan "lock expired" none, .clearPtt, .bridgeGate, .broadcastLock]
      else []
  | .agentDisconnect => .effects .server <|
      if reply = .yes then [.clearPtt, .bridgeGate, .agentOffline, .broadcastLock]
      else [.agentOffline]

/-- The handler of a frame that may proceed. -/
def Message.proceed (user : User) : Message → Handler
  | .command c => .lock (.command user c) false
  | .pttKeepalive => .lock (.keepalive user) false
  | .operate type => .lock (.operate user type) false
  | .lockAcquire => .drain (.acquire user)
  | .lockRelease => .lock (.release user) false
  | .lockRequest => .drain (.request user)
  | .lockTransfer (some toUser) => .drain (.transfer user toUser)
  | .lockTransfer none => .effects (.user user) [.broadcastLock]
  | .lockPreempt => .canOverride user

def start (_ : Desk) : Request → Option Handler
  | .receive user m => some (if m.checksUse then .permission user m else m.proceed user)
  | .connect user => some (.canUse user)
  | .revoke user => some (.lock (.revoke user) false)
  | .disconnect user => some (.lock (.disconnected user) false)
  | .sweep => some (.lock .sweep false)
  | .agentDisconnect => some (.lock .agentDisconnect false)

section Steps

variable (cfg : Settings)

/-- One await of a handler. -/
def act (_ : Nat) (s : Desk) (h : Handler) (a : Answer) : Option (Desk × Option Handler) :=
  match h with
  | .permission user m =>
    if a.yes then some (s, some (m.proceed user))
    else some (s.perform cfg a.now (.user user) .forbidden, some (.lock (.revoke user) false))
  | .canUse user => some (s, some (.lock (if a.yes then .reconnected user else .revoke user) false))
  | .canOverride user =>
    some (s, some (if a.yes then .drain (.preempt user) else .effects (.user user) [.forbidden]))
  | .drain o => some (s, some (.lock o a.yes))
  | .lock o draining =>
    let (lock, reply) := (o.op cfg a.yes).apply a.now draining s.lock
    some ({ s with lock }, some (o.follow reply))
  | .authorize user c =>
    some (s, some (.effects (.user user)
      (if c.op = "get" ∨ a.yes then commandEffects user c else deniedEffects user c a.verb)))
  | .effects issuer (f :: todo) => some (s.perform cfg a.now issuer f, some (.effects issuer todo))
  | .effects _ [] => some (s, none)

/-- The station's handlers, interleaved. -/
def deskStep : Pool Desk Handler → Sched Request Answer → Option (Pool Desk Handler) :=
  Pool.step start (act cfg)

/-- Who will key: the command of the handler keys and is past its lock check. -/
def Handler.keyer : Handler → Option Issuer
  | .authorize user c => if c.keys then some (.user user) else none
  | .effects issuer todo => if todo.any Effect.keys then some issuer else none
  | _ => none

/-- The step takes the lock from its holder while another handler of that user
is between its lock check and its last keying effect. -/
def dispossesses (c : Pool Desk Handler) : Sched Request Answer → Bool
  | .spawn _ _ => false
  | .advance i a => match c.procs.get? i with
      | some (.lock o draining) =>
        ((o.op cfg a.yes).apply a.now draining c.shared.lock).1.holder ≠ c.shared.lock.holder &&
          c.procs.entries.any fun e =>
            e.1 ≠ i && e.2.keyer.any fun issuer => issuer.isHolder c.shared.lock.holder
      | _ => false

end Steps

/-! ## who will key -/

theorem commandEffects_keys (user : User) (c : Command) :
    (commandEffects user c).any Effect.keys = c.keys := by
  simp only [commandEffects, audioEffects, Command.keys]
  by_cases hptt : c.capability = "ptt"
  · by_cases hvalue : c.value.truthy <;> simp [hptt, hvalue, Effect.keys, Command.keys]
  · simp only [hptt, if_false, decide_false, Bool.false_and]
    split
    · split <;> simp [Effect.keys, Command.keys, hptt]
    · simp [Effect.keys, Command.keys, hptt]

@[simp] theorem proceed_keyer (user : User) (m : Message) : (m.proceed user).keyer = none := by
  cases m with
  | lockTransfer toUser => cases toUser <;> rfl
  | _ => rfl

/-- Only a command that passed its lock check goes on to key. -/
theorem follow_keyer {o : Origin} {reply : Reply} {issuer : Issuer}
    (h : (o.follow reply).keyer = some issuer) :
    ∃ user c, o = .command user c ∧ reply = .yes ∧ issuer = .user user := by
  cases o with
  | command user c =>
    simp only [Origin.follow] at h
    split at h
    · next hyes =>
      simp only [Handler.keyer] at h
      split at h
      · cases h
        exact ⟨user, c, rfl, hyes, rfl⟩
      · cases h
    · cases h
  | _ => cases reply <;> cases h

theorem touch_holder {user : Pk} {now : Time} {lock : ControlLock}
    (h : (touch user now lock).2 = .yes) : (touch user now lock).1.holder = some user := by
  unfold touch at h ⊢
  split at h
  · next hholder =>
    rw [if_pos hholder]
    exact hholder
  · cases h

/-- What an await does: a lock operation, an effect, or a query that changes
nothing and makes nobody key who was not going to. -/
inductive Acted (cfg : Settings) (s s' : Desk) (h : Handler) (a : Answer) :
    Option Handler → Prop
  | lock (o : Origin) (draining : Bool) : h = .lock o draining →
      s'.lock = ((o.op cfg a.yes).apply a.now draining s.lock).1 → s'.log = s.log →
      Acted cfg s s' h a (some (o.follow ((o.op cfg a.yes).apply a.now draining s.lock).2))
  | effect (issuer : Issuer) (f : Effect) (todo : List Effect) : h = .effects issuer (f :: todo) →
      s'.lock = s.lock → s'.log = s.log ++ [⟨issuer, f, s.lock.holder⟩] →
      Acted cfg s s' h a (some (.effects issuer todo))
  | query (q : Option Handler) : s'.lock = s.lock →
      (∀ e ∈ s'.log, e ∈ s.log ∨ e.effect.keys = false) →
      (∀ p issuer, q = some p → p.keyer = some issuer → h.keyer = some issuer) →
      Acted cfg s s' h a q

variable {a : Answer} {s s' : Desk} {i : Nat} {q : Option Handler} {cfg : Settings}

theorem Acted.of_same {h p : Handler} (hp : ∀ issuer, p.keyer = some issuer → h.keyer = some issuer) :
    Acted cfg s s h a (some p) := by
  refine .query _ rfl (fun e he => .inl he) ?_
  intro p' issuer hp'
  cases hp'
  exact hp issuer

theorem acted_of_act {h : Handler} (hact : act cfg i s h a = some (s', q)) :
    Acted cfg s s' h a q := by
  cases h with
  | permission user m =>
    simp only [act] at hact
    split at hact
    · cases hact
      exact .of_same fun issuer hk => by rw [proceed_keyer] at hk; cases hk
    · cases hact
      refine .query _ rfl ?_ ?_
      · intro e he
        simp only [Desk.perform, List.mem_append, List.mem_singleton] at he
        exact he.imp_right fun heq => by rw [heq]; rfl
      · intro p issuer hp hk
        cases hp
        cases hk
  | canUse user =>
    cases hact
    exact .of_same fun issuer hk => by cases hk
  | canOverride user =>
    cases hact
    refine .of_same fun issuer hk => ?_
    split at hk <;> cases hk
  | drain o =>
    cases hact
    exact .of_same fun issuer hk => by cases hk
  | lock o draining =>
    cases hact
    exact .lock o draining rfl rfl rfl
  | authorize user c =>
    cases hact
    refine .of_same fun issuer hk => ?_
    by_cases hallow : c.op = "get" ∨ a.yes = true
    · simpa only [if_pos hallow, Handler.keyer, commandEffects_keys] using hk
    · simp [if_neg hallow, Handler.keyer, deniedEffects, Effect.keys] at hk
  | effects issuer todo =>
    cases todo with
    | nil =>
      cases hact
      exact .query _ rfl (fun e he => .inl he) fun p issuer hp => by cases hp
    | cons f todo =>
      cases hact
      exact .effect issuer f todo rfl rfl rfl

/-! ## runs -/

/-- Whoever keyed held the lock. -/
def Desk.HolderKeys (s : Desk) : Prop :=
  ∀ e ∈ s.log, e.effect.keys = true → e.issuer.isHolder e.holder = true

/-- Whoever will key holds the lock. -/
def MayKey (_ : Nat) (h : Handler) (s : Desk) : Prop :=
  ∀ issuer, h.keyer = some issuer → issuer.isHolder s.lock.holder = true

/-- An await keeps its own handler's assertion and the log. -/
theorem acted_own {h : Handler} (hs : s.HolderKeys) (hmay : MayKey i h s)
    (hacted : Acted cfg s s' h a q) : s'.HolderKeys ∧ ∀ p, q = some p → MayKey i p s' := by
  cases hacted with
  | lock o draining hlock hrow hlog =>
    refine ⟨by rw [Desk.HolderKeys, hlog]; exact hs, ?_⟩
    intro p hp issuer hk
    cases hp
    obtain ⟨user, c, rfl, hyes, rfl⟩ := follow_keyer hk
    rw [hrow]
    simp only [Issuer.isHolder, decide_eq_true_eq]
    exact touch_holder hyes
  | effect issuer f todo hh hrow hlog =>
    subst hh
    constructor
    · intro e he hkeys
      rw [hlog, List.mem_append, List.mem_singleton] at he
      obtain he | rfl := he
      · exact hs e he hkeys
      · refine hmay issuer ?_
        have hany : (f :: todo).any Effect.keys = true := by rw [List.any_cons, hkeys, Bool.true_or]
        rw [Handler.keyer, if_pos hany]
    · intro p hp issuer' hk
      cases hp
      rw [hrow]
      refine hmay issuer' ?_
      simp only [Handler.keyer] at hk ⊢
      split at hk
      · next hany =>
        rw [List.any_cons, hany, Bool.or_true]
        exact hk
      · cases hk
  | query _ hrow hlog hkeyer =>
    constructor
    · intro e he hkeys
      obtain hmem | hnot := hlog e he
      · exact hs e hmem hkeys
      · rw [hnot] at hkeys
        cases hkeys
    · intro p hp issuer hk
      rw [hrow]
      exact hmay issuer (hkeyer p issuer hp hk)

/-- An await that takes the lock from no keying handler keeps what the other
handlers rely on. -/
theorem acted_other {c : Pool Desk Handler} {j : Nat} {h h' : Handler}
    (hok : dispossesses cfg c (.advance i a) = false) (hi : c.procs.get? i = some h)
    (hacted : Acted cfg c.shared s' h a q) (hji : j ≠ i) (hj : c.procs.get? j = some h')
    (hmay : MayKey j h' c.shared) : MayKey j h' s' := by
  intro issuer hk
  have hholds := hmay issuer hk
  cases hacted with
  | lock o draining hlock hrow _ =>
    subst hlock
    simp only [dispossesses, hi, Bool.and_eq_false_iff, decide_eq_false_iff_not, not_not,
      List.any_eq_false] at hok
    rw [hrow]
    obtain hsame | hnone := hok
    · rw [hsame]
      exact hholds
    · have hentry := hnone (j, h') ((c.procs.mem_entries_iff j h').mpr hj)
      simp [hji, hk, hholds] at hentry
  | effect issuer' f todo _ hrow _ =>
    rw [hrow]
    exact hholds
  | query _ hrow _ _ =>
    rw [hrow]
    exact hholds

theorem start_keyer {r : Request} {h : Handler} (hstart : start s r = some h) : h.keyer = none := by
  cases r with
  | receive user m =>
    cases hstart
    split
    · rfl
    · exact proceed_keyer user m
  | _ =>
    cases hstart
    rfl

theorem step_holderKeys {c c' : Pool Desk Handler} {l : Sched Request Answer}
    (hc : c.Holds Desk.HolderKeys MayKey) (hok : dispossesses cfg c l = false)
    (hstep : deskStep cfg c l = some c') : c'.Holds Desk.HolderKeys MayKey := by
  refine Pool.invariant_step (fun c l => dispossesses cfg c l = false) ?_ ?_ ?_ hc hok hstep
  · intro c i r h _ _ hstart issuer hk
    rw [start_keyer hstart] at hk
    cases hk
  · intro c i h a s' q hc _ hi hact
    exact acted_own hc.1 (hc.2 i h hi) (acted_of_act hact)
  · intro c i h a s' q j h' hc hok hi hact hji hj
    exact acted_other hok hi (acted_of_act hact) hji hj (hc.2 j h' hj)

/-- **No keying after losing control.**  Start with no handler in progress and
an empty log, and let no lock operation take the lock from its holder while a
keying handler of that user is between its lock check and its last effect.
Then every `ptt true` that has been relayed to the agent or recorded in the
audio gate was issued by the user who held the lock at that moment. -/
theorem keyed_by_holder (cfg : Settings) (c₀ c : Pool Desk Handler) (hidle : c₀.Quiescent)
    (hlog : c₀.shared.log = [])
    (h : Reachable (deskStep cfg) (fun c l => dispossesses cfg c l = false) c₀ c)
    (e : Entry) (he : e ∈ c.shared.log) (hkeys : e.effect.keys = true) :
    ∃ user, e.issuer = .user user ∧ e.holder = some user.id := by
  have hinit : c₀.Holds Desk.HolderKeys MayKey := by
    constructor
    · intro e he
      rw [hlog] at he
      cases he
    · intro i h' hi
      rw [hidle.get?] at hi
      cases hi
  have hholds := h.invariant hinit fun c l c' hc hok hstep => step_holderKeys hc hok hstep
  have hissuer := hholds.1 e he hkeys
  cases hi : e.issuer with
  | user user =>
    rw [hi] at hissuer
    exact ⟨user, rfl, by simpa [Issuer.isHolder] using hissuer⟩
  | server =>
    rw [hi] at hissuer
    cases hissuer

/-! ## two users -/

namespace Sample

def anna : User := ⟨1, "anna"⟩

def bert : User := ⟨2, "bert"⟩

/-- The first user holds the lock. -/
def held : Pool Desk Handler := ⟨⟨grantTo 1 0, {}, []⟩, Table.empty⟩

def pttOn : Command := ⟨"do", "ptt", some (.str "slot0"), "fm1", .bool true⟩

def yes : Answer := ⟨5, true, ""⟩

def no : Answer := ⟨5, false, ""⟩

/-- The first user keys: permission and lock check. -/
def keying : List (Sched Request Answer) :=
  [.spawn 1 (.receive anna (.command pttOn)), .advance 1 yes, .advance 1 yes]

/-- The capability check, the relay, the audit and the record in the gate. -/
def keyed : List (Sched Request Answer) :=
  [.advance 1 yes, .advance 1 yes, .advance 1 yes, .advance 1 yes]

/-- The second user preempts, up to the cleared PTT. -/
def preempting : List (Sched Request Answer) :=
  [.spawn 2 (.receive bert .lockPreempt), .advance 2 yes, .advance 2 no, .advance 2 yes,
    .advance 2 yes, .advance 2 yes, .advance 2 yes]

/-- The two keying effects of the first user, under a holder. -/
def keyings (holder : Pk) : List Entry :=
  [⟨.user anna, .relay (.command pttOn), some holder⟩,
    ⟨.user anna, .setPtt (some (.str "slot0")) "fm1", some holder⟩]

/-- Keying effects with their holder, the holder now, and the gate. -/
def overview (c : Pool Desk Handler) : List Entry × Option Pk × Bool :=
  (c.shared.log.filter (·.effect.keys), c.shared.lock.holder, c.shared.gate.pttActive)

theorem mem_log_of_overview {c : Pool Desk Handler} {es : List Entry} {r : Option Pk × Bool}
    (h : overview c = (es, r)) {e : Entry} (he : e ∈ es) : e ∈ c.shared.log := by
  have hfilter : c.shared.log.filter (·.effect.keys) = es := congrArg Prod.fst h
  rw [← hfilter] at he
  exact (List.mem_filter.mp he).1

end Sample

theorem keyed_by_holder_sample : ∃ c,
    Reachable (deskStep {}) (fun c l => dispossesses {} c l = false) Sample.held c ∧
    c.shared.lock.holder = some 2 ∧ c.shared.gate.pttActive = false ∧
    ∃ e ∈ c.shared.log, e.effect = .relay (.command Sample.pttOn) ∧
      ∃ user, e.issuer = .user user ∧ e.holder = some user.id := by
  obtain ⟨c, hreach, heq⟩ := exists_avoiding (deskStep {}) (dispossesses {}) Sample.held
    (Sample.keying ++ Sample.keyed ++ Sample.preempting)
    (P := fun c => Sample.overview c = (Sample.keyings 1, some 2, false)) (by decide)
  have hmem := Sample.mem_log_of_overview heq List.mem_cons_self
  exact ⟨c, hreach, congrArg (·.2.1) heq, congrArg (·.2.2) heq, _, hmem, rfl,
    keyed_by_holder {} Sample.held c rfl rfl hreach _ hmem (by decide)⟩

/-- The preemption falls between the first user's lock check and relay: the
command is relayed and recorded while the second user holds the lock, and the
station is left keyed. -/
theorem keyed_after_preempt : ∃ c, Reachable (deskStep {}) (fun _ _ => True) Sample.held c ∧
    ⟨.user Sample.anna, .relay (.command Sample.pttOn), some 2⟩ ∈ c.shared.log ∧
    ⟨.user Sample.anna, .setPtt (some (.str "slot0")) "fm1", some 2⟩ ∈ c.shared.log ∧
    c.shared.lock.holder = some 2 ∧ c.shared.gate.pttActive = true := by
  obtain ⟨c, hreach, heq⟩ := exists_reachable (deskStep {}) Sample.held
    (Sample.keying ++ Sample.preempting ++ Sample.keyed)
    (P := fun c => Sample.overview c = (Sample.keyings 2, some 2, true)) (by decide)
  exact ⟨c, hreach, Sample.mem_log_of_overview heq List.mem_cons_self,
    Sample.mem_log_of_overview heq (List.mem_cons_of_mem _ List.mem_cons_self),
    congrArg (·.2.1) heq, congrArg (·.2.2) heq⟩

end StationManager.Control.Keying
