import Mathlib.Data.List.TakeDrop
import StationManager.Agent.Descriptor

/-!
# StationManager.Agent.SlotControl

The transport that puts one command on a slot's serial line.  It is the trust
boundary of the device: whatever the layers above send, identifier, capability
and token are matched against character classes before they are joined to a
line.  The device may take a line in pieces, or stop taking it.
-/

namespace StationManager.Agent.SlotControl

/-! ## patterns -/

/-- What an anchored pattern sees of a text: its `$` also matches before a final
newline. -/
def beforeNewline (s : String) : List Char :=
  if s.toList.getLast? = some '\n' then s.toList.dropLast else s.toList

def idChar (c : Char) : Bool := c.isAlphanum || c ∈ ['_', '.', '-']

/-- `_MODULE_ID_RE.match` -/
def isModuleId (s : String) : Bool :=
  let body := beforeNewline s
  body ≠ [] && body.length ≤ 32 && body.all idChar

/-! ## device -/

/-- What one attempt to write comes to; after a busy device the loop waits until
it is writable or the deadline passes. -/
inductive WriteOutcome
  | wrote (n : Nat)
  | busy (writable : Bool)
  | failed
deriving DecidableEq, Repr

/-- `_write_all`: the bytes that reach the device, and whether these are all. -/
def writeAll : List WriteOutcome → List UInt8 → List UInt8 × Bool
  | _, [] => ([], true)
  | [], _ => ([], false)
  | .wrote n :: os, data => (writeAll os (data.drop n)).map (data.take n ++ ·) id
  | .busy true :: os, data => writeAll os data
  | _ :: _, _ => ([], false)

/-- Replies of the transport; `device` is a parsed result of the firmware. -/
inductive Reply
  | badValue
  | updating
  | timeout
  | device (text : String)
deriving DecidableEq, Repr

/-- How the device behaves during a call: whether its lock is had in time, the
slot was paused meanwhile, it opens, what the writes come to, and its answer. -/
structure Device where
  locked : Bool := true
  paused : Bool := false
  opens : Bool := true
  writes : List WriteOutcome
  answer : Option String := none

/-- The bytes of a text whose characters are all ASCII. -/
def encode (s : List Char) : List UInt8 := s.map fun c => UInt8.ofNat c.toNat

/-- The command without its line end. -/
def command (moduleId op cap : String) (token : Option String) : List Char :=
  [' '].intercalate (["module".toList, moduleId.toList, op.toList, cap.toList] ++
    (token.map String.toList).toList)

/-- The line as it is sent. -/
def line (moduleId op cap : String) (token : Option String) : List UInt8 :=
  encode (command moduleId op cap token ++ ['\r', '\n'])

/-- The checks before anything is joined to a line. -/
def accepts (moduleId op cap : String) (token : Option String) : Bool :=
  isModuleId moduleId && isModuleId cap && op ∈ ["set", "get", "do"] && token.all isToken

/-- What keeps a call from opening the device. -/
def Device.refusal (d : Device) : Option Reply :=
  if d.locked = false then some .timeout
  else if d.paused then some .updating
  else if d.opens = false then some .timeout
  else none

/-- `execute`: the reply and the bytes written. -/
def execute (d : Device) (moduleId op cap : String) (token : Option String) :
    Reply × List UInt8 :=
  if accepts moduleId op cap token then
    match d.refusal with
    | some reply => (reply, [])
    | none =>
      let sent := writeAll d.writes (line moduleId op cap token)
      (if sent.2 then d.answer.elim .timeout .device else .timeout, sent.1)
  else (.badValue, [])

/-! ## one line -/

/-- How many bytes the device takes before it stops. -/
def taken : List WriteOutcome → Nat
  | [] => 0
  | .wrote n :: os => n + taken os
  | .busy true :: os => taken os
  | _ :: _ => 0

theorem writeAll_eq_take (os : List WriteOutcome) (data : List UInt8) :
    (writeAll os data).1 = data.take (taken os) := by
  fun_induction writeAll os data with
  | case1 => simp
  | case2 => simp [taken]
  | case3 n os data hne ih =>
    rw [Prod.map_fst, ih, taken, List.take_add]
  | case4 os data hne ih => exact ih
  | case5 o os data hne hwrote hbusy =>
    cases o with
    | wrote n => exact absurd rfl (hwrote n)
    | busy writable =>
      cases writable with
      | false => simp [taken]
      | true => exact absurd rfl hbusy
    | failed => simp [taken]

/-- Characters that neither end a line nor separate words. -/
def isWordChar (c : Char) : Bool := 32 < c.toNat && c.toNat < 127

theorem isWordChar_of_isAlphanum {c : Char} (h : c.isAlphanum = true) : isWordChar c = true := by
  delta Char.isAlphanum Char.isAlpha Char.isUpper Char.isLower Char.isDigit at h
  simp only [Bool.or_eq_true, Bool.and_eq_true, decide_eq_true_eq, UInt32.le_iff_toNat_le] at h
  simp only [isWordChar, Bool.and_eq_true, decide_eq_true_eq]
  simp at h
  omega

theorem isWordChar_of_idChar {c : Char} (h : idChar c = true) : isWordChar c = true := by
  rcases Bool.or_eq_true_iff.mp h with h | h
  · exact isWordChar_of_isAlphanum h
  · revert h
    simp
    rintro (rfl | rfl | rfl) <;> rfl

theorem isWordChar_of_tokenChar {c : Char} (h : tokenChar c = true) : isWordChar c = true := by
  rcases Bool.or_eq_true_iff.mp h with h | h
  · exact isWordChar_of_isAlphanum h
  · revert h
    simp
    rintro (rfl | rfl | rfl | rfl | rfl | rfl) <;> rfl

/-- No newline at the end. -/
def unbroken (s : String) : Bool := s.toList.getLast? ≠ some '\n'

theorem word_of_isModuleId {s : String} (h : isModuleId s = true) (hs : unbroken s = true) :
    ∀ c ∈ s.toList, isWordChar c = true := by
  simp only [isModuleId, beforeNewline, if_neg (of_decide_eq_true hs), Bool.and_eq_true, List.all_eq_true] at h
  exact fun c hc => isWordChar_of_idChar (h.2 c hc)

theorem word_of_isToken {s : String} (h : isToken s = true) (hs : unbroken s = true) :
    ∀ c ∈ s.toList, isWordChar c = true := by
  simp only [isToken, if_neg (of_decide_eq_true hs), Bool.and_eq_true, List.all_eq_true] at h
  exact fun c hc => isWordChar_of_tokenChar (h.2 c hc)

/-- Words joined by single spaces. -/
theorem join_words {words : List (List Char)} (h : ∀ w ∈ words, ∀ c ∈ w, isWordChar c = true) :
    (∀ c ∈ [' '].intercalate words, c = ' ' ∨ isWordChar c = true) ∧
      ([' '].intercalate words).count ' ' = words.length - 1 := by
  have hnone : ∀ w ∈ words, w.count ' ' = 0 := fun w hw =>
    List.count_eq_zero.mpr fun hmem => by cases h w hw _ hmem
  induction words with
  | nil => simp
  | cons w words ih =>
    rw [List.forall_mem_cons] at h hnone
    obtain ⟨hchars, hcount⟩ := ih h.2 hnone.2
    cases words with
    | nil => simpa [hnone.1] using fun c hc => .inr (h.1 c hc)
    | cons w' words =>
      rw [List.intercalate_cons_cons]
      refine ⟨fun c hc => ?_, ?_⟩
      · simp only [List.mem_append, List.mem_singleton] at hc
        rcases hc with (hc | hc) | hc
        · exact .inr (h.1 c hc)
        · exact .inl hc
        · exact hchars c hc
      · rw [List.count_append, List.count_append, hnone.1, hcount]
        simp
        omega

/-- A line of words holds each of them. -/
theorem mem_join {words : List (List Char)} {w : List Char} {c : Char} (hw : w ∈ words)
    (hc : c ∈ w) : c ∈ [' '].intercalate words := by
  induction words with
  | nil => cases hw
  | cons w' words ih =>
    cases words with
    | nil =>
      cases List.mem_singleton.mp hw
      simpa using hc
    | cons w'' words =>
      rw [List.intercalate_cons_cons, List.mem_append]
      rcases List.mem_cons.mp hw with rfl | hw
      · exact .inl (List.mem_append_left _ hc)
      · exact .inr (ih hw)

/-- Neither the identifier nor the capability nor the token ends in a newline. -/
def unbrokenCall (moduleId cap : String) (token : Option String) : Bool :=
  unbroken moduleId && unbroken cap && token.all unbroken

variable {moduleId op cap : String} {token : Option String}

/-- The line holds no control character and only the separating spaces. -/
def CleanLine (moduleId op cap : String) (token : Option String) : Prop :=
  (∀ c ∈ command moduleId op cap token, c = ' ' ∨ isWordChar c = true) ∧
    (command moduleId op cap token).count ' ' = 3 + token.toList.length

theorem clean_of_unbroken (haccepts : accepts moduleId op cap token = true)
    (h : unbrokenCall moduleId cap token = true) : CleanLine moduleId op cap token := by
  simp only [accepts, Bool.and_eq_true, decide_eq_true_eq, Option.all_eq_true] at haccepts
  simp only [unbrokenCall, Bool.and_eq_true, Option.all_eq_true] at h
  obtain ⟨⟨⟨hm, hc⟩, hop⟩, ht⟩ := haccepts
  obtain ⟨⟨hid, hcap⟩, htoken⟩ := h
  have hop' : ∀ c ∈ op.toList, isWordChar c = true := by
    have hops : ["set", "get", "do"].all (·.toList.all isWordChar) = true := by decide
    exact List.all_eq_true.mp (List.all_eq_true.mp hops op hop)
  have hwords : ∀ w ∈ ["module".toList, moduleId.toList, op.toList, cap.toList] ++
      (token.map String.toList).toList, ∀ c ∈ w, isWordChar c = true := by
    have hmodule : "module".toList.all isWordChar = true := by decide
    intro w hw
    simp only [List.cons_append, List.nil_append, List.mem_cons, Option.mem_toList,
      Option.map_eq_some_iff] at hw
    rcases hw with rfl | rfl | rfl | rfl | ⟨t, ht', rfl⟩
    · exact List.all_eq_true.mp hmodule
    · exact word_of_isModuleId hm hid
    · exact hop'
    · exact word_of_isModuleId hc hcap
    · exact word_of_isToken (ht t ht') (htoken t ht')
  obtain ⟨hchars, hcount⟩ := join_words hwords
  refine ⟨hchars, hcount.trans ?_⟩
  cases token <;> rfl

/-- A newline at the end of a word is in the line. -/
theorem CleanLine.unbroken (h : CleanLine moduleId op cap token) :
    unbrokenCall moduleId cap token = true := by
  have hword : ∀ s : String, s.toList ∈ ["module".toList, moduleId.toList, op.toList, cap.toList] ++
      (token.map String.toList).toList → SlotControl.unbroken s = true := by
    intro s hs
    refine decide_eq_true fun hlast => ?_
    have hmem := mem_join hs (List.mem_of_getLast? hlast)
    rcases h.1 _ hmem with hspace | hchar
    · cases hspace
    · cases hchar
  simp only [unbrokenCall, Bool.and_eq_true, Option.all_eq_true]
  refine ⟨⟨hword _ (by simp), hword _ (by simp)⟩, fun t ht => hword t ?_⟩
  simp [ht]

/-- The device is given the line, and takes something of it. -/
def Device.hears (d : Device) (moduleId op cap : String) (token : Option String) : Bool :=
  accepts moduleId op cap token && d.refusal = none && taken d.writes ≠ 0

/-- **One command, one line**: a call writes nothing, or one line with no control character and
only the separating spaces in it, exactly if a device that hears anything hears all of it, and
no word of the call ends in a newline. -/
theorem execute_one_line (d : Device) (moduleId op cap : String) (token : Option String) :
    ((execute d moduleId op cap token).2 = [] ∨
      (execute d moduleId op cap token).2 = line moduleId op cap token ∧
      (∀ c ∈ command moduleId op cap token, c = ' ' ∨ isWordChar c = true) ∧
      (command moduleId op cap token).count ' ' = 3 + token.toList.length) ↔
    (d.hears moduleId op cap token = true → unbrokenCall moduleId cap token = true ∧
      (line moduleId op cap token).length ≤ taken d.writes) := by
  by_cases haccepts : accepts moduleId op cap token = true
  · cases hrefusal : d.refusal with
    | some reply => simp [execute, Device.hears, haccepts, hrefusal]
    | none =>
      have hwritten : (execute d moduleId op cap token).2 =
          (line moduleId op cap token).take (taken d.writes) := by
        simp [execute, haccepts, hrefusal, writeAll_eq_take]
      have hline : line moduleId op cap token ≠ [] := by simp [line, encode]
      have hhears : d.hears moduleId op cap token = true ↔ taken d.writes ≠ 0 := by
        simp [Device.hears, haccepts, hrefusal]
      rw [hwritten, hhears, List.take_eq_nil_iff, List.take_eq_self_iff]
      constructor
      · rintro ((hzero | hnil) | ⟨hall, hclean⟩) htaken
        · exact absurd hzero htaken
        · exact absurd hnil hline
        · exact ⟨CleanLine.unbroken hclean, hall⟩
      · intro h
        by_cases hzero : taken d.writes = 0
        · exact .inl (.inl hzero)
        · obtain ⟨hunbroken, hall⟩ := h hzero
          exact .inr ⟨hall, clean_of_unbroken haccepts hunbroken⟩
  · simp [execute, Device.hears, haccepts]

/-- A newline at the end of an identifier passes the pattern and ends the line
before the operation. -/
theorem newline_passes : (execute { writes := [.wrote 100] } "fm\n" "get" "rssi" none).2 =
    encode "module fm\n get rssi\r\n".toList := by
  decide

end StationManager.Agent.SlotControl
