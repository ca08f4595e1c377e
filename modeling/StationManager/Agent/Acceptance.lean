import StationManager.Agent.Descriptor

/-!
# StationManager.Agent.Acceptance

Server and agent check a value against the same descriptor entry, each with its
own rules: the server reads `min` and `max` and takes every string, the agent
reads `ranges` and takes firmware tokens only.  A value that the server persists
is sent again later, so what the two rules have in common matters.
-/

namespace StationManager.Agent.Acceptance

open Control (Scalar PyFloat)

/-- A descriptor entry with the fields of both sides.  The server ignores a `min` or `max`
that is no number. -/
structure Entry where
  name : String
  kind : String
  type : String
  readonly : Bool := false
  min : Option PyFloat := none
  max : Option PyFloat := none
  values : Option (List Scalar) := none
  ranges : List (Bound × Bound) := []

namespace Entry

/-- What the server reads. -/
def cap (e : Entry) : Control.Cap := ⟨e.name, e.kind, e.type, e.readonly, e.min, e.max, e.values⟩

/-- What the agent reads. -/
def capability (e : Entry) : Capability :=
  ⟨e.name, e.kind, e.type, e.readonly, e.values.getD [], e.ranges⟩

@[simp] theorem capability_type (e : Entry) : e.capability.type = e.type := rfl

/-- A writable setting. -/
def settable (e : Entry) : Bool := e.kind = "setting" && !e.readonly

/-- `value_fits` of any JSON value: null, lists and objects fit nothing. -/
def fits (e : Entry) : Json → Bool
  | .scalar v => e.cap.valueFits v
  | _ => false

/-- Whether the agent lets a `set` pass. -/
def acceptsSet (e : Entry) (texts : Texts) (value : Json) : Bool :=
  (validateCommand texts (some e.capability) "set" value).isOk

/-- The agent's ranges admit a number: there are none, or one holds it and those before can be
compared with it. -/
def InRanges (e : Entry) (x : PyFloat) : Prop :=
  e.ranges = [] ∨ ∃ before r after, e.ranges = before ++ r :: after ∧
    rangeHolds r x = some true ∧ ∀ b ∈ before, rangeHolds b x ≠ none

/-- What the agent asks of a value beyond what the server has checked: a string is a firmware
token, and a number lies in the agent's ranges, for a float setting as a double. -/
def Admits (e : Entry) : Json → Prop
  | .scalar (.str s) => e.type = "string" → isToken s = true
  | .scalar (.int n) => (e.type = "int" → e.InRanges (.finite n)) ∧
      (e.type = "float" → ∃ q, toDouble? n = some q ∧ e.InRanges (.finite q))
  | .scalar (.float x) => e.type = "float" → e.InRanges x
  | _ => True

end Entry

/-- A `set` of a writable setting comes to the check of its value. -/
theorem acceptsSet_eq {texts : Texts} {e : Entry} (h : e.settable = true) (value : Scalar) :
    e.acceptsSet texts (.scalar value) =
      (checkValue texts e.capability (.scalar value)).isOk := by
  simp only [Entry.settable, Bool.and_eq_true, decide_eq_true_eq, Bool.not_eq_true'] at h
  have hkind : e.capability.kind = "setting" := h.1
  have hwritable : e.capability.readonly = false := h.2
  simp [Entry.acceptsSet, validateCommand, hkind, hwritable, opsForKind]

/-- The loop ends well at the first range that holds the number, if it gets there. -/
theorem inSomeRange_iff (x : PyFloat) (ranges : List (Bound × Bound)) :
    inSomeRange x ranges = some true ↔ ∃ before r after, ranges = before ++ r :: after ∧
      rangeHolds r x = some true ∧ ∀ b ∈ before, rangeHolds b x ≠ none := by
  induction ranges with
  | nil => simp [inSomeRange]
  | cons r ranges ih =>
    rw [inSomeRange]
    constructor
    · cases hr : rangeHolds r x with
      | none => simp
      | some holds =>
        cases holds with
        | true => exact fun _ => ⟨[], r, ranges, rfl, hr, by simp⟩
        | false =>
          intro h
          obtain ⟨before, r', after, rfl, hholds, hbefore⟩ := ih.mp h
          exact ⟨r :: before, r', after, rfl, hholds, by simpa [hr] using hbefore⟩
    · rintro ⟨before, r', after, heq, hholds, hbefore⟩
      cases before with
      | nil =>
        cases heq
        rw [hholds]
      | cons b before =>
        cases heq
        rw [List.forall_mem_cons] at hbefore
        cases hr : rangeHolds r x with
        | none => exact absurd hr hbefore.1
        | some holds =>
          cases holds with
          | true => rfl
          | false => exact ih.mpr ⟨before, r', after, rfl, hholds, hbefore.2⟩

theorem checkRange_iff (e : Entry) (x : PyFloat) (text : String) :
    (checkRange e.capability x text).isOk = true ↔ e.InRanges x := by
  have hranges : e.capability.ranges = e.ranges := rfl
  rw [checkRange, hranges, Entry.InRanges, ← inSomeRange_iff]
  split
  · next hempty => exact iff_of_true rfl (.inl hempty)
  · next hsome =>
    rw [or_iff_right hsome]
    split <;> simp_all [Except.isOk, Except.toBool]

/-- An enumeration is checked alike. -/
theorem checkValue_enum (texts : Texts) {e : Entry} {value : Scalar} (h : e.type = "enum")
    (hfits : e.cap.valueFits value = true) :
    checkValue texts e.capability (.scalar value) = .ok () := by
  cases hv : e.values with
  | none => simp [Control.Cap.valueFits, Entry.cap, h, hv] at hfits
  | some values =>
    simp only [Control.Cap.valueFits, Entry.cap, h, hv] at hfits
    simp at hfits
    simp [checkValue, Entry.capability, h, hv, hfits]

/-- **A value that the server persists is accepted by the agent exactly if the agent's own
rules admit it**: strings are tokens, and numbers lie in the ranges. -/
theorem persisted_accepted (texts : Texts) (e : Entry) (value : Json)
    (hset : e.settable = true) (hfits : e.fits value = true) :
    e.acceptsSet texts value = true ↔ e.Admits value := by
  cases value with
  | null => cases hfits
  | other => cases hfits
  | scalar value =>
    rw [acceptsSet_eq hset]
    have hfits' : e.cap.valueFits value = true := hfits
    by_cases henum : e.type = "enum"
    · rw [checkValue_enum texts henum hfits']
      exact iff_of_true rfl (by cases value <;> simp [Entry.Admits, henum])
    · cases value with
      | bool b =>
        have htype : e.type = "bool" := Decidable.byContradiction fun h => by
          simp [Control.Cap.valueFits, Entry.cap, henum, h] at hfits'
        exact iff_of_true (by simp [checkValue, htype, Except.isOk, Except.toBool]) trivial
      | str s =>
        have htype : e.type = "string" := Decidable.byContradiction fun h => by
          simp [Control.Cap.valueFits, Entry.cap, henum, h, Scalar.isBool] at hfits'
        by_cases htoken : isToken s = true
        · simp [checkValue, Entry.Admits, htype, htoken, Except.isOk, Except.toBool]
        · simp [checkValue, Entry.Admits, badValue, htype, htoken, Except.isOk, Except.toBool]
      | float x =>
        have htype : e.type = "float" := Decidable.byContradiction fun h => by
          simp [Control.Cap.valueFits, Entry.cap, henum, h, Scalar.isBool] at hfits'
        simp [checkValue, Entry.Admits, htype, checkRange_iff]
      | int n =>
        by_cases hfloat : e.type = "float"
        · cases hq : toDouble? n with
          | none => simp [checkValue, Entry.Admits, hfloat, hq, Except.isOk, Except.toBool]
          | some q => simp [checkValue, Entry.Admits, hfloat, hq, checkRange_iff]
        · have htype : e.type = "int" := Decidable.byContradiction fun h => by
            simp [Control.Cap.valueFits, Entry.cap, henum, h, hfloat, Scalar.isBool] at hfits'
          simp [checkValue, Entry.Admits, htype, checkRange_iff]

/-- The range from 0 to 8. -/
def upTo8 : Bound × Bound := (.number (.finite 0), .number (.finite 8))

/-- A volume that both sides allow. -/
def volume : Entry :=
  { name := "volume", kind := "setting", type := "int", min := some (.finite 0)
    max := some (.finite 8), ranges := [upTo8] }

/-- Texts of errors; nothing below depends on them. -/
def plain : Texts := ⟨fun _ => "", fun _ => ""⟩

theorem persisted_accepted_volume : volume.acceptsSet plain (.scalar (.int 5)) = true := by
  refine (persisted_accepted plain volume (.scalar (.int 5)) (by decide) (by decide)).mpr ?_
  exact ⟨fun _ => .inr ⟨[], upTo8, [], rfl, by decide, by simp⟩, fun h => absurd h (by decide)⟩

/-- The server persists a text with a blank and a number outside the agent's
ranges; the agent takes neither. -/
theorem persisted_refused :
    (let label : Entry := { name := "label", kind := "setting", type := "string" }
     label.fits (.scalar (.str "two words")) = true ∧
       label.acceptsSet plain (.scalar (.str "two words")) = false) ∧
    (let level : Entry :=
      { name := "level", kind := "setting", type := "int", ranges := [upTo8] }
     level.fits (.scalar (.int 9)) = true ∧
       level.acceptsSet plain (.scalar (.int 9)) = false) := by
  decide

end StationManager.Agent.Acceptance
