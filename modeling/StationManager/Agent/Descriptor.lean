import Mathlib.Algebra.Group.Nat.Defs
import StationManager.Control.Capabilities

/-!
# StationManager.Agent.Descriptor

The agent checks every command against the descriptor that the module itself
has sent, before anything reaches the firmware: the capability exists, its kind
admits the operation, the value has the type and lies in a range.  A value that
passes is turned into the one token of the firmware command.
-/

namespace StationManager.Agent

open Control (Scalar PyFloat)

/-- JSON values; the code does not look into lists and objects. -/
inductive Json
  | null
  | scalar (v : Scalar)
  | other
deriving DecidableEq

/-- Error codes of the protocol; `device` passes a firmware error on. -/
inductive Code
  | validationFailed
  | unknownSlot
  | unknownModule
  | unknownCapability
  | wrongOp
  | readOnly
  | outOfRange
  | badValue
  | timeout
  | updating
  | pttActive
  | device (text : String)
deriving DecidableEq, Repr

/-- Code and text of an error. -/
abbrev Failure := Code × String

/-- What a check raises: a `ProtocolError`, or an exception that nothing there catches. -/
inductive Raised
  | protocol (e : Failure)
  | uncaught
deriving DecidableEq

/-- A bound of a range; what is there but is no number cannot be compared. -/
inductive Bound
  | missing
  | number (x : PyFloat)
  | other
deriving DecidableEq

/-- Python's printing of values: `repr`, and a float without an exponent. -/
structure Texts where
  repr : Json → String
  decimal : PyFloat → String

/-- An entry of a module's `describe` output. -/
structure Capability where
  name : String
  kind : String
  type : String
  readonly : Bool := false
  values : List Scalar := []
  ranges : List (Bound × Bound) := []
deriving DecidableEq

/-- `index_capabilities` at one name: of several entries the last one counts. -/
def findCapability (caps : List Capability) (name : String) : Option Capability :=
  caps.reverse.find? (·.name = name)

/-- `_OPS_FOR_KIND` -/
def opsForKind (kind : String) : List String :=
  if kind = "setting" then ["set", "get"]
  else if kind = "action" then ["do", "get"]
  else if kind = "telemetry" then ["get"]
  else []

/-- Characters of a firmware token. -/
def tokenChar (c : Char) : Bool := c.isAlphanum || c ∈ ['-', '_', '.', ':', '+', '/']

/-- `TOKEN_RE.match`; the `$` of the pattern also matches before a final
newline. -/
def isToken (s : String) : Bool :=
  let body := if s.toList.getLast? = some '\n' then s.toList.dropLast else s.toList
  body ≠ [] && body.all tokenChar

section Checks

variable (texts : Texts)

/-- `lo <= value <= hi` of a range, with an infinity for a missing bound; `none` is the
`TypeError` of a bound that is no number.  The second comparison is made only if the first
holds. -/
def rangeHolds (r : Bound × Bound) (value : PyFloat) : Option Bool :=
  let below : Option Bool := match r.1 with
    | .missing => some (PyFloat.negInf.le value)
    | .number lo => some (lo.le value)
    | .other => none
  match below with
  | some true => match r.2 with
    | .missing => some (value.le .inf)
    | .number hi => some (value.le hi)
    | .other => none
  | answer => answer

/-- The loop over the ranges. -/
def inSomeRange (value : PyFloat) : List (Bound × Bound) → Option Bool
  | [] => some false
  | r :: ranges => match rangeHolds r value with
    | some false => inSomeRange value ranges
    | answer => answer

/-- `_check_range` -/
def checkRange (cap : Capability) (value : PyFloat) (text : String) : Except Raised Unit :=
  if cap.ranges = [] then .ok ()
  else match inSomeRange value cap.ranges with
    | some true => .ok ()
    | some false => .error (.protocol (.outOfRange, text ++ " outside all ranges"))
    | none => .error .uncaught

/-- Python's `float(n)`: the nearest double, at a tie the even one; `none` is its
`OverflowError`. -/
def toDouble? (n : Int) : Option Rat :=
  let shift := n.natAbs.log2 + 1 - 53
  let rest := 2 * (n.natAbs % 2 ^ shift)
  let mantissa := n.natAbs / 2 ^ shift
  let rounded := if 2 ^ shift < rest ∨ (2 ^ shift = rest ∧ mantissa % 2 = 1) then
    mantissa + 1 else mantissa
  if rounded.log2 + shift < 1024 then some ((n.sign * (rounded * 2 ^ shift : Nat) : Int) : Rat)
  else none

/-- A `ProtocolError` about the value. -/
def badValue (text : String) : Except Raised Unit := .error (.protocol (.badValue, text))

/-- `_check_value` -/
def checkValue (cap : Capability) (value : Json) : Except Raised Unit :=
  if cap.type = "bool" then match value with
    | .scalar (.bool _) => .ok ()
    | _ => badValue "expected bool"
  else if cap.type = "enum" then match value with
    | .scalar v => if cap.values.any v.equals then .ok ()
        else badValue (texts.repr value ++ " not an enum value")
    | _ => badValue (texts.repr value ++ " not an enum value")
  else if cap.type = "string" then match value with
    | .scalar (.str s) => if isToken s then .ok ()
        else badValue "string value is not a valid FW token"
    | _ => badValue "expected string"
  else if cap.type = "int" then match value with
    | .scalar (.int n) => checkRange cap (.finite n) (texts.repr value)
    | _ => badValue "expected int"
  else if cap.type = "float" then match value with
    | .scalar (.int n) => match toDouble? n with
      | some q => checkRange cap (.finite q) (texts.repr (.scalar (.float (.finite q))))
      | none => .error .uncaught
    | .scalar (.float x) => checkRange cap x (texts.repr value)
    | _ => badValue "expected number"
  else badValue ("unknown value type " ++ texts.repr (.scalar (.str cap.type)))

/-- `validate_command` -/
def validateCommand (cap : Option Capability) (op : String) (value : Json) :
    Except Raised Unit :=
  match cap with
  | none => .error (.protocol (.unknownCapability, "no such capability"))
  | some cap =>
    if (op = "set" ∨ op = "do") ∧ (cap.kind = "telemetry" ∨ cap.readonly = true) then
      .error (.protocol (.readOnly, cap.name ++ " is read-only"))
    else if op ∉ opsForKind cap.kind then
      .error (.protocol (.wrongOp, "op " ++ texts.repr (.scalar (.str op)) ++
        " not valid for kind " ++ texts.repr (.scalar (.str cap.kind))))
    else if op = "get" then
      if value = .null then .ok () else badValue "get takes no value"
    else if value = .null then badValue "value required"
    else checkValue texts cap value

/-- `format_value`: the firmware token of a value that passed the check. -/
def formatValue (type : String) (value : Json) : String :=
  match value with
  | .scalar (.bool b) =>
    if type = "bool" then (if b then "true" else "false")
    else if type = "int" then (if b then "1" else "0")
    else texts.repr value
  | .scalar (.int n) =>
    if type = "float" then texts.decimal (.finite ((toDouble? n).getD n))
    else if type = "bool" then (if n = 0 then "false" else "true")
    else toString n
  -- a float passes the check of a float setting or of an enumeration only
  | .scalar (.float x) => if type = "float" then texts.decimal x else texts.repr value
  | .scalar (.str s) => s
  | _ => texts.repr value

end Checks

/-- A write to a boolean capability that passes carries a boolean. -/
theorem bool_of_validateCommand {texts : Texts} {cap : Capability} {op : String} {value : Json}
    (h : validateCommand texts (some cap) op value = .ok ()) (hop : op ≠ "get")
    (htype : cap.type = "bool") : ∃ b, value = .scalar (.bool b) ∧
      formatValue texts cap.type value = if b then "true" else "false" := by
  simp only [validateCommand, if_neg hop, checkValue, if_pos htype] at h
  split at h
  · cases h
  · split at h
    · cases h
    · split at h
      · cases h
      · split at h
        · next b _ => exact ⟨b, rfl, by simp [formatValue, htype]⟩
        · cases h

end StationManager.Agent
