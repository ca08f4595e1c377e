/-!
# StationManager.Control.Capabilities

Capability descriptors, the values that fit them, and the policy that says who
may write a capability and which values the server persists.
-/

namespace StationManager.Control

/-! ## values -/

/-- A float of Python; a finite one is the number it stands for. -/
inductive PyFloat
  | nan
  | negInf
  | finite (q : Rat)
  | inf
deriving DecidableEq

namespace PyFloat

/-- Python's `a <= b`, which is false of a NaN. -/
def le : PyFloat → PyFloat → Bool
  | .nan, _ | _, .nan => false
  | .negInf, _ | _, .inf => true
  | .finite a, .finite b => a ≤ b
  | _, _ => false

/-- Python's `a < b`. -/
def lt (a b : PyFloat) : Bool := a.le b && !b.le a

end PyFloat

/-- Scalar values of Python's JSON. -/
inductive Scalar
  | bool (b : Bool)
  | int (n : Int)
  | float (x : PyFloat)
  | str (s : String)
deriving DecidableEq

namespace Scalar

/-- The number that Python's `==` compares: booleans count as 0 and 1. -/
def number? : Scalar → Option PyFloat
  | .bool b => some (.finite (if b then 1 else 0))
  | .int n => some (.finite n)
  | .float x => some x
  | .str _ => none

def isBool : Scalar → Bool
  | .bool _ => true
  | _ => false

/-- Python's `a == b`. -/
def equals (a b : Scalar) : Bool :=
  match a.number?, b.number? with
  | some x, some y => x.le y && y.le x
  | none, none => a = b
  | _, _ => false

/-- `_same`: equality that keeps booleans and numbers apart. -/
def same (a b : Scalar) : Bool := a.equals b && a.isBool = b.isBool

end Scalar

/-! ## descriptors -/

/-- An entry of a module's capability descriptor. -/
structure Cap where
  name : String
  kind : String
  type : String
  readonly : Bool := false
  min : Option PyFloat := none
  max : Option PyFloat := none
  values : Option (List Scalar) := none
deriving DecidableEq

namespace Cap

/-- `_in_range` -/
def inRange (cap : Cap) (x : PyFloat) : Bool := !cap.min.any (x.lt ·) && !cap.max.any (·.lt x)

/-- `value_fits` -/
def valueFits (cap : Cap) (value : Scalar) : Bool :=
  if cap.type = "bool" then value.isBool
  else if cap.type = "int" then match value with
    | .int n => cap.inRange (.finite n)
    | _ => false
  else if cap.type = "float" then match value with
    | .int n => cap.inRange (.finite n)
    | .float x => cap.inRange x
    | _ => false
  else if cap.type = "string" then match value with
    | .str _ => true
    | _ => false
  else if cap.type = "enum" then match cap.values with
    | some values => !value.isBool && values.any value.equals
    | none => false
  else false

end Cap

/-- `_settable_cap`: the entry of a writable setting. -/
def settableCap (desc : List Cap) (name : String) : Option Cap :=
  desc.find? fun d => d.name = name && d.kind = "setting" && !d.readonly

/-- `is_setting_cap`: what the first entry of that name says. -/
def isSettingCap (desc : List Cap) (name : String) : Bool :=
  match desc.find? fun d => d.name = name with
  | some d => d.kind = "setting"
  | none => false

/-! ## policy -/

/-- Verbs of the control area, weaker first. -/
inductive Verb
  | use
  | manage
deriving DecidableEq, Repr

structure CapabilityPolicy where
  verb : Verb := .use
  persist : Bool := false
deriving DecidableEq, Repr

/-- Entries by capability and module type; `none` stands for any type. -/
def policyTable : List ((String × Option String) × CapabilityPolicy) :=
  [(("filter_pre_emphasis", none), ⟨.manage, true⟩), (("filter_hpf", none), ⟨.manage, true⟩),
    (("filter_lpf", none), ⟨.manage, true⟩), (("volume", some "fm_transceiver"), ⟨.manage, true⟩)]

/-- `_strictest_for` -/
def strictestFor (capability : String) : CapabilityPolicy :=
  let entries := (policyTable.filter fun e => e.1.1 = capability).map Prod.snd
  if entries = [] then {}
  else
    { verb := if entries.any (·.verb = .manage) then .manage else .use
      persist := entries.any (·.persist) }

/-- `policy_for`; an unknown module type gets the strictest policy. -/
def policyFor (capability : String) : Option String → CapabilityPolicy
  | none => strictestFor capability
  | some moduleType =>
    ((policyTable.lookup (capability, some moduleType)).or
      (policyTable.lookup (capability, none))).getD {}

end StationManager.Control
