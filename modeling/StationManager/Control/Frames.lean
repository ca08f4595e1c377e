import StationManager.Lib.Text

/-!
# StationManager.Control.Frames

The values browsers put into control frames, as far as the server looks at
them.
-/

namespace StationManager.Control

/-- A slot as it stands in a frame. -/
inductive Slot
  | int (n : Int)
  | str (s : String)
deriving DecidableEq, Repr

/-- Python's `str(slot)`. -/
def Slot.text : Slot → String
  | .int n => toString n
  | .str s => s

/-- A missing slot prints as `None`. -/
def slotText : Option Slot → String
  | none => "None"
  | some slot => slot.text

/-- The value of a command.  Of a dictionary the code reads `slot` and `module`;
`filled` says whether it has any field, as for the other values it does not
look into. -/
inductive Value
  | null
  | bool (b : Bool)
  | int (n : Int)
  | str (s : String)
  | dict (slot : Option Slot) (module : String) (filled : Bool)
  | other (filled : Bool)
deriving DecidableEq, Repr

/-- Python's truth value. -/
def Value.truthy : Value → Bool
  | .null => false
  | .bool b => b
  | .int n => n ≠ 0
  | .str s => s ≠ ""
  | .dict _ _ filled | .other filled => filled

/-- A `command` frame. -/
structure Command where
  op : String
  capability : String
  slot : Option Slot
  module : String
  value : Value
deriving DecidableEq, Repr

/-- The command keys the transmitter. -/
def Command.keys (c : Command) : Bool := c.capability = "ptt" && c.value.truthy

end StationManager.Control
