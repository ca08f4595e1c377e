import StationManager.Control.Frames
import StationManager.Lib.Table

/-!
# StationManager.Audio.Gate

The audio gate of a station: whether it is keyed, for which module and until
when, and where the operator's microphone goes.  Every operation of `gate.py`
is one row-locked transaction on the `AudioGate` row.
-/

namespace StationManager.Audio

open Control (Slot)

/-- An `AudioGate` row. -/
structure AudioGate where
  pttActive : Bool := false
  pttSlot : Option Int := none
  pttModule : String := ""
  pttExpiresAt : Option Time := none
  txSlot : Option Int := none
  txModule : String := ""
deriving DecidableEq, Repr

/-- The control plane says `slot0` where the gate stores the number. -/
def coerceSlot : Option Slot → Option Int
  | none => none
  | some (.int n) => some n
  | some (.str s) =>
    if startsWith s "slot" then (int? (s.toList.drop 4)).or (int? s.toList) else int? s.toList

example : coerceSlot (some (.str "slot2")) = some 2 := by decide

namespace AudioGate

/-- `set_ptt` -/
def setPtt (gate : AudioGate) (now ttl : Time) (slot : Option Slot) (module : String) :
    AudioGate :=
  { gate with
    pttActive := true, pttSlot := coerceSlot slot, pttModule := module,
    pttExpiresAt := some (now + ttl) }

/-- `refresh_ptt` -/
def refreshPtt (gate : AudioGate) (now ttl : Time) : AudioGate :=
  if gate.pttActive then { gate with pttExpiresAt := some (now + ttl) } else gate

/-- `clear_ptt` -/
def clearPtt (gate : AudioGate) : AudioGate :=
  { gate with pttActive := false, pttSlot := none, pttModule := "", pttExpiresAt := none }

/-- `set_tx_route` -/
def setTxRoute (gate : AudioGate) (slot : Option Slot) (module : String) : AudioGate :=
  { gate with txSlot := coerceSlot slot, txModule := module }

/-- `clear_tx_route` -/
def clearTxRoute (gate : AudioGate) : AudioGate := { gate with txSlot := none, txModule := "" }

/-- `_keyed`: active, and the dead-man expiry has not passed. -/
def keyed (gate : AudioGate) (now : Time) : Bool :=
  gate.pttActive && match gate.pttExpiresAt with
    | none => false
    | some t => now < t

end AudioGate

end StationManager.Audio
