import StationManager.Firmware.Models

/-!
# StationManager.Firmware.BootKey

The boot-key check of `mcuboot.py`: the key prefix a module reports against
the one parsed from a release, and the texts built on the comparison.  A
blank key is an unknown key; synthetic (simulated) modules carry no MCUboot
image and are never compared.
-/

namespace StationManager.Firmware

/-- The well-known MCUboot development key. -/
def devKeyHashPrefix : String := "e30466f6b8470c1f"

def isDevKey (key : String) : Bool := key = devKeyHashPrefix

def notUpdatableDevText : String :=
  "Nicht updatebar: Bootloader-Schlüssel passt nicht zur Release (Dev-Key) – SWD-Reflash an der Bench nötig"

def notUpdatableOtherText : String :=
  "Nicht updatebar: Bootloader-Schlüssel passt nicht zur Release (anderer Schlüssel) – SWD-Reflash an der Bench nötig"

def notUpdatableNeutralText : String :=
  "Nicht updatebar: Bootloader-Schlüssel passt nicht zur Release – SWD-Reflash an der Bench nötig"

def keyUnknownHint : String :=
  "Mögliche Ursache: Bootloader-Schlüssel passt nicht zur Release (z. B. Dev-Key) – Modul-Firmware zu alt, um das zu prüfen."

/-- True only if both keys are known and differ. -/
def bootKeyMismatch (module : Module) (release : Release) : Bool :=
  if module.uidSource = .synthetic then false
  else if module.reportedBootKey = "" ∨ release.bootKeyHash = "" then false
  else module.reportedBootKey ≠ release.bootKeyHash

/-- The reconciler's `keys_match`: the module reports the release's key. -/
def keysMatch (module : Module) (release : Release) : Bool :=
  module.reportedBootKey ≠ "" ∧ module.reportedBootKey = release.bootKeyHash

/-- Text for a module that no longer reports a key says nothing about which
key it is. -/
def notUpdatableText (module : Module) : String :=
  if module.reportedBootKey = "" then notUpdatableNeutralText
  else if isDevKey module.reportedBootKey then notUpdatableDevText
  else notUpdatableOtherText

/-- A rolled-back flash on a real module whose key could not be compared. -/
def keyHintApplies (module : Module) (release : Release) (errorMode : Option ErrorMode) : Bool :=
  if errorMode ≠ some .rolledBack ∨ module.uidSource = .synthetic then false
  else module.reportedBootKey = "" ∨ release.bootKeyHash = ""

/-- One character of a key prefix. -/
def isLowerHex (c : Char) : Bool := ('0' ≤ c ∧ c ≤ '9') ∨ ('a' ≤ c ∧ c ≤ 'f')

/-- Lowercase a reported boot key; blank unless it is exactly 16 hex digits.
A value that is not a string is `none`. -/
def normalizeBootKey (value : Option String) : String :=
  match value with
  | none => ""
  | some v =>
    let lower := v.toList.map Char.toLower
    if lower.length = 16 ∧ lower.all isLowerHex then String.ofList lower else ""

/-- Matching keys are not a mismatch. -/
theorem bootKeyMismatch_of_keysMatch {module : Module} {release : Release}
    (h : keysMatch module release = true) : bootKeyMismatch module release = false := by
  simp only [keysMatch, decide_eq_true_eq] at h
  simp [bootKeyMismatch, h.2]

end StationManager.Firmware
