import Mathlib.Algebra.Group.Nat.Defs
import StationManager.Monitoring.Models

/-!
# StationManager.Monitoring.Rules

Metric keys and their patterns, as `station_agent.metrics_contract` defines
them, and the helpers of `apps.monitoring.rules`: the comparison that makes a
value a breach, what of a rule counts for its evaluation, and the texts.
-/

namespace StationManager.Monitoring

/-! ## metric keys -/

/-- `MAX_KEY_LEN` -/
def maxKeyLen : Nat := 64

/-- `text.split(".")` -/
def segments (text : String) : List (List Char) := text.toList.splitOn '.'

def wildcard : List Char := ['*']

/-- The characters of `KEY_RE`. -/
def isKeyChar (c : Char) : Bool := ('a' ≤ c && c ≤ 'z') || ('0' ≤ c && c ≤ '9') || c = '_'

/-- `KEY_RE`, on the segments: two to four, none of them empty. -/
def keyShaped (segs : List (List Char)) : Bool :=
  2 ≤ segs.length && segs.length ≤ 4 && segs.all fun seg => !seg.isEmpty && seg.all isKeyChar

/-- `is_valid_key` -/
def isValidKey (key : String) : Bool := key.length ≤ maxKeyLen && keyShaped (segments key)

/-- `is_valid_pattern` -/
def isValidPattern (pattern : String) : Bool :=
  let segs := segments pattern
  if segs.count wildcard = 0 then isValidKey pattern
  else if segs.count wildcard ≠ 1 then false
  -- the placeholder is as long as the wildcard, so both length checks agree
  else keyShaped (segs.map fun seg => if seg = wildcard then ['x'] else seg) &&
    pattern.length ≤ maxKeyLen

/-- `key_matches_pattern`, the matcher of `pattern_matcher` at one key -/
def keyMatchesPattern (key pattern : String) : Bool :=
  if !isValidPattern pattern then false
  else
    let segs := segments pattern
    if !segs.contains wildcard then key = pattern
    else
      (segments key).length = segs.length &&
        ((segments key).zip segs).all fun e => e.2 = wildcard || e.2 = e.1

example : keyMatchesPattern "disk.root.used_pct" "disk.*.used_pct" = true := by decide
example : keyMatchesPattern "cpu.temp_c" "*.*" = false := by decide

/-! ## evaluation -/

/-- `compare`; a blank operator never breaches. -/
def compare (op : Option Operator) (value threshold : Rat) : Bool :=
  match op with
  | none => false
  | some .gt => value > threshold
  | some .gte => value ≥ threshold
  | some .lt => value < threshold
  | some .lte => value ≤ threshold

/-- `evaluation_changed`, over `EVALUATION_FIELDS` -/
def evaluationChanged (old new : AlertRule) : Bool :=
  old.alertType ≠ new.alertType || old.metricKey ≠ new.metricKey ||
    old.operator ≠ new.operator || old.aggregate ≠ new.aggregate ||
    old.threshold ≠ new.threshold || old.durationSeconds ≠ new.durationSeconds ||
    old.severity ≠ new.severity || old.isActive ≠ new.isActive

/-! ## texts -/

/-- `MetricDefinition.display_label` -/
def MetricDefinition.displayLabel (defn : MetricDefinition) (key : String) : String :=
  if defn.labelOverride ≠ "" then defn.labelOverride
  else if defn.label ≠ "" then defn.label
  else key

/-- `format_duration` -/
def formatDuration (seconds : Nat) : String :=
  let hours := seconds / 3600
  let minutes := seconds % 3600 / 60
  let secs := seconds % 60
  if hours ≠ 0 then
    if minutes ≠ 0 then toString hours ++ " h " ++ toString minutes ++ " min"
    else toString hours ++ " h"
  else if minutes ≠ 0 then
    if secs ≠ 0 then toString minutes ++ " min " ++ toString secs ++ " s"
    else toString minutes ++ " min"
  else toString secs ++ " s"

/-- The natural number nearest to a nonnegative rational; of two the even one. -/
def roundHalfEven (q : Rat) : Nat :=
  let n := q.floor.toNat
  let rest := q - n
  if rest < 1 / 2 then n
  else if 1 / 2 < rest then n + 1
  else if n % 2 = 0 then n
  else n + 1

/-- `format_value`: a fixed number of decimals; the sign stays on a value that rounds
to zero. -/
def formatValue (value : Rat) (precision : Nat) : String :=
  let digits := roundHalfEven ((if value < 0 then -value else value) * 10 ^ precision)
  let sign := if value < 0 then "-" else ""
  let whole := toString (digits / 10 ^ precision)
  let decimals := (toString (digits % 10 ^ precision)).toList
  if precision = 0 then sign ++ whole
  else sign ++ whole ++ "." ++
    String.ofList (List.replicate (precision - decimals.length) '0' ++ decimals)

/-- `_threshold_message` -/
def thresholdMessage (defn : MetricDefinition) (key station : String) (rule : AlertRule)
    (value : Rat) (elapsedSeconds : Nat) : String :=
  let direction := match rule.operator with
    | some .gt | some .gte => "above"
    | _ => "below"
  let msg := defn.displayLabel key ++ " on " ++ station ++ ": " ++
    formatValue value defn.precision ++ defn.unit ++ " " ++ direction ++ " " ++
    formatValue rule.threshold defn.precision ++ defn.unit
  (if elapsedSeconds > 0 then msg ++ " for " ++ formatDuration elapsedSeconds else msg) ++ "."

end StationManager.Monitoring
