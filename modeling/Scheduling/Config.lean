import Scheduling.Decimal.Whole
import Scheduling.Settings
import Scheduling.Text.Blank

/-!
# Configuration

The four numbers, in milliseconds, that settings are made from, with their defaults, and how they
are read from the environment: a variable that is unset, or whose value is no text, leaves the
default, and any other variable must hold a number. Nothing is checked until `toSettings`. `Config`
mirrors `RescheduleConfig` of `berth-reschedule`; the environment is a parameter.
-/

namespace Scheduling

/-- The four numbers of a configuration, in the order in which they are read. -/
inductive ConfigField where
  | flappingThreshold
  | maxStartupDelay
  | backoffInitial
  | backoffMax
  deriving DecidableEq, Repr

namespace ConfigField

/-- The fields in order. -/
def all : List ConfigField := [flappingThreshold, maxStartupDelay, backoffInitial, backoffMax]

/-- The name of a field in documents. -/
def name : ConfigField → String
  | flappingThreshold => "flapping_threshold_ms"
  | maxStartupDelay => "max_startup_delay_ms"
  | backoffInitial => "backoff_initial_ms"
  | backoffMax => "backoff_max_ms"

/-- The environment variable that sets a field. -/
def envName : ConfigField → String
  | flappingThreshold => "BERTH_FLAPPING_THRESHOLD_MS"
  | maxStartupDelay => "BERTH_MAX_STARTUP_DELAY_MS"
  | backoffInitial => "BERTH_FLAPPING_BACKOFF_INITIAL_MS"
  | backoffMax => "BERTH_FLAPPING_BACKOFF_MAX_MS"

/-- The number that stands for a field left out: five minutes, one minute, one second and five
minutes. -/
def default : ConfigField → UInt64
  | flappingThreshold => 300000
  | maxStartupDelay => 60000
  | backoffInitial => 1000
  | backoffMax => 300000

end ConfigField

/-- The numbers that settings are made from. -/
structure Config where
  flappingThresholdMs : UInt64
  maxStartupDelayMs : UInt64
  backoffInitialMs : UInt64
  backoffMaxMs : UInt64
  deriving DecidableEq, Repr

/-- The variable of a field holds a text that is no number (`InvalidEnv`). -/
structure EnvError where
  field : ConfigField
  value : String
  fault : Decimal.WholeFault
  deriving DecidableEq, Repr

/-- The wording of the error. -/
def EnvError.message (e : EnvError) : String :=
  "invalid value for " ++ e.field.envName ++ ": '" ++ e.value ++ "' (" ++ e.fault.message ++ ")"

namespace Config

/-- The configuration with a number for each field. -/
def ofFields (number : ConfigField → UInt64) : Config :=
  ⟨number .flappingThreshold, number .maxStartupDelay, number .backoffInitial, number .backoffMax⟩

/-- The number of a field. -/
def get (c : Config) : ConfigField → UInt64
  | .flappingThreshold => c.flappingThresholdMs
  | .maxStartupDelay => c.maxStartupDelayMs
  | .backoffInitial => c.backoffInitialMs
  | .backoffMax => c.backoffMaxMs

/-- Reads one field: white space around its number does not count. -/
def readField (lookup : ConfigField → Option String) (field : ConfigField) :
    Except EnvError UInt64 :=
  match lookup field with
  | none => .ok field.default
  | some value =>
    match Decimal.readWhole (Text.trimBlanks value.toList) with
    | .ok number => .ok number
    | .error fault => .error ⟨field, value, fault⟩

/-- The configuration in the texts of some variables (`from_lookup`); the first bad one is the
error. -/
def ofLookup (lookup : ConfigField → Option String) : Except EnvError Config := do
  let flappingThresholdMs ← readField lookup .flappingThreshold
  let maxStartupDelayMs ← readField lookup .maxStartupDelay
  let backoffInitialMs ← readField lookup .backoffInitial
  let backoffMaxMs ← readField lookup .backoffMax
  return ⟨flappingThresholdMs, maxStartupDelayMs, backoffInitialMs, backoffMaxMs⟩

/-- The configuration in an environment (`from_env`); bytes that are no text count as unset. -/
def ofEnvironment (bytes : ConfigField → Option ByteArray) : Except EnvError Config :=
  ofLookup fun field => (bytes field).bind String.fromUTF8?

/-- The settings that a configuration describes (`into_settings`). -/
def toSettings (c : Config) : Except SettingsError (Settings TruncatedBackoff) :=
  match TruncatedBackoff.ofDurations (.ofMillis c.backoffInitialMs) (.ofMillis c.backoffMaxMs) with
  | .error cause => .error (.invalidBackoff cause)
  | .ok backoff =>
    Settings.ofDurations backoff (.ofMillis c.flappingThresholdMs) (.ofMillis c.maxStartupDelayMs)

end Config

end Scheduling
