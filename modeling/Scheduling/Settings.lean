import Scheduling.Backoff
import Scheduling.SortedSet
import Scheduling.Status

/-!
# Settings of the penalty

A backoff strategy, the lifetime below which a task counts as flapping, the bound on the delay of
tasks that start for the first time, and the states that mark a task as interrupted. Both lengths of
time are positive. The type of the strategy is a parameter, so that a function, an effectful one and
a strategy with known bounds can each stand there; `map` exchanges it. The settings mirror
`RescheduleSettings` of `berth-reschedule`.
-/

namespace Scheduling

/-- The settings that must be positive. -/
inductive PositiveSetting where
  | flappingThreshold
  | maxStartupDelay
  deriving DecidableEq, Repr

/-- The name of a setting in messages and documents. -/
def PositiveSetting.name : PositiveSetting → String
  | .flappingThreshold => "flapping_threshold"
  | .maxStartupDelay => "max_startup_delay"

/-- Why settings cannot be made (`RescheduleError`). -/
inductive SettingsError where
  | invalidBackoff (cause : BackoffError)
  | notPositive (setting : PositiveSetting)
  deriving DecidableEq, Repr

/-- The wording of an error. -/
def SettingsError.message : SettingsError → String
  | .invalidBackoff cause => cause.message
  | .notPositive setting => setting.name ++ " must be positive, got " ++ Duration.zero.text

/-- A set of states. -/
abbrev StatusSet := SortedSet Status

/-- How penalties are computed, with a strategy of type `β`. -/
structure Settings (β : Type) where
  backoff : β
  /-- A task that lived shorter than this is flapping. -/
  flappingThreshold : Duration
  /-- The bound on the delay of a task's first start; penalties do not depend on it. -/
  maxStartupDelay : Duration
  /-- The states that mark a task as interrupted. -/
  interrupted : StatusSet
  threshold_pos : flappingThreshold.isZero = false
  startup_pos : maxStartupDelay.isZero = false

namespace Settings

variable {β γ : Type}

/-- Settings with the default set of interrupted states (`new`). -/
def ofDurations (backoff : β) (flappingThreshold maxStartupDelay : Duration) :
    Except SettingsError (Settings β) :=
  if ht : flappingThreshold.isZero = false then
    if hs : maxStartupDelay.isZero = false then
      .ok ⟨backoff, flappingThreshold, maxStartupDelay, .ofList Status.defaultInterrupted, ht, hs⟩
    else .error (.notPositive .maxStartupDelay)
  else .error (.notPositive .flappingThreshold)

/-- The settings with another set of interrupted states (`with_interrupted_statuses`). -/
def withInterrupted (s : Settings β) (statuses : List Status) : Settings β :=
  { s with interrupted := .ofList statuses }

/-- The settings with another strategy. -/
def map (f : β → γ) (s : Settings β) : Settings γ := { s with backoff := f s.backoff }

/-! ## Descriptions (`fmt`) -/

/-- The description of settings in one line. -/
def describe (s : Settings β) : String :=
  let labels := s.interrupted.toList.map Status.label
  "RescheduleSettings \x7b flapping_threshold: " ++ s.flappingThreshold.text
    ++ ", max_startup_delay: " ++ s.maxStartupDelay.text
    ++ ", interrupted_statuses: [" ++ String.intercalate ", " labels ++ "], .. \x7d"

/-- The description of settings with a line for each part. -/
def describeLines (s : Settings β) : String :=
  let labels := s.interrupted.toList.map fun status => "        " ++ status.label ++ ",\n"
  let list := if labels.isEmpty then "[]" else "[\n" ++ String.join labels ++ "    ]"
  "RescheduleSettings \x7b\n    flapping_threshold: " ++ s.flappingThreshold.text
    ++ ",\n    max_startup_delay: " ++ s.maxStartupDelay.text
    ++ ",\n    interrupted_statuses: " ++ list ++ ",\n    ..\n\x7d"

end Settings

end Scheduling
