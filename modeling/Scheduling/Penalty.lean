import Scheduling.Settings
import Scheduling.Task

/-!
# The penalty of a flapping task

A task that died on its own soon after it started is flapping. A rescheduled task waits the longer,
the more of its ancestors were: `Calculator.penaltyMs` follows the ancestors upward and feeds the
delay through the backoff strategy once for each that is flapping. It stops at an ancestor that is
missing, not flapping or already seen, and as soon as the delay stops growing, without reading
further up. Where records come from and what the strategy does are left to a monad; whatever they
answer, the walk ends, because the delay grows at every step and is a 64-bit number.

`Calculator` mirrors `RescheduleCalculator` of `berth-reschedule`, and `Calculator.walk` the loop of
its `flapping_penalty_ms`, with the exits in the same order. The log lines at the exits are left
out.
-/

namespace Scheduling

/-- The record shows a task that died on its own within the threshold (`is_flapping`): it has a
history, no event in an interrupted state, and a lifetime below the threshold. A negative lifetime
counts as none. -/
def Settings.isFlapping {β : Type} (s : Settings β) (r : TaskRecord) : Bool :=
  if r.passedThrough s.interrupted.toList then false
  else match r.lifetimeMs with
    | none => false
    | some lifetime => lifetime.toInt.toNat < s.flappingThreshold.toMillis.toNat

/-- Where records come from (`fetch_task` of a `TaskStore`), and the settings. -/
structure Calculator (m : Type → Type) where
  /-- Looks a record up. -/
  fetch : TaskId → m (Option TaskRecord)
  /-- The settings, with the strategy as a step from one delay to the next
  (`calculate_backoff_ms`). -/
  settings : Settings (UInt64 → m UInt64)

namespace Calculator

variable {m : Type → Type}

/-- The record shows a flapping task. -/
def isFlapping (c : Calculator m) (r : TaskRecord) : Bool := c.settings.isFlapping r

/-- The walk up the ancestors from `next`, after those of `visited`, which made for a delay of
`penalty`. -/
def walk [Monad m] (c : Calculator m) (visited : List TaskId) (penalty : UInt64) :
    Option TaskId → m UInt64
  | none => return penalty
  | some id =>
    if id ∈ visited then return penalty
    else do
      match ← c.fetch id with
      | none => return penalty
      | some ancestor =>
        if c.isFlapping ancestor then
          let next ← c.settings.backoff penalty
          if _h : penalty < next then c.walk (id :: visited) next ancestor.ancestor
          else return next
        else return penalty
termination_by UInt64.size - penalty.toNat
decreasing_by
  have := UInt64.lt_iff_toNat_lt.1 _h
  have := next.toNat_lt_size
  omega

/-- The delay, in milliseconds, with which a task is scheduled (`flapping_penalty_ms`). -/
def penaltyMs [Monad m] (c : Calculator m) (task : TaskRecord) : m UInt64 :=
  c.walk [] 0 task.ancestor

/-- The description of a calculator (`fmt`). -/
def describe (c : Calculator m) : String :=
  "RescheduleCalculator \x7b settings: " ++ c.settings.describe ++ ", .. \x7d"

end Calculator

end Scheduling
