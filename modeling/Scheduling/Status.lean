/-!
# The lifecycle of a task

The states a task passes through, in the order in which they are listed wherever they are listed:
`ScheduleStatus` of `berth-model`.
-/

namespace Scheduling

/-- A state in a task's lifecycle. -/
inductive Status where
  /-- Not yet stored. -/
  | init
  /-- Held back before it becomes pending. -/
  | throttled
  /-- Waiting for a host. -/
  | pending
  /-- Matched to a host, and its launch requested. -/
  | assigned
  /-- Its host prepares the sandbox. -/
  | starting
  | running
  /-- Ended with success. -/
  | finished
  /-- Being killed to make room for a task of higher priority. -/
  | preempting
  /-- Being killed to be restarted. -/
  | restarting
  /-- Being killed because its host is drained. -/
  | draining
  /-- Ended with failure. -/
  | failed
  /-- Killed on request. -/
  | killed
  /-- A kill is requested and not yet confirmed. -/
  | killing
  /-- Not known to the scheduler, and taken to be gone. -/
  | lost
  /-- Its host cannot be reached, and it may still run. -/
  | partitioned
  deriving DecidableEq, Repr

namespace Status

/-- Every state, in order (`ALL`). -/
def all : List Status :=
  [init, throttled, pending, assigned, starting, running, finished, preempting, restarting,
   draining, failed, killed, killing, lost, partitioned]

/-- The place of a state in the order, from zero. -/
def rank (s : Status) : Nat := all.idxOf s

/-- The name of a state in documents and messages (`as_str`). -/
def name : Status → String
  | init => "INIT"
  | throttled => "THROTTLED"
  | pending => "PENDING"
  | assigned => "ASSIGNED"
  | starting => "STARTING"
  | running => "RUNNING"
  | finished => "FINISHED"
  | preempting => "PREEMPTING"
  | restarting => "RESTARTING"
  | draining => "DRAINING"
  | failed => "FAILED"
  | killed => "KILLED"
  | killing => "KILLING"
  | lost => "LOST"
  | partitioned => "PARTITIONED"

/-- The name of a state in descriptions of settings. -/
def label : Status → String
  | init => "Init"
  | throttled => "Throttled"
  | pending => "Pending"
  | assigned => "Assigned"
  | starting => "Starting"
  | running => "Running"
  | finished => "Finished"
  | preempting => "Preempting"
  | restarting => "Restarting"
  | draining => "Draining"
  | failed => "Failed"
  | killed => "Killed"
  | killing => "Killing"
  | lost => "Lost"
  | partitioned => "Partitioned"

/-- The task will change no more (`is_terminal`). -/
def isTerminal : Status → Bool
  | finished | failed | killed | lost => true
  | _ => false

/-- The task occupies a host, or is about to (`is_active`). -/
def isActive (s : Status) : Bool := !s.isTerminal && s != init

/-- The states that mark a task as interrupted by an operator, unless the settings say otherwise
(`DEFAULT_INTERRUPTED_STATUSES`): a task killed on request passes through `killing`. -/
def defaultInterrupted : List Status := [killing]

/-- Every state is listed. -/
theorem mem_all (s : Status) : s ∈ all := by cases s <;> decide

/-- A state stands in the list at its rank. -/
theorem getElem?_rank (s : Status) : all[s.rank]? = some s := by cases s <;> decide

/-- States of one rank are equal. -/
theorem eq_of_rank_eq {s t : Status} (h : s.rank = t.rank) : s = t :=
  Option.some.inj (by rw [← getElem?_rank s, ← getElem?_rank t, h])

instance : Ord Status where
  compare := compareOn rank

instance : Std.TransOrd Status := inferInstanceAs (Std.TransCmp (compareOn rank))

instance : Std.LawfulEqOrd Status where
  eq_of_compare h := eq_of_rank_eq (Std.LawfulEqOrd.eq_of_compare (α := Nat) h)

end Status

end Scheduling
