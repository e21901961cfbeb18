import Scheduling.Decimal.Whole
import Scheduling.Ident
import Scheduling.Placement.Constraint
import Scheduling.Status

/-!
# Task records

What is kept of one incarnation of a task: its name, the configuration it was launched with, its
state, the task it replaced, and the events of its life. Nothing keeps the events in order or in
step with the state when a record is made; `TaskRecord.validate` checks that they are. The types
have the names that they have in `berth-model`.
-/

namespace Scheduling

/-- A task entered a state at a moment, in milliseconds since 1970. -/
structure TaskEvent where
  status : Status
  timestampMs : Int64
  deriving DecidableEq

/-- The moment at which it did (`timestamp`), if there is one for its milliseconds. What moments
there are, and for which milliseconds, is a matter of the conversion. -/
def TaskEvent.timestamp {Moment : Type} (fromMillis : Int64 → Option Moment) (e : TaskEvent) :
    Option Moment :=
  fromMillis e.timestampMs

/-- The configuration a task is launched with. -/
structure TaskConfig where
  job : JobKey
  constraints : List Constraint
  deriving DecidableEq

/-- The same configuration with other constraints (`with_constraints`). -/
def TaskConfig.withConstraints (c : TaskConfig) (constraints : List Constraint) : TaskConfig :=
  { c with constraints := constraints }

/-- One incarnation of a task. -/
structure TaskRecord where
  taskId : TaskId
  instanceId : UInt32
  config : TaskConfig
  status : Status
  /-- The task that this one replaced. -/
  ancestor : Option TaskId
  /-- What happened to the task, oldest first. -/
  events : List TaskEvent
  deriving DecidableEq

/-- How a record breaks its rules (`ModelError`). -/
inductive HistoryError where
  /-- The event at `index` is not later than the one before it. -/
  | outOfOrder (index : Nat) (previous current : Int64)
  /-- The last event has another state than the record. -/
  | statusMismatch (status latest : Status)
  deriving DecidableEq

/-- The wording of an error. -/
def HistoryError.message : HistoryError → String
  | .outOfOrder index previous current =>
    "task events out of order at index " ++ index.repr ++ ": "
      ++ String.ofList (Decimal.intText previous.toInt) ++ " >= "
      ++ String.ofList (Decimal.intText current.toInt)
  | .statusMismatch status latest =>
    "task status " ++ status.name ++ " does not match latest event status " ++ latest.name

namespace TaskRecord

/-- A record without ancestor and events (`new`). -/
def new (taskId : TaskId) (instanceId : UInt32) (config : TaskConfig) (status : Status) :
    TaskRecord :=
  ⟨taskId, instanceId, config, status, none, []⟩

/-- The record of a task that replaced another (`with_ancestor`). -/
def withAncestor (r : TaskRecord) (ancestor : TaskId) : TaskRecord :=
  { r with ancestor := some ancestor }

/-- The record in another state (`with_status`). -/
def withStatus (r : TaskRecord) (status : Status) : TaskRecord := { r with status := status }

/-- The record with another configuration; any caller may set this field. -/
def withConfig (r : TaskRecord) (config : TaskConfig) : TaskRecord := { r with config := config }

/-- The record with other events (`with_events`); its state becomes that of the last of them, if
there is one. -/
def withEvents (r : TaskRecord) (events : List TaskEvent) : TaskRecord :=
  { r with
    events := events
    status := match events.getLast? with
      | some last => last.status
      | none => r.status }

/-- The job the task belongs to. -/
def job (r : TaskRecord) : JobKey := r.config.job

/-- The oldest event (`first_event`). -/
def firstEvent (r : TaskRecord) : Option TaskEvent := r.events.head?

/-- The newest event (`latest_event`). -/
def latestEvent (r : TaskRecord) : Option TaskEvent := r.events.getLast?

/-- The milliseconds from the first to the last event, or the nearest 64-bit number to them
(`lifetime_ms`). -/
def lifetimeMs (r : TaskRecord) : Option Int64 := do
  let first ← r.firstEvent
  let latest ← r.latestEvent
  return Int64.ofIntClamp (latest.timestampMs.toInt - first.timestampMs.toInt)

/-- Some event has one of `statuses` (`passed_through`). -/
def passedThrough (r : TaskRecord) (statuses : List Status) : Bool :=
  r.events.any fun e => statuses.contains e.status

/-- The first event that is not later than the one before it, where the first of `events` stands
just before `index`. -/
def checkOrder (index : Nat) : List TaskEvent → Except HistoryError Unit
  | first :: second :: rest =>
    if second.timestampMs ≤ first.timestampMs then
      .error (.outOfOrder index first.timestampMs second.timestampMs)
    else checkOrder (index + 1) (second :: rest)
  | _ => .ok ()

/-- Each event is later than the one before it, and the last one has the record's state
(`validate`). -/
def validate (r : TaskRecord) : Except HistoryError Unit := do
  checkOrder 1 r.events
  match r.latestEvent with
  | some latest =>
    if latest.status = r.status then .ok () else .error (.statusMismatch r.status latest.status)
  | none => .ok ()

end TaskRecord

end Scheduling
