import Scheduling.Task
import Scheduling.Wire.Placement

/-!
# Documents of tasks

The codecs of names and states, and the layouts of events, configurations and records, with the
fields, defaults and omissions that their declarations in `berth-id` and `berth-model` give. A
record's ancestor is left out when it has none; its events, and a configuration's constraints, may
be left out when there are none, but are always written.
-/

namespace Scheduling.Wire

/-- Names of jobs, as texts. -/
def jobKey : Codec JobKey := .named JobKey.text JobKey.parse

/-- Names of tasks, as texts. -/
def taskId : Codec TaskId := .named TaskId.text TaskId.parse

/-- States, by name. -/
def status : Codec Status := .variant Status.all Status.name

/-- The fields of an event. -/
inductive TaskEventField where
  | status
  | timestampMs
  deriving DecidableEq

/-- The types of an event's fields. -/
abbrev TaskEventField.Slot : TaskEventField → Type
  | status => Status
  | timestampMs => Int64

/-- The layout of an event. -/
def taskEventLayout : Layout TaskEvent where
  title := "TaskEvent"
  Field := TaskEventField
  fields := [.status, .timestampMs]
  mem_fields f := by cases f <;> simp
  name
    | .status => "status"
    | .timestampMs => "timestamp_ms"
  nodup_names := by decide
  Slot := TaskEventField.Slot
  codec
    | .status => status
    | .timestampMs => .signed64
  fallback _ := none
  isOmitted _ _ := false
  get e
    | .status => e.status
    | .timestampMs => e.timestampMs
  build v := ⟨v .status, v .timestampMs⟩

/-- The fields of a task's configuration. -/
inductive TaskConfigField where
  | job
  | constraints
  deriving DecidableEq

/-- The types of the fields of a task's configuration. -/
abbrev TaskConfigField.Slot : TaskConfigField → Type
  | job => JobKey
  | constraints => List Constraint

/-- The layout of a task's configuration. -/
def taskConfigLayout : Layout TaskConfig where
  title := "TaskConfig"
  Field := TaskConfigField
  fields := [.job, .constraints]
  mem_fields f := by cases f <;> simp
  name
    | .job => "job"
    | .constraints => "constraints"
  nodup_names := by decide
  Slot := TaskConfigField.Slot
  codec
    | .job => jobKey
    | .constraints => constraint.list
  fallback
    | .job => none
    | .constraints => some []
  isOmitted _ _ := false
  get c
    | .job => c.job
    | .constraints => c.constraints
  build v := ⟨v .job, v .constraints⟩

/-- The fields of a record. -/
inductive TaskRecordField where
  | taskId
  | instanceId
  | config
  | status
  | ancestor
  | events
  deriving DecidableEq

/-- The types of a record's fields. -/
abbrev TaskRecordField.Slot : TaskRecordField → Type
  | taskId => TaskId
  | instanceId => UInt32
  | config => TaskConfig
  | status => Status
  | ancestor => Option TaskId
  | events => List TaskEvent

/-- The layout of a record. -/
def taskRecordLayout : Layout TaskRecord where
  title := "TaskRecord"
  Field := TaskRecordField
  fields := [.taskId, .instanceId, .config, .status, .ancestor, .events]
  mem_fields f := by cases f <;> simp
  name
    | .taskId => "task_id"
    | .instanceId => "instance_id"
    | .config => "config"
    | .status => "status"
    | .ancestor => "ancestor_id"
    | .events => "events"
  nodup_names := by decide
  Slot := TaskRecordField.Slot
  codec
    | .taskId => taskId
    | .instanceId => .unsigned32
    | .config => taskConfigLayout.toCodec
    | .status => status
    | .ancestor => taskId.optional
    | .events => taskEventLayout.toCodec.list
  fallback
    | .ancestor => some none
    | .events => some []
    | _ => none
  isOmitted
    | .ancestor, v => v.isNone
    | _, _ => false
  get r
    | .taskId => r.taskId
    | .instanceId => r.instanceId
    | .config => r.config
    | .status => r.status
    | .ancestor => r.ancestor
    | .events => r.events
  build v :=
    ⟨v .taskId, v .instanceId, v .config, v .status, v .ancestor, v .events⟩

/-- Events. -/
def taskEvent : Codec TaskEvent := taskEventLayout.toCodec

/-- Configurations of tasks. -/
def taskConfig : Codec TaskConfig := taskConfigLayout.toCodec

/-- Records of tasks. -/
def taskRecord : Codec TaskRecord := taskRecordLayout.toCodec

end Scheduling.Wire
