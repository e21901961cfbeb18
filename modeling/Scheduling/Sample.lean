import Scheduling.Task

/-!
# Sample records

The job, configuration and records that examples are built from: the fixtures of `berth-testing`.
-/

namespace Scheduling.Sample

/-- Any job (`job`). -/
def job : JobKey where
  role := "role"
  environment := "devel"
  name := "job"
  role_isWord := by decide
  environment_isWord := by decide
  name_isWord := by decide

/-- A configuration with a negated value constraint and a limit constraint (`make_config`). -/
def config (job : JobKey) : TaskConfig where
  job := job
  constraints := [⟨"valueConstraint", .ofValues true ["value1", "value2"]⟩,
    ⟨"limitConstraint", .ofLimit 5⟩]

/-- A sample was asked for under a text that is no name. -/
structure BadName where
  cause : IdError
  deriving DecidableEq, Repr

/-- The cause with its parts named. -/
def causeText : IdError → String
  | .empty => "Empty"
  | .invalidCharacter value found =>
    "InvalidCharacter \x7b value: " ++ Text.quoteText value ++ ", found: " ++ Text.quoteChar found
      ++ " \x7d"
  | .invalidFormat text =>
    "InvalidFormat \x7b message: " ++ Text.quoteText (IdError.formatDetail text) ++ " \x7d"

/-- The wording of the error. -/
def BadName.message (e : BadName) : String := "fixture task id is valid: " ++ causeText e.cause

/-- The name in a text that should be one (`task_id`). -/
def taskId (text : String) : Except BadName TaskId :=
  match TaskId.parse text with
  | .ok id => .ok id
  | .error cause => .error ⟨cause⟩

/-- A record of the sample job without ancestor and events (`make_task`). -/
def task (id : TaskId) (status : Status) : TaskRecord := .new id 0 (config job) status

/-- A task that finished 300 ms after it was created (`make_flappy_task`). -/
def flappyTask (id : TaskId) : TaskRecord :=
  (task id .finished).withEvents
    [⟨.init, 0⟩, ⟨.pending, 100⟩, ⟨.running, 200⟩, ⟨.finished, 300⟩]

/-- Three tasks that finished 300 ms after they were created, each the ancestor of the one before
it. -/
def threeFlappy : List TaskRecord :=
  [(flappyTask ⟨"a", by decide⟩).withAncestor ⟨"b", by decide⟩,
    (flappyTask ⟨"b", by decide⟩).withAncestor ⟨"c", by decide⟩,
    flappyTask ⟨"c", by decide⟩]

/-- Three such tasks in a circle: each has the next as its ancestor, and the last one has the
first. -/
def flappyCircle : List TaskRecord :=
  [(flappyTask ⟨"a", by decide⟩).withAncestor ⟨"b", by decide⟩,
    (flappyTask ⟨"b", by decide⟩).withAncestor ⟨"c", by decide⟩,
    (flappyTask ⟨"c", by decide⟩).withAncestor ⟨"a", by decide⟩]

/-- A task whose ancestors are in the circle. -/
def belowCircle : TaskRecord := (task ⟨"t", by decide⟩ .pending).withAncestor ⟨"a", by decide⟩

end Scheduling.Sample
