import Mathlib.Data.List.DropRight
import Scheduling.Proofs.Task.Validation
import Scheduling.Sample

/-!
# How a record came to be

A record is made without ancestor and events, and then revised step by step (`Revision`). Each field
has in the end what the last step gave it that gave it anything (`get_revisedBy`). The state is such
a field too: it is given by a step that sets it, but also by the last of the events of a step that
gives any. So right after a step with events the state is that of the last event, and it stays so
unless a later step sets it (`status_of_latestEvent`). That is all that can bring the state out of
step with the events, and `revisedBy_consistent` says when the check of the record finds it.
-/

namespace Scheduling

/-- One step in the making of a record. -/
inductive Revision where
  | ancestor (id : TaskId)
  | status (status : Status)
  | events (events : List TaskEvent)
  | constraints (constraints : List Constraint)

namespace Revision

/-- The ancestor that a step sets. -/
def ancestor? : Revision → Option TaskId
  | ancestor id => some id
  | _ => none

/-- The events that a step sets. -/
def events? : Revision → Option (List TaskEvent)
  | events es => some es
  | _ => none

/-- The constraints that a step sets. -/
def constraints? : Revision → Option (List Constraint)
  | constraints cs => some cs
  | _ => none

/-- The state that a step sets as such, not by way of its events. -/
def ownStatus? : Revision → Option Status
  | status s => some s
  | _ => none

/-- The state that a step sets, as such or as that of the last of its events. -/
def status? : Revision → Option Status
  | status s => some s
  | events es => es.getLast?.map TaskEvent.status
  | _ => none

end Revision

variable {β : Type} {given : Revision → Option β} {steps : List Revision} {step : Revision}

/-- What the last of the steps gives that give anything. -/
def lastGiven (given : Revision → Option β) (steps : List Revision) : Option β :=
  (steps.filterMap given).getLast?

/-- The steps after the last one that sets the events. -/
def sinceEvents (steps : List Revision) : List Revision :=
  steps.rtakeWhile fun step => step.events?.isNone

/-- Without steps nothing is given. -/
@[simp] theorem lastGiven_nil : lastGiven given [] = none := rfl

/-- One more step gives what it gives, or else leaves what was given before it. -/
theorem lastGiven_concat :
    lastGiven given (steps ++ [step]) = (given step).or (lastGiven given steps) := by
  cases h : given step with
  | none => simp [lastGiven, List.filterMap_append, h]
  | some x => simp [lastGiven, List.filterMap_append, h]

/-- Nothing is given by steps of which none gives anything. -/
theorem lastGiven_eq_none (h : ∀ step ∈ steps, given step = none) :
    lastGiven given steps = none := by
  rw [lastGiven, List.filterMap_eq_nil_iff.2 h, List.getLast?_nil]

/-- A step that sets the events is the last one that does. -/
theorem sinceEvents_concat_events {es : List TaskEvent} :
    sinceEvents (steps ++ [.events es]) = [] :=
  List.rtakeWhile_concat_neg _ _ _ (by simp [Revision.events?])

/-- Any other step comes after the last one that sets the events. -/
theorem sinceEvents_concat (h : step.events? = none) :
    sinceEvents (steps ++ [step]) = sinceEvents steps ++ [step] :=
  List.rtakeWhile_concat_pos _ _ _ (by simp [h])

namespace TaskRecord

/-- The record after one step. -/
def revise (r : TaskRecord) : Revision → TaskRecord
  | .ancestor id => r.withAncestor id
  | .status status => r.withStatus status
  | .events events => r.withEvents events
  | .constraints constraints => r.withConfig (r.config.withConstraints constraints)

/-- The record after some steps, one after the other. -/
def revisedBy (r : TaskRecord) (steps : List Revision) : TaskRecord := steps.foldl revise r

variable {r : TaskRecord} {latest : TaskEvent}

/-- The last step is taken last. -/
theorem revisedBy_concat : r.revisedBy (steps ++ [step]) = (r.revisedBy steps).revise step := by
  rw [revisedBy, List.foldl_append]
  rfl

/-- If each step gives a field what it gives, or else leaves the field as it is, then after some
steps the field has what was given last. -/
theorem get_revisedBy (get : TaskRecord → Option β) (given : Revision → Option β)
    (hstep : ∀ r step, get (r.revise step) = (given step).or (get r)) (r : TaskRecord)
    (steps : List Revision) : get (r.revisedBy steps) = (lastGiven given steps).or (get r) := by
  induction steps using List.reverseRecOn with
  | nil => rfl
  | append_singleton steps step ih =>
    rw [revisedBy_concat, hstep, ih, lastGiven_concat, Option.or_assoc]

/-- A field that always has a value has what was given last, or else its first value. -/
theorem get_revisedBy_eq_getD (get : TaskRecord → β) (given : Revision → Option β)
    (hstep : ∀ r step, some (get (r.revise step)) = (given step).or (some (get r)))
    (r : TaskRecord) (steps : List Revision) :
    get (r.revisedBy steps) = (lastGiven given steps).getD (get r) := by
  have hrun := get_revisedBy (fun r => some (get r)) given hstep r steps
  rw [Option.or_some] at hrun
  exact Option.some.inj hrun

/-- A field that no step changes stays as it was. -/
theorem get_revisedBy_of_forall (get : TaskRecord → β)
    (hstep : ∀ r step, get (r.revise step) = get r) (r : TaskRecord) (steps : List Revision) :
    get (r.revisedBy steps) = get r := by
  have hrun := get_revisedBy_eq_getD get (fun _ => none)
    (fun r step => congrArg some (hstep r step)) r steps
  rwa [lastGiven_eq_none fun _ _ => rfl] at hrun

/-- The ancestor is given by each step that sets it. -/
theorem ancestor_revise (r : TaskRecord) (step : Revision) :
    (r.revise step).ancestor = step.ancestor?.or r.ancestor := by
  cases step <;> rfl

/-- The events are given by each step that sets them. -/
theorem events_revise (r : TaskRecord) (step : Revision) :
    some (r.revise step).events = step.events?.or (some r.events) := by
  cases step <;> rfl

/-- The constraints are given by each step that sets them. -/
theorem constraints_revise (r : TaskRecord) (step : Revision) :
    some (r.revise step).config.constraints =
      step.constraints?.or (some r.config.constraints) := by
  cases step <;> rfl

/-- The state is given by each step that sets it, and by the last event of each step that sets
some. -/
theorem status_revise (r : TaskRecord) (step : Revision) :
    some (r.revise step).status = step.status?.or (some r.status) := by
  cases step with
  | events es =>
    rw [Revision.status?, revise, withEvents]
    cases es.getLast? <;> rfl
  | _ => rfl

/-- The state is that of the last event, unless a step after the events has set another. -/
theorem status_of_latestEvent (hr : r.events = [])
    (hlatest : (r.revisedBy steps).latestEvent = some latest) :
    (r.revisedBy steps).status =
      (lastGiven Revision.ownStatus? (sinceEvents steps)).getD latest.status := by
  -- each step either starts the steps since the events anew or is one more of them
  induction steps using List.reverseRecOn with
  | nil =>
    have hnone : r.latestEvent = none := by rw [latestEvent, hr, List.getLast?_nil]
    cases hnone.symm.trans hlatest
  | append_singleton steps step ih =>
    rw [revisedBy_concat] at hlatest ⊢
    cases step with
    | events es =>
      have hes : es.getLast? = some latest := hlatest
      have hstatus := status_revise (r.revisedBy steps) (.events es)
      rw [Revision.status?, hes, Option.map_some, Option.some_or] at hstatus
      rw [sinceEvents_concat_events, lastGiven_nil, Option.getD_none]
      exact Option.some.inj hstatus
    | status s =>
      rw [sinceEvents_concat rfl, lastGiven_concat]
      rfl
    | ancestor id =>
      rw [sinceEvents_concat rfl, lastGiven_concat]
      exact ih hlatest
    | constraints cs =>
      rw [sinceEvents_concat rfl, lastGiven_concat]
      exact ih hlatest

/-- The check of a record finds a wrong state exactly if the events are ascending, there is a last
one, and after the step that set the events the state was set to another than that event's. -/
theorem validate_revisedBy_eq_statusMismatch_iff (hr : r.events = []) {found wanted : Status} :
    (r.revisedBy steps).validate = .error (.statusMismatch found wanted) ↔
      Ascending (r.revisedBy steps).events ∧
        (r.revisedBy steps).latestEvent.map TaskEvent.status = some wanted ∧
        lastGiven Revision.ownStatus? (sinceEvents steps) = some found ∧ found ≠ wanted := by
  rw [validate_eq_statusMismatch_iff, Option.map_eq_some_iff]
  refine and_congr_right fun _ => ?_
  constructor
  · rintro ⟨rfl, e, he, rfl, hne⟩
    have hstatus := status_of_latestEvent hr he
    refine ⟨⟨e, he, rfl⟩, ?_, Ne.symm hne⟩
    -- without a state of its own the record would have that of the event
    cases hown : lastGiven Revision.ownStatus? (sinceEvents steps) with
    | none =>
      rw [hown, Option.getD_none] at hstatus
      exact absurd hstatus.symm hne
    | some s =>
      rw [hown, Option.getD_some] at hstatus
      rw [hstatus]
  · rintro ⟨⟨e, he, rfl⟩, hfound, hne⟩
    have hstatus := status_of_latestEvent hr he
    rw [hfound, Option.getD_some] at hstatus
    exact ⟨hstatus.symm, e, he, rfl, by rwa [hstatus, ne_comm]⟩

/-- A record that was not given a state after its events can fail the check only by the order of the
events. -/
theorem exists_outOfOrder_of_validate_revisedBy (hr : r.events = [])
    (hnot : ∀ s, Revision.status s ∉ sinceEvents steps) {e : HistoryError}
    (he : (r.revisedBy steps).validate = .error e) :
    ∃ i previous current, e = .outOfOrder i previous current := by
  cases e with
  | outOfOrder i previous current => exact ⟨i, previous, current, rfl⟩
  | statusMismatch found wanted =>
    obtain ⟨-, -, hfound, -⟩ := (validate_revisedBy_eq_statusMismatch_iff hr).1 he
    have hnone : lastGiven Revision.ownStatus? (sinceEvents steps) = none := by
      refine lastGiven_eq_none fun step hstep => ?_
      cases step with
      | status s => exact absurd hstep (hnot s)
      | _ => rfl
    cases hnone.symm.trans hfound

/-- What becomes of a record, whatever the steps of its making are.

* The names of the task and of its job, and the number of the instance, are those of the start.
* The events, the ancestor and the constraints are what the last step set them to that set them.
* The state is that of the last step that set it, be it as such or by its last event, and else the
  first one.
* The check of the record finds a wrong state exactly if the events are ascending, there is a last
  one, and after the step that set the events the state was set to another than that event's. The
  error tells the state that was set last, and the last event's.
* So if the state was not set after the events, then the check can find nothing but events out of
  order. -/
theorem revisedBy_consistent (taskId : TaskId) (instanceId : UInt32) (config : TaskConfig)
    (status : Status) (steps : List Revision) :
    let r := (TaskRecord.new taskId instanceId config status).revisedBy steps
    (r.taskId = taskId ∧ r.instanceId = instanceId ∧ r.job = config.job) ∧
      (r.events = (lastGiven Revision.events? steps).getD [] ∧
        r.ancestor = lastGiven Revision.ancestor? steps ∧
        r.config.constraints =
          (lastGiven Revision.constraints? steps).getD config.constraints) ∧
      r.status = (lastGiven Revision.status? steps).getD status ∧
      (∀ found wanted, r.validate = .error (.statusMismatch found wanted) ↔
        Ascending r.events ∧ r.latestEvent.map TaskEvent.status = some wanted ∧
          lastGiven Revision.ownStatus? (sinceEvents steps) = some found ∧ found ≠ wanted) ∧
      ((∀ s, Revision.status s ∉ sinceEvents steps) →
        ∀ e, r.validate = .error e → ∃ i previous current, e = .outOfOrder i previous current) := by
  intro r
  have hevents : (TaskRecord.new taskId instanceId config status).events = [] := rfl
  refine ⟨⟨?_, ?_, ?_⟩, ⟨?_, ?_, ?_⟩, ?_, ?_, ?_⟩
  · exact get_revisedBy_of_forall TaskRecord.taskId (fun _ step => by cases step <;> rfl) _ steps
  · exact get_revisedBy_of_forall TaskRecord.instanceId (fun _ step => by cases step <;> rfl) _
      steps
  · exact get_revisedBy_of_forall job (fun _ step => by cases step <;> rfl) _ steps
  · exact get_revisedBy_eq_getD events Revision.events? events_revise _ steps
  · have hrun := get_revisedBy ancestor Revision.ancestor? ancestor_revise
      (TaskRecord.new taskId instanceId config status) steps
    exact hrun.trans Option.or_none
  · exact get_revisedBy_eq_getD (fun r => r.config.constraints) Revision.constraints?
      constraints_revise _ steps
  · exact get_revisedBy_eq_getD TaskRecord.status Revision.status? status_revise _ steps
  · exact fun found wanted => validate_revisedBy_eq_statusMismatch_iff hevents
  · exact fun hnot e => exists_outOfOrder_of_validate_revisedBy hevents hnot

/-- A task that ran and finished fails the check if its state is set to another one after its events
were, but not if it was set before. -/
theorem revisedBy_consistent_ranAndFinished :
    let events : Revision := .events [⟨.running, 1⟩, ⟨.finished, 5⟩]
    let r := TaskRecord.new ⟨"a", by decide⟩ 0 ⟨Sample.job, []⟩ .pending
    let lost := [events, .status .lost, .ancestor ⟨"b", by decide⟩]
    let found := [.status .lost, events, .ancestor ⟨"b", by decide⟩]
    (r.revisedBy lost).validate = .error (.statusMismatch .lost .finished) ∧
      (∀ s, Revision.status s ∉ sinceEvents found) ∧
      ∀ e, (r.revisedBy found).validate = .error e →
        ∃ i previous current, e = .outOfOrder i previous current := by
  intro events r lost found
  obtain ⟨-, -, -, hcheck, -⟩ :=
    revisedBy_consistent ⟨"a", by decide⟩ 0 ⟨Sample.job, []⟩ .pending lost
  obtain ⟨-, -, -, -, horder⟩ :=
    revisedBy_consistent ⟨"a", by decide⟩ 0 ⟨Sample.job, []⟩ .pending found
  have hnot : ∀ s, Revision.status s ∉ sinceEvents found := by
    intro s hs
    cases List.mem_singleton.1 hs
  have hascending : Ascending [⟨.running, 1⟩, ⟨.finished, 5⟩] :=
    ascending_iff_pairwise.2 (List.pairwise_pair.2 (by decide : (1 : Int64) < 5))
  exact ⟨(hcheck .lost .finished).2 ⟨hascending, rfl, rfl, by decide⟩, hnot, horder hnot⟩

end TaskRecord

end Scheduling
