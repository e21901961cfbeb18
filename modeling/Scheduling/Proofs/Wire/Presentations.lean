import Scheduling.Proofs.Wire.Documents
import Scheduling.Proofs.Wire.Forms
import Scheduling.Sample

/-!
# Presentations of records of tasks

A record of a task is one value however its document presents it. At every level its fields may
stand in any order, with unknown fields anywhere between them, or as the bare list of their values
in the order in which they are declared; `null` may stand for what is absent; what holds its default
may be left out; and sets may list their members in any order and repeat them. The forms below allow
all of this, level by level, and the layouts are read in these forms by the theorem on forms of
layouts. `decodeText_of_hasText` is what follows for texts: each text of each presentation is read
as the record, so writing the record again gives its one compact text.
-/

namespace Scheduling.Wire

open Codec
open Json (ofString ofInt)

/-! ## Constraints -/

/-- The presentations of value constraints: their values are a set. -/
def valueConstraintForm : Form ValueConstraint :=
  valueConstraintLayout.Presents fun
    | .negated => boolean.written
    | .values => .stringSet

/-- Value constraints are read from their presentations. -/
theorem reads_valueConstraint : valueConstraint.Reads valueConstraintForm :=
  isFaithful_valueConstraintLayout.reads fun
    | .negated => isFaithful_boolean.lawful.reads
    | .values => reads_stringSet

/-- The presentations of limit constraints. -/
def limitConstraintForm : Form LimitConstraint :=
  limitConstraintLayout.Presents fun
    | .limit => unsigned32.written

/-- Limit constraints are read from their presentations. -/
theorem reads_limitConstraint : limitConstraint.Reads limitConstraintForm :=
  isFaithful_limitConstraintLayout.reads fun
    | .limit => isFaithful_unsigned32.lawful.reads

/-- The presentations of bodies of constraints: an absent case is `null` or left out. -/
def taskConstraintForm : Form TaskConstraint :=
  taskConstraintLayout.Presents fun
    | .value => valueConstraintForm.optional
    | .limit => limitConstraintForm.optional

/-- Bodies of constraints are read from their presentations. -/
theorem reads_taskConstraint : taskConstraint.Reads taskConstraintForm :=
  isFaithful_taskConstraintLayout.reads fun
    | .value => reads_valueConstraint.optional Layout.not_presents_null
    | .limit => reads_limitConstraint.optional Layout.not_presents_null

/-- The presentations of constraints. -/
def constraintForm : Form Constraint :=
  constraintLayout.Presents fun
    | .name => string.written
    | .constraint => taskConstraintForm

/-- Constraints are read from their presentations. -/
theorem reads_constraint : constraint.Reads constraintForm :=
  isFaithful_constraintLayout.reads fun
    | .name => isFaithful_string.lawful.reads
    | .constraint => reads_taskConstraint

/-! ## Tasks -/

/-- The presentations of events. -/
def taskEventForm : Form TaskEvent :=
  taskEventLayout.Presents fun
    | .status => status.written
    | .timestampMs => signed64.written

/-- Events are read from their presentations. -/
theorem reads_taskEvent : taskEvent.Reads taskEventForm :=
  isFaithful_taskEventLayout.reads fun
    | .status => isFaithful_status.lawful.reads
    | .timestampMs => isFaithful_signed64.lawful.reads

/-- The presentations of configurations of tasks: constraints may be left out if there are none. -/
def taskConfigForm : Form TaskConfig :=
  taskConfigLayout.Presents fun
    | .job => jobKey.written
    | .constraints => constraintForm.list

/-- Configurations of tasks are read from their presentations. -/
theorem reads_taskConfig : taskConfig.Reads taskConfigForm :=
  isFaithful_taskConfigLayout.reads fun
    | .job => isFaithful_jobKey.lawful.reads
    | .constraints => reads_constraint.list

/-- The presentations of records of tasks: an absent ancestor is `null` or left out, and events may
be left out if there are none. -/
def taskRecordForm : Form TaskRecord :=
  taskRecordLayout.Presents fun
    | .taskId => taskId.written
    | .instanceId => unsigned32.written
    | .config => taskConfigForm
    | .status => status.written
    | .ancestor => taskId.written.optional
    | .events => taskEventForm.list

/-- Records of tasks are read from their presentations. -/
theorem reads_taskRecord : taskRecord.Reads taskRecordForm :=
  isFaithful_taskRecordLayout.reads fun
    | .taskId => isFaithful_taskId.lawful.reads
    | .instanceId => isFaithful_unsigned32.lawful.reads
    | .config => reads_taskConfig
    | .status => isFaithful_status.lawful.reads
    | .ancestor => isFaithful_taskId.lawful.reads.optional fun _ => nofun
    | .events => reads_taskEvent.list

/-- How a record of a task is presented makes no difference. Its compact text is a text of a
presentation of it, and from every text of every presentation of it the record is read, so that
writing what is read gives the compact text again. -/
theorem decodeText_of_hasText (r : TaskRecord) :
    taskRecordForm.HasText r (taskRecord.encodeText r) ∧
      ∀ text, taskRecordForm.HasText r text →
        taskRecord.decodeText text = .ok r ∧
          taskRecord.encodeText <$> taskRecord.decodeText text = .ok (taskRecord.encodeText r) := by
  refine ⟨reads_taskRecord.hasText_encodeText isFaithful_taskRecord r, fun text htext => ?_⟩
  have hdecode := reads_taskRecord.decodeText_eq htext
  refine ⟨hdecode, ?_⟩
  rw [hdecode]
  rfl

/-! ### A text of another presentation -/

/-- Two racks, one of them twice; that they are wanted is left unsaid. -/
def racks : Json := .record [(some "values", .list (["b", "a", "b"].map ofString))]

/-- The constraint to these racks, as a list of which the second item is a list. -/
def rackConstraint : Json := .list [ofString "rack", .list [racks, .null]]

/-- A field that no configuration has. In it the name of one that they have stands twice. -/
def note : Option String × Json :=
  (some "note", .record [(some "job", .number ⟨false, ['1'], [], some (false, ['3'])⟩),
    (some "job", .null)])

/-- A configuration whose fields come in reverse, with the note between them. -/
def rackConfig : Json :=
  .record [(some "constraints", .list [rackConstraint]), note,
    (some "job", ofString "role/devel/job")]

/-- A record of a task as a list that ends before the events. -/
def rackTask : Json :=
  .list [ofString "t", ofInt 7, rackConfig, ofString "RUNNING", .null]

/-- The list presents the constraint to the racks `a` and `b`. -/
theorem constraintForm_rackConstraint :
    constraintForm ⟨"rack", .ofValues false ["a", "b"]⟩ rackConstraint := by
  have hracks : valueConstraintForm ⟨false, .ofList ["a", "b"]⟩ racks := by
    have hmixes : valueConstraintLayout.Mixes
        (fun
          | .negated => none
          | .values => some (.list (["b", "a", "b"].map ofString)))
        [(some "values", .list (["b", "a", "b"].map ofString))] := ⟨[], by simp, .refl _⟩
    refine .record hmixes ?_ ?_
    · rintro (_ | _) w hw <;> cases hw
      refine ⟨["b", "a", "b"], rfl, fun x => ?_⟩
      show _ ↔ x ∈ SortedSet.ofList ["a", "b"]
      simp only [List.mem_cons, List.not_mem_nil, SortedSet.mem_ofList]
      tauto
    · rintro (_ | _) hnone <;> cases hnone
      rfl
  have hcases : taskConstraintLayout.fields = [.value, .limit] ++ [] := rfl
  have hbody : taskConstraintForm (.ofValues false ["a", "b"]) (.list [racks, .null]) :=
    .list hcases (.cons hracks (.cons rfl .nil)) nofun
  have hfields : constraintLayout.fields = [.name, .constraint] ++ [] := rfl
  exact .list hfields (.cons rfl (.cons hbody .nil)) nofun

/-- The record of fields presents the configuration with this constraint. -/
theorem taskConfigForm_rackConfig :
    taskConfigForm ⟨Sample.job, [⟨"rack", .ofValues false ["a", "b"]⟩]⟩ rackConfig := by
  have hmixes : taskConfigLayout.Mixes
      (fun
        | .job => some (ofString "role/devel/job")
        | .constraints => some (.list [rackConstraint]))
      [(some "constraints", .list [rackConstraint]), note,
        (some "job", ofString "role/devel/job")] := by
    refine ⟨[note], fun field hfield => ?_, @List.perm_append_comm _ [_, note] [_]⟩
    obtain rfl := List.mem_singleton.1 hfield
    exact ⟨"note", rfl, by rintro (_ | _) <;> decide, rfl⟩
  refine .record hmixes ?_ (by rintro (_ | _) hnone <;> cases hnone)
  rintro (_ | _) w hw <;> cases hw
  · rfl
  · exact ⟨_, rfl, .cons constraintForm_rackConstraint .nil⟩

/-- A text with blanks, of a document in which lists stand for records, fields are out of order,
unknown, absent or `null`, and a value is repeated. -/
theorem decodeText_of_hasText_rackTask :
    let r : TaskRecord := .new ⟨"t", by decide⟩ 7
      ⟨Sample.job, [⟨"rack", .ofValues false ["a", "b"]⟩]⟩ .running
    let text := " [ \"t\" , 7 , \x7b \"constraints\" : [ [ \"rack\" , [ \x7b \"values\" :" ++
      " [ \"b\" , \"a\" , \"b\" ] \x7d , null ] ] ] , \"note\" : \x7b \"job\" : 1e3 ," ++
      " \"job\" : null \x7d , \"job\" : \"role/devel/job\" \x7d , \"RUNNING\" , null ]"
    taskRecordForm.HasText r text ∧ taskRecord.decodeText text = .ok r ∧
      taskRecord.encodeText <$> taskRecord.decodeText text = .ok (taskRecord.encodeText r) := by
  intro r text
  have hfields : taskRecordLayout.fields
      = [.taskId, .instanceId, .config, .status, .ancestor] ++ [.events] := rfl
  have hform : taskRecordForm r rackTask := by
    refine .list hfields ?_ fun f hf => ?_
    · exact .cons rfl (.cons rfl (.cons taskConfigForm_rackConfig (.cons rfl (.cons rfl .nil))))
    · obtain rfl := List.mem_singleton.1 hf
      rfl
  have hwritable : rackTask.IsWritable := by
    have hnumeral : (⟨false, ['1'], [], some (false, ['3'])⟩ : Numeral).IsWellFormed := by
      constructor <;> simp [Numeral.AreDigits]
    refine ⟨rfl, ?_⟩
    simp only [rackTask, rackConfig, rackConstraint, racks, note, ofString, ofInt, List.map,
      Json.tokenList, Json.itemTokens, Json.fieldTokens, List.cons_append, List.nil_append,
      List.forall_mem_cons, Json.Token.IsProper, Numeral.isWellFormed_ofInt, hnumeral]
    simp
  have hspelt : text.toList = rackTask.tokenList.flatMap fun t => [' '] ++ t.spelling := by
    simp only [text, String.toList_append]
    cbv
  have htext : taskRecordForm.HasText r text := by
    refine ⟨rackTask, hform, ?_⟩
    rw [hspelt]
    exact hwritable.hasText_flatMap (fun _ => [' ']) (by simp [Json.AreBlanks, Json.isSpace])
  exact ⟨htext, (decodeText_of_hasText r).2 text htext⟩

end Scheduling.Wire
