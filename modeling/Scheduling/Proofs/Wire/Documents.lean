import Scheduling.Proofs.Wire.Layouts
import Scheduling.Wire.Task

/-!
# Documents of placement and of tasks read back

Names, states and reasons are read back because their texts lead back to them, and each layout of
`Wire/Placement.lean` and `Wire/Task.lean` is faithful because its fields are and because what it
leaves out is what an absent field stands for. `documents_roundTrip` says what follows for the
texts: the compact text of any value of any of the types is read as that value, and the reading ends
where the text ends.
-/

namespace Scheduling.Wire

open Codec

/-! ## Names and named values -/

/-- Names of jobs are read back. -/
theorem isFaithful_jobKey : jobKey.IsFaithful := isFaithful_named JobKey.parse_text

/-- Names of tasks are read back. -/
theorem isFaithful_taskId : taskId.IsFaithful := isFaithful_named TaskId.parse_text

/-- States are read back. -/
theorem isFaithful_status : status.IsFaithful := isFaithful_variant Status.mem_all (by decide)

/-- Reasons of vetoes are read back. -/
theorem isFaithful_vetoType : vetoType.IsFaithful :=
  isFaithful_variant (fun t => by cases t <;> decide) (by decide)

/-! ## Records -/

/-- The layout of attributes is faithful. -/
theorem isFaithful_attributeLayout : attributeLayout.IsFaithful where
  codec
    | .name => isFaithful_string
    | .values => isFaithful_stringSet
  build_get _ := rfl
  fallback_of_isOmitted := nofun

/-- Attributes are read back. -/
theorem isFaithful_hostAttribute : hostAttribute.IsFaithful := isFaithful_attributeLayout.toCodec

/-- The layout of value constraints is faithful. -/
theorem isFaithful_valueConstraintLayout : valueConstraintLayout.IsFaithful where
  codec
    | .negated => isFaithful_boolean
    | .values => isFaithful_stringSet
  build_get _ := rfl
  fallback_of_isOmitted := nofun

/-- Value constraints are read back. -/
theorem isFaithful_valueConstraint : valueConstraint.IsFaithful :=
  isFaithful_valueConstraintLayout.toCodec

/-- The layout of limit constraints is faithful. -/
theorem isFaithful_limitConstraintLayout : limitConstraintLayout.IsFaithful where
  codec
    | .limit => isFaithful_unsigned32
  build_get _ := rfl
  fallback_of_isOmitted := nofun

/-- Limit constraints are read back. -/
theorem isFaithful_limitConstraint : limitConstraint.IsFaithful :=
  isFaithful_limitConstraintLayout.toCodec

/-- The layout of bodies of constraints is faithful. -/
theorem isFaithful_taskConstraintLayout : taskConstraintLayout.IsFaithful where
  codec
    | .value => isFaithful_valueConstraint.optional Layout.encode_ne_null
    | .limit => isFaithful_limitConstraint.optional Layout.encode_ne_null
  build_get _ := rfl
  fallback_of_isOmitted
    | .value, none, _ => rfl
    | .limit, none, _ => rfl

/-- Bodies of constraints are read back, whichever of their two cases are there. -/
theorem isFaithful_taskConstraint : taskConstraint.IsFaithful :=
  isFaithful_taskConstraintLayout.toCodec

/-- The layout of constraints is faithful. -/
theorem isFaithful_constraintLayout : constraintLayout.IsFaithful where
  codec
    | .name => isFaithful_string
    | .constraint => isFaithful_taskConstraint
  build_get _ := rfl
  fallback_of_isOmitted := nofun

/-- Constraints are read back. -/
theorem isFaithful_constraint : constraint.IsFaithful := isFaithful_constraintLayout.toCodec

/-- The layout of vetoes is faithful. -/
theorem isFaithful_vetoLayout : vetoLayout.IsFaithful where
  codec
    | .vetoType => isFaithful_vetoType
    | .constraintName => isFaithful_string
  build_get _ := rfl
  fallback_of_isOmitted := nofun

/-- Vetoes are read back. -/
theorem isFaithful_veto : veto.IsFaithful := isFaithful_vetoLayout.toCodec

/-- The layout of events is faithful. -/
theorem isFaithful_taskEventLayout : taskEventLayout.IsFaithful where
  codec
    | .status => isFaithful_status
    | .timestampMs => isFaithful_signed64
  build_get _ := rfl
  fallback_of_isOmitted := nofun

/-- Events are read back, whatever their time. -/
theorem isFaithful_taskEvent : taskEvent.IsFaithful := isFaithful_taskEventLayout.toCodec

/-- The layout of configurations of tasks is faithful. -/
theorem isFaithful_taskConfigLayout : taskConfigLayout.IsFaithful where
  codec
    | .job => isFaithful_jobKey
    | .constraints => isFaithful_constraint.list
  build_get _ := rfl
  fallback_of_isOmitted := nofun

/-- Configurations of tasks are read back. -/
theorem isFaithful_taskConfig : taskConfig.IsFaithful := isFaithful_taskConfigLayout.toCodec

/-- The layout of records of tasks is faithful. -/
theorem isFaithful_taskRecordLayout : taskRecordLayout.IsFaithful where
  codec
    | .taskId => isFaithful_taskId
    | .instanceId => isFaithful_unsigned32
    | .config => isFaithful_taskConfig
    | .status => isFaithful_status
    | .ancestor => isFaithful_taskId.optional fun _ => nofun
    | .events => isFaithful_taskEvent.list
  build_get _ := rfl
  fallback_of_isOmitted
    | .ancestor, none, _ => rfl

/-- Records of tasks are read back, with an ancestor or without. -/
theorem isFaithful_taskRecord : taskRecord.IsFaithful := isFaithful_taskRecordLayout.toCodec

/-- For every type that has documents, the compact text of any value is the text of one JSON value
to its end, and is read back as the value. -/
theorem documents_roundTrip :
    jobKey.RoundTrips ∧ taskId.RoundTrips ∧ status.RoundTrips ∧ taskEvent.RoundTrips ∧
      taskConfig.RoundTrips ∧ taskRecord.RoundTrips ∧ hostAttribute.RoundTrips ∧
      valueConstraint.RoundTrips ∧ limitConstraint.RoundTrips ∧ taskConstraint.RoundTrips ∧
      constraint.RoundTrips ∧ vetoType.RoundTrips ∧ veto.RoundTrips :=
  ⟨isFaithful_jobKey.roundTrips, isFaithful_taskId.roundTrips, isFaithful_status.roundTrips,
    isFaithful_taskEvent.roundTrips, isFaithful_taskConfig.roundTrips,
    isFaithful_taskRecord.roundTrips, isFaithful_hostAttribute.roundTrips,
    isFaithful_valueConstraint.roundTrips, isFaithful_limitConstraint.roundTrips,
    isFaithful_taskConstraint.roundTrips, isFaithful_constraint.roundTrips,
    isFaithful_vetoType.roundTrips, isFaithful_veto.roundTrips⟩

-- an absent case of a body is left out, and a string has no more escapes than it needs
example : taskConstraint.encodeText ⟨none, some ⟨3⟩⟩ = "\x7b\"limit\":\x7b\"limit\":3\x7d\x7d" := by
  cbv

example : veto.encodeText ⟨.unsatisfiedLimit, "é\"\x01"⟩ =
    "\x7b\"veto_type\":\"UNSATISFIED_LIMIT\",\"constraint_name\":\"é\\\"\\u0001\"\x7d" := by
  cbv

end Scheduling.Wire
