import Scheduling.Placement.Constraint
import Scheduling.Placement.Veto
import Scheduling.Wire.Layout

/-!
# Documents of attributes, constraints and vetoes

The layouts of the types that placement is about, and their codecs, with the fields, defaults and
omissions that their declarations in `berth-model` give. The two cases of a constraint's body are
left out when they are empty; a value constraint is not negated unless it says so.
-/

namespace Scheduling.Wire

/-! ## Attributes -/

/-- The fields of an attribute. -/
inductive AttributeField where
  | name
  | values
  deriving DecidableEq

/-- The types of an attribute's fields. -/
abbrev AttributeField.Slot : AttributeField → Type
  | name => String
  | values => ValueSet

/-- The layout of an attribute. -/
def attributeLayout : Layout Attribute where
  title := "Attribute"
  Field := AttributeField
  fields := [.name, .values]
  mem_fields f := by cases f <;> simp
  name
    | .name => "name"
    | .values => "values"
  nodup_names := by decide
  Slot := AttributeField.Slot
  codec
    | .name => .string
    | .values => .stringSet
  fallback _ := none
  isOmitted _ _ := false
  get a
    | .name => a.name
    | .values => a.values
  build v := ⟨v .name, v .values⟩

/-! ## Constraints -/

/-- The fields of a value constraint. -/
inductive ValueConstraintField where
  | negated
  | values
  deriving DecidableEq

/-- The types of a value constraint's fields. -/
abbrev ValueConstraintField.Slot : ValueConstraintField → Type
  | negated => Bool
  | values => ValueSet

/-- The layout of a value constraint. -/
def valueConstraintLayout : Layout ValueConstraint where
  title := "ValueConstraint"
  Field := ValueConstraintField
  fields := [.negated, .values]
  mem_fields f := by cases f <;> simp
  name
    | .negated => "negated"
    | .values => "values"
  nodup_names := by decide
  Slot := ValueConstraintField.Slot
  codec
    | .negated => .boolean
    | .values => .stringSet
  fallback
    | .negated => some false
    | .values => none
  isOmitted _ _ := false
  get c
    | .negated => c.negated
    | .values => c.values
  build v := ⟨v .negated, v .values⟩

/-- The field of a limit constraint. -/
inductive LimitConstraintField where
  | limit
  deriving DecidableEq

/-- The type of a limit constraint's field. -/
abbrev LimitConstraintField.Slot : LimitConstraintField → Type
  | limit => UInt32

/-- The layout of a limit constraint. -/
def limitConstraintLayout : Layout LimitConstraint where
  title := "LimitConstraint"
  Field := LimitConstraintField
  fields := [.limit]
  mem_fields f := by cases f; simp
  name _ := "limit"
  nodup_names := by decide
  Slot := LimitConstraintField.Slot
  codec
    | .limit => .unsigned32
  fallback _ := none
  isOmitted _ _ := false
  get c
    | .limit => c.limit
  build v := ⟨v .limit⟩

/-- The fields of a constraint's body. -/
inductive TaskConstraintField where
  | value
  | limit
  deriving DecidableEq

/-- The types of the fields of a constraint's body. -/
abbrev TaskConstraintField.Slot : TaskConstraintField → Type
  | value => Option ValueConstraint
  | limit => Option LimitConstraint

/-- The layout of a constraint's body. -/
def taskConstraintLayout : Layout TaskConstraint where
  title := "TaskConstraint"
  Field := TaskConstraintField
  fields := [.value, .limit]
  mem_fields f := by cases f <;> simp
  name
    | .value => "value"
    | .limit => "limit"
  nodup_names := by decide
  Slot := TaskConstraintField.Slot
  codec
    | .value => valueConstraintLayout.toCodec.optional
    | .limit => limitConstraintLayout.toCodec.optional
  fallback
    | .value => some none
    | .limit => some none
  isOmitted
    | .value, v => v.isNone
    | .limit, v => v.isNone
  get c
    | .value => c.value
    | .limit => c.limit
  build v := ⟨v .value, v .limit⟩

/-- The fields of a constraint. -/
inductive ConstraintField where
  | name
  | constraint
  deriving DecidableEq

/-- The types of a constraint's fields. -/
abbrev ConstraintField.Slot : ConstraintField → Type
  | name => String
  | constraint => TaskConstraint

/-- The layout of a constraint. -/
def constraintLayout : Layout Constraint where
  title := "Constraint"
  Field := ConstraintField
  fields := [.name, .constraint]
  mem_fields f := by cases f <;> simp
  name
    | .name => "name"
    | .constraint => "constraint"
  nodup_names := by decide
  Slot := ConstraintField.Slot
  codec
    | .name => .string
    | .constraint => taskConstraintLayout.toCodec
  fallback _ := none
  isOmitted _ _ := false
  get c
    | .name => c.name
    | .constraint => c.body
  build v := ⟨v .name, v .constraint⟩

/-! ## Vetoes -/

/-- The fields of a veto. -/
inductive VetoField where
  | vetoType
  | constraintName
  deriving DecidableEq

/-- The types of a veto's fields. -/
abbrev VetoField.Slot : VetoField → Type
  | vetoType => VetoType
  | constraintName => String

/-- Reasons of vetoes, by name. -/
def vetoType : Codec VetoType := .variant VetoType.all VetoType.name

/-- The layout of a veto. -/
def vetoLayout : Layout Veto where
  title := "Veto"
  Field := VetoField
  fields := [.vetoType, .constraintName]
  mem_fields f := by cases f <;> simp
  name
    | .vetoType => "veto_type"
    | .constraintName => "constraint_name"
  nodup_names := by decide
  Slot := VetoField.Slot
  codec
    | .vetoType => vetoType
    | .constraintName => .string
  fallback _ := none
  isOmitted _ _ := false
  get v
    | .vetoType => v.vetoType
    | .constraintName => v.constraintName
  build v := ⟨v .vetoType, v .constraintName⟩

/-! ## Codecs -/

/-- Attributes. -/
def hostAttribute : Codec Attribute := attributeLayout.toCodec

/-- Value constraints. -/
def valueConstraint : Codec ValueConstraint := valueConstraintLayout.toCodec

/-- Limit constraints. -/
def limitConstraint : Codec LimitConstraint := limitConstraintLayout.toCodec

/-- Bodies of constraints. -/
def taskConstraint : Codec TaskConstraint := taskConstraintLayout.toCodec

/-- Constraints. -/
def constraint : Codec Constraint := constraintLayout.toCodec

/-- Vetoes. -/
def veto : Codec Veto := vetoLayout.toCodec

end Scheduling.Wire
