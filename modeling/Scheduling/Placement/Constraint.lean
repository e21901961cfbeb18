import Scheduling.SortedSet

/-!
# Host attributes and placement constraints

A host reports named attributes, each a set of values; a constraint refers to the attributes of its
name. As it arrives with a job, the body of a constraint has a place for each of its two cases, and
`TaskConstraint.kind` finds the one that is filled or says what is wrong. The types have the names
that they have in `berth-model`.
-/

namespace Scheduling

/-- A set of attribute values. -/
abbrev ValueSet := SortedSet String

/-- A named set of values that a host reports. -/
structure Attribute where
  name : String
  values : ValueSet
  deriving DecidableEq

/-- The attribute with the values of a list (`new`). -/
def Attribute.ofList (name : String) (values : List String) : Attribute :=
  ⟨name, SortedSet.ofList values⟩

/-- The attributes of one host. -/
abbrev Host := List Attribute

/-- Asks for a value in common with a set, or for none if it is negated. -/
structure ValueConstraint where
  negated : Bool
  values : ValueSet
  deriving DecidableEq

/-- Bounds the number of a job's instances that may share one attribute value. -/
structure LimitConstraint where
  limit : UInt32
  deriving DecidableEq

/-- The body of a constraint as it arrives; one of its two places should be filled. -/
structure TaskConstraint where
  value : Option ValueConstraint
  limit : Option LimitConstraint
  deriving DecidableEq

/-- The one case of a well-formed body. -/
inductive ConstraintKind where
  | value (constraint : ValueConstraint)
  | limit (constraint : LimitConstraint)
  deriving DecidableEq

/-- What is wrong with a body. -/
inductive Misshape where
  /-- Both places are filled. -/
  | both
  /-- No place is filled. -/
  | neither
  deriving DecidableEq, Repr

/-- The wording of a misshape. -/
def Misshape.detail : Misshape → String
  | .both => "both value and limit are set"
  | .neither => "neither value nor limit is set"

/-- The constraint called `name` has a body of neither kind (`ModelError`). -/
structure MalformedConstraint where
  name : String
  misshape : Misshape
  deriving DecidableEq, Repr

/-- The wording of the error. -/
def MalformedConstraint.message (e : MalformedConstraint) : String :=
  "constraint '" ++ e.name ++ "' has an unrecognized shape: " ++ e.misshape.detail

namespace TaskConstraint

/-- A body that asks for a value of a list, or for none of them (`value`). -/
def ofValues (negated : Bool) (values : List String) : TaskConstraint :=
  ⟨some ⟨negated, SortedSet.ofList values⟩, none⟩

/-- A body that sets a limit (`limit`). -/
def ofLimit (limit : UInt32) : TaskConstraint := ⟨none, some ⟨limit⟩⟩

/-- The one filled case (`kind`); `name` only labels the error. -/
def kind (body : TaskConstraint) (name : String) : Except MalformedConstraint ConstraintKind :=
  match body.value, body.limit with
  | some value, none => .ok (.value value)
  | none, some limit => .ok (.limit limit)
  | some _, some _ => .error ⟨name, .both⟩
  | none, none => .error ⟨name, .neither⟩

end TaskConstraint

/-- A constraint on the attributes called `name`. -/
structure Constraint where
  name : String
  body : TaskConstraint
  deriving DecidableEq

/-- The one filled case of a constraint's body. -/
def Constraint.kind (c : Constraint) : Except MalformedConstraint ConstraintKind :=
  c.body.kind c.name

end Scheduling
