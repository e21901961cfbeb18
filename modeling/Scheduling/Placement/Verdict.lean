import Scheduling.Placement.Aggregate
import Scheduling.Placement.Veto

/-!
# Verdicts on hosts

Whether one constraint rejects one host, as `veto` of `berth-filter` decides it. The host's
attributes of the constraint's name are taken together, as one set of values; a limit cannot be
checked on a host without such an attribute, and so rejects it.
-/

namespace Scheduling

/-- The body of a constraint is of no known kind, so there is no verdict (`FilterError`). -/
structure UnrecognizedConstraint where
  cause : MalformedConstraint
  deriving DecidableEq, Repr

/-- The wording of the error. -/
def UnrecognizedConstraint.message (e : UnrecognizedConstraint) : String :=
  "failed to recognize the constraint type: " ++ e.cause.message

namespace Placement

/-- The observed values have one in common with the constraint's, or none if it is negated
(`matches_value`). -/
def matchesValue (observed : ValueSet) (c : ValueConstraint) : Bool :=
  (observed.toList.any fun value => decide (value ∈ c.values)) != c.negated

/-- Each value of the attribute `name` is held by fewer than `limit` instances (`matches_limit`). -/
def matchesLimit (aggregate : Aggregate) (name : String) (values : List String) (limit : UInt32) :
    Bool :=
  values.all fun value => aggregate name value < limit.toUInt64

/-- The attributes called `name`. -/
def named (host : Host) (name : String) : List Attribute :=
  host.filter fun a => a.name = name

/-- The values of some attributes together. -/
def observed (attributes : List Attribute) : ValueSet :=
  attributes.foldl (fun values a => values.union a.values) .empty

/-- The veto, if any, that a constraint casts against a host (`veto`). What `veto` keeps in its loop
over the host's attributes is whether there is one of the name, and the union of their values. -/
def veto (aggregate : Aggregate) (host : Host) (c : Constraint) :
    Except UnrecognizedConstraint (Option Veto) :=
  match c.kind with
  | .error cause => .error ⟨cause⟩
  | .ok kind =>
    let attributes := named host c.name
    let values := observed attributes
    .ok <| match kind with
      | .value wanted =>
        if matchesValue values wanted then none else some ⟨.constraintMismatch, c.name⟩
      | .limit bound =>
        if !attributes.isEmpty && matchesLimit aggregate c.name values.toList bound.limit then none
        else some ⟨.unsatisfiedLimit, c.name⟩

end Placement

end Scheduling
