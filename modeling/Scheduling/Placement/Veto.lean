/-!
# Vetoes

The verdict that a host is not acceptable to one constraint, and its explanation: `Veto` and
`VetoType` of `berth-model`.
-/

namespace Scheduling

/-- Why a host is rejected. -/
inductive VetoType where
  /-- The host's attribute values do not match. -/
  | constraintMismatch
  /-- A limit is reached, or cannot be checked on the host. -/
  | unsatisfiedLimit
  deriving DecidableEq, Repr

/-- The name of a reason in documents. -/
def VetoType.name : VetoType → String
  | .constraintMismatch => "CONSTRAINT_MISMATCH"
  | .unsatisfiedLimit => "UNSATISFIED_LIMIT"

/-- The reasons, in the order in which they are listed. -/
def VetoType.all : List VetoType := [.constraintMismatch, .unsatisfiedLimit]

/-- The constraint called `constraintName` rejects a host. -/
structure Veto where
  vetoType : VetoType
  constraintName : String
  deriving DecidableEq, Repr

/-- The explanation given to the job's owner (`reason`). -/
def Veto.reason (v : Veto) : String :=
  match v.vetoType with
  | .constraintMismatch => "Constraint not satisfied: " ++ v.constraintName
  | .unsatisfiedLimit => "Limit not satisfied: " ++ v.constraintName

end Scheduling
