import Scheduling.Proofs.Placement.Limit

/-!
# What a verdict depends on

`veto_eq` gives the verdict on a host for each of the four shapes that the body of a constraint can
have. All that it says of the host is whether it reports the constraint's attribute, and which
values of it the host carries. So hosts that agree on this have the same verdict
(`veto_congr`): other attributes, the order of the attributes, and how the values are spread over
attributes of one name do not count.
-/

namespace Scheduling

/-- The host carries, in the attribute called `name`, a value that the constraint asks for. -/
def ValueConstraint.Overlaps (wanted : ValueConstraint) (name : String) (host : Host) : Prop :=
  ∃ value, host.Carries name value ∧ value ∈ wanted.values

instance (wanted : ValueConstraint) (name : String) (host : Host) :
    Decidable (wanted.Overlaps name host) :=
  decidable_of_iff (∃ value ∈ wanted.values.toList, host.Carries name value) <| by
    simp only [ValueConstraint.Overlaps, SortedSet.mem_toList, and_comm]

/-- The host carries, in the attribute called `name`, a value whose count is not below the limit. -/
def LimitConstraint.Reached (bound : LimitConstraint) (aggregate : Aggregate) (name : String)
    (host : Host) : Prop :=
  ∃ value, host.Carries name value ∧ bound.limit.toNat ≤ (aggregate name value).toNat

instance (bound : LimitConstraint) (aggregate : Aggregate) (name : String) (host : Host) :
    Decidable (bound.Reached aggregate name host) :=
  decidable_of_iff (∃ entry ∈ host.entries,
      entry.1 = name ∧ bound.limit.toNat ≤ (aggregate name entry.2).toNat) <| by
    simp only [LimitConstraint.Reached, ← Host.mem_entries, Prod.exists]
    constructor
    · rintro ⟨_, value, hmem, rfl, hle⟩
      exact ⟨value, hmem, hle⟩
    · rintro ⟨value, hmem, hle⟩
      exact ⟨name, value, hmem, rfl, hle⟩

namespace Placement

variable {aggregate : Aggregate} {host host' : Host} {c : Constraint} {wanted : ValueConstraint}
  {bound : LimitConstraint}

/-- A value constraint has one of two verdicts. -/
theorem veto_value (hc : c.kind = .ok (.value wanted)) :
    veto aggregate host c = .ok none ∨
      veto aggregate host c = .ok (some ⟨.constraintMismatch, c.name⟩) := by
  unfold veto
  rw [hc]
  dsimp only
  split
  · exact .inl rfl
  · exact .inr rfl

/-- A value constraint accepts the hosts whose values overlap with its own, or those whose values do
not if it is negated. -/
theorem veto_value_eq_none_iff (hc : c.kind = .ok (.value wanted)) :
    veto aggregate host c = .ok none ↔ ¬ (wanted.Overlaps c.name host ↔ wanted.negated = true) := by
  have hany : ((observed (named host c.name)).toList.any fun value =>
      decide (value ∈ wanted.values)) = true ↔ wanted.Overlaps c.name host := by
    simp only [List.any_eq_true, SortedSet.mem_toList, mem_observed_named, decide_eq_true_eq]
    rfl
  have hmatches : matchesValue (observed (named host c.name)) wanted = true ↔
      ¬ (wanted.Overlaps c.name host ↔ wanted.negated = true) := by
    rw [← hany, matchesValue, bne_iff_ne, ne_eq, Bool.eq_iff_iff]
  rw [← hmatches]
  unfold veto
  rw [hc]
  dsimp only
  split
  · next h => exact iff_of_true rfl h
  · next h => exact iff_of_false (fun h' => by cases h') h

/-- Of two verdicts, the one without a veto is given where a condition does not hold. -/
theorem eq_ite_of_one {verdict : Except UnrecognizedConstraint (Option Veto)} {v : Veto} {P : Prop}
    [Decidable P] (hone : verdict = .ok none ∨ verdict = .ok (some v))
    (hnone : verdict = .ok none ↔ ¬ P) : verdict = .ok (if P then some v else none) := by
  by_cases h : P
  · rw [if_pos h]
    exact hone.resolve_left fun hverdict => hnone.1 hverdict h
  · rw [if_neg h]
    exact hnone.2 h

/-- The verdict of a value constraint. -/
theorem veto_value_eq (hc : c.kind = .ok (.value wanted)) :
    veto aggregate host c =
      .ok (if wanted.Overlaps c.name host ↔ wanted.negated = true then
        some ⟨.constraintMismatch, c.name⟩ else none) :=
  eq_ite_of_one (veto_value hc) (veto_value_eq_none_iff hc)

/-- The verdict of a limit constraint. -/
theorem veto_limit_eq (hc : c.kind = .ok (.limit bound)) :
    veto aggregate host c =
      .ok (if ¬ host.Reports c.name ∨ bound.Reached aggregate c.name host then
        some ⟨.unsatisfiedLimit, c.name⟩ else none) := by
  refine eq_ite_of_one (veto_limit hc) ((veto_limit_eq_none_iff hc).trans ?_)
  rw [not_or, not_not]
  refine and_congr_right fun _ => ?_
  simp only [LimitConstraint.Reached, not_exists, not_and, Nat.not_le]

/-- The verdict of a constraint whose body has no known kind is its error. -/
theorem veto_malformed {cause : MalformedConstraint} (hc : c.kind = .error cause) :
    veto aggregate host c = .error ⟨cause⟩ := by
  unfold veto
  rw [hc]

/-- The verdict depends on no more of a host than whether it reports the constraint's attribute, and
which values it carries in it. -/
theorem veto_congr (hreports : host'.Reports c.name ↔ host.Reports c.name)
    (hcarries : ∀ value, host'.Carries c.name value ↔ host.Carries c.name value) :
    veto aggregate host' c = veto aggregate host c := by
  rcases hc : c.kind with cause | ⟨wanted⟩ | ⟨bound⟩
  · rw [veto_malformed hc, veto_malformed hc]
  · have hoverlaps : wanted.Overlaps c.name host' ↔ wanted.Overlaps c.name host := by
      simp only [ValueConstraint.Overlaps, hcarries]
    rw [veto_value_eq hc, veto_value_eq hc]
    simp only [hoverlaps]
  · have hreached : bound.Reached aggregate c.name host' ↔ bound.Reached aggregate c.name host := by
      simp only [LimitConstraint.Reached, hcarries]
    rw [veto_limit_eq hc, veto_limit_eq hc]
    simp only [hreports, hreached]

/-- The verdict of a constraint on a host, given any counts.

* A body with both a value and a limit, or with neither, is an error that names the constraint,
  whatever the host and the counts; there is no other error.
* A value constraint casts a veto if the truth of its overlap with the host's values is whether it
  is negated.
* A limit constraint casts a veto if the host does not report the attribute, or carries a value that
  has reached the limit.
* Hosts that report the attribute alike and carry the same values in it have the same verdict. -/
theorem veto_eq (aggregate : Aggregate) (host : Host) (c : Constraint) :
    veto aggregate host c =
        (match c.body with
        | ⟨some _, some _⟩ => .error ⟨⟨c.name, .both⟩⟩
        | ⟨none, none⟩ => .error ⟨⟨c.name, .neither⟩⟩
        | ⟨some wanted, none⟩ =>
          .ok (if wanted.Overlaps c.name host ↔ wanted.negated = true then
            some ⟨.constraintMismatch, c.name⟩ else none)
        | ⟨none, some bound⟩ =>
          .ok (if ¬ host.Reports c.name ∨ bound.Reached aggregate c.name host then
            some ⟨.unsatisfiedLimit, c.name⟩ else none)) ∧
      ∀ host' : Host, (host'.Reports c.name ↔ host.Reports c.name) →
        (∀ value, host'.Carries c.name value ↔ host.Carries c.name value) →
        veto aggregate host' c = veto aggregate host c := by
  refine ⟨?_, fun host' hreports hcarries => veto_congr hreports hcarries⟩
  obtain ⟨name, ⟨_ | wanted, _ | bound⟩⟩ := c
  · exact veto_malformed rfl
  · exact veto_limit_eq rfl
  · exact veto_value_eq rfl
  · exact veto_malformed rfl

end Placement

end Scheduling
