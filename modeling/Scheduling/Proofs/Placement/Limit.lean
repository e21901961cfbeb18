import Scheduling.Placement.Verdict
import Scheduling.Proofs.Placement.Instances

/-!
# What a limit constraint decides

A limit constraint accepts a host that reports the constraint's attribute and whose values of it all
have counts below the limit (`veto_limit_eq_none_iff`), and rejects any other host with the veto of
an unsatisfied limit. Against the counts of some occupied hosts this compares tallies with the
limit. It is the comparison of instances with the limit only as far as the tally of no value is
lifted to the limit by hosts that report it twice (`veto_ofHosts_limit`); `rackTwice` is such a
host.
-/

namespace Scheduling.Placement

variable {aggregate : Aggregate} {host : Host} {name value : String} {c : Constraint}
  {bound : LimitConstraint}

/-- The union of some attributes has the values of each of them. -/
theorem mem_observed {attributes : List Attribute} :
    value ∈ observed attributes ↔ ∃ a ∈ attributes, value ∈ a.values := by
  -- the union is a fold, so the sets already taken together come first
  suffices h : ∀ s : ValueSet, value ∈ attributes.foldl (fun values a => values.union a.values) s ↔
      value ∈ s ∨ ∃ a ∈ attributes, value ∈ a.values by
    simpa [observed] using h .empty
  induction attributes with
  | nil => simp
  | cons a rest ih =>
    intro s
    rw [List.foldl_cons, ih, SortedSet.mem_union, or_assoc]
    simp

/-- The values taken together are those that the host carries. -/
theorem mem_observed_named : value ∈ observed (named host name) ↔ host.Carries name value := by
  simp [mem_observed, named, Host.Carries, and_assoc]

/-- Some attribute has the name if the host reports it. -/
theorem not_isEmpty_named : (!(named host name).isEmpty) = true ↔ host.Reports name := by
  simp [named, Host.Reports]

/-- A limit constraint has one of two verdicts. -/
theorem veto_limit (hc : c.kind = .ok (.limit bound)) :
    veto aggregate host c = .ok none ∨
      veto aggregate host c = .ok (some ⟨.unsatisfiedLimit, c.name⟩) := by
  unfold veto
  rw [hc]
  dsimp only
  split
  · exact .inl rfl
  · exact .inr rfl

/-- A limit constraint accepts the hosts that report its attribute and carry in it only values whose
counts are below the limit. -/
theorem veto_limit_eq_none_iff (hc : c.kind = .ok (.limit bound)) :
    veto aggregate host c = .ok none ↔ host.Reports c.name ∧
      ∀ value, host.Carries c.name value →
        (aggregate c.name value).toNat < bound.limit.toNat := by
  have hbelow : matchesLimit aggregate c.name (observed (named host c.name)).toList bound.limit =
      true ↔ ∀ value, host.Carries c.name value →
        (aggregate c.name value).toNat < bound.limit.toNat := by
    simp only [matchesLimit, List.all_eq_true, SortedSet.mem_toList, mem_observed_named,
      decide_eq_true_eq, UInt64.lt_iff_toNat_lt, UInt32.toNat_toUInt64]
  rw [← hbelow, ← not_isEmpty_named, ← Bool.and_eq_true]
  unfold veto
  rw [hc]
  dsimp only
  split
  · next h => exact iff_of_true rfl h
  · next h => exact iff_of_false (fun h' => by cases h') h

/-- A verdict on a candidate counts instances: it accepts the candidate if this reports the
attribute and each of its values is carried by fewer than `limit` of the occupied hosts, and else
says that the limit is not satisfied. -/
def CountsInstances (hosts : List Host) (candidate : Host) (name : String) (limit : UInt32)
    (verdict : Except UnrecognizedConstraint (Option Veto)) : Prop :=
  (verdict = .ok none ↔ candidate.Reports name ∧
    ∀ value, candidate.Carries name value → instances hosts name value < limit.toNat) ∧
  (verdict ≠ .ok none → verdict = .ok (some ⟨.unsatisfiedLimit, name⟩))

/-- Against the counts of some occupied hosts, as long as no counter runs over, a limit constraint
compares tallies with the limit. -/
theorem veto_ofHosts_eq_none_iff {job : JobKey} {hosts : List Host} {limit : UInt32}
    (hsmall : increments hosts < UInt64.size) :
    veto (JobAggregate.ofHosts job hosts).count host ⟨name, .ofLimit limit⟩ = .ok none ↔
      host.Reports name ∧
        ∀ value, host.Carries name value → tally hosts name value < limit.toNat := by
  rw [veto_limit_eq_none_iff rfl]
  simp only [JobAggregate.count_ofHosts, JobAggregate.toNat_ofNat_tally hsmall]

/-- A verdict that compares tallies with the limit counts instances, unless the instances would have
the candidate accepted and it carries a value whose tally is not below the limit. -/
theorem countsInstances_iff {hosts : List Host} {limit : UInt32}
    {verdict : Except UnrecognizedConstraint (Option Veto)}
    (hone : verdict = .ok none ∨ verdict = .ok (some ⟨.unsatisfiedLimit, name⟩))
    (htallies : verdict = .ok none ↔ host.Reports name ∧
      ∀ value, host.Carries name value → tally hosts name value < limit.toNat) :
    CountsInstances hosts host name limit verdict ↔
      ¬ (host.Reports name ∧
        (∀ value, host.Carries name value → instances hosts name value < limit.toNat) ∧
        ∃ value, host.Carries name value ∧ limit.toNat ≤ tally hosts name value) := by
  -- tallies are never below instances, so the two can differ only by a rejection
  constructor
  · rintro ⟨hiff, -⟩ ⟨hreports, hinstances, value, hcarries, hle⟩
    have hlt := (htallies.1 (hiff.2 ⟨hreports, hinstances⟩)).2 value hcarries
    omega
  · intro hexact
    refine ⟨htallies.trans ⟨?_, ?_⟩, hone.resolve_left⟩
    · rintro ⟨hreports, htally⟩
      refine ⟨hreports, fun value hcarries => ?_⟩
      calc instances hosts name value ≤ tally hosts name value := instances_le_tally
        _ < limit.toNat := htally value hcarries
    · rintro ⟨hreports, hinstances⟩
      refine ⟨hreports, fun value hcarries => ?_⟩
      by_contra hle
      exact hexact ⟨hreports, hinstances, value, hcarries, Nat.not_lt.1 hle⟩

/-- What a limit constraint decides against the counts of some occupied hosts.

* It accepts the candidate or says that the limit is not satisfied.
* A counter holds the tally of the hosts' entries.
* As long as no counter runs over, the candidate is accepted if it reports the attribute and each of
  its values has a tally below the limit.
* A counter is the number of instances exactly when none of the hosts has its entry twice.
* So the verdict counts instances, unless the instances would have the candidate accepted and it
  carries a value whose tally, with the entries that hosts have twice, is not below the limit. -/
theorem veto_ofHosts_limit (job : JobKey) (hosts : List Host) (candidate : Host) (name : String)
    (limit : UInt32) :
    let counts := JobAggregate.ofHosts job hosts
    let verdict := veto counts.count candidate ⟨name, .ofLimit limit⟩
    (verdict = .ok none ∨ verdict = .ok (some ⟨.unsatisfiedLimit, name⟩)) ∧
      (∀ value, counts.count name value = UInt64.ofNat (tally hosts name value)) ∧
      (increments hosts < UInt64.size →
        (verdict = .ok none ↔ candidate.Reports name ∧
          ∀ value, candidate.Carries name value → tally hosts name value < limit.toNat) ∧
        (∀ value, (counts.count name value).toNat = instances hosts name value ↔
          ∀ host ∈ hosts, host.entries.count (name, value) ≤ 1) ∧
        (CountsInstances hosts candidate name limit verdict ↔
          ¬ (candidate.Reports name ∧
            (∀ value, candidate.Carries name value →
              instances hosts name value < limit.toNat) ∧
            ∃ value, candidate.Carries name value ∧ limit.toNat ≤ tally hosts name value))) := by
  intro counts verdict
  have hone : verdict = .ok none ∨ verdict = .ok (some ⟨.unsatisfiedLimit, name⟩) := veto_limit rfl
  have hcount : ∀ value, counts.count name value = UInt64.ofNat (tally hosts name value) :=
    fun value => JobAggregate.count_ofHosts job
  refine ⟨hone, hcount, fun hsmall => ?_⟩
  have htallies : verdict = .ok none ↔ candidate.Reports name ∧
      ∀ value, candidate.Carries name value → tally hosts name value < limit.toNat :=
    veto_ofHosts_eq_none_iff hsmall
  refine ⟨htallies, fun value => ?_, countsInstances_iff hone htallies⟩
  rw [hcount, JobAggregate.toNat_ofNat_tally hsmall, tally_eq_instances_iff]

/-- A host that reports its rack in two attributes. -/
def rackTwice : Host := [.ofList "rack" ["a"], .ofList "rack" ["a"]]

/-- One instance on a host that reports its rack twice uses up a limit of two instances. -/
theorem not_countsInstances_rackTwice :
    ¬ CountsInstances [rackTwice] [.ofList "rack" ["a"]] "rack" 2
        (veto (JobAggregate.ofHosts ⟨"role", "devel", "job", by decide, by decide, by decide⟩
          [rackTwice]).count [.ofList "rack" ["a"]] ⟨"rack", .ofLimit 2⟩) := by
  rintro ⟨hiff, -⟩
  have hcarries : ∀ value, Host.Carries [.ofList "rack" ["a"]] "rack" value ↔ value = "a" := by
    simp [Host.Carries, Attribute.ofList]
  have hone : instances [rackTwice] "rack" "a" = 1 := by decide
  have htwo : tally [rackTwice] "rack" "a" = 2 := by decide
  have haccepted := hiff.2 ⟨by decide, fun value hvalue => by
    rw [(hcarries value).1 hvalue, hone]
    decide⟩
  have hbelow := ((veto_limit_eq_none_iff rfl).1 haccepted).2 "a" ((hcarries "a").2 rfl)
  rw [JobAggregate.count_ofHosts, htwo] at hbelow
  exact absurd hbelow (by decide)

end Scheduling.Placement
