import Scheduling.Proofs.Placement.Limit

/-!
# Greedy placement

Instances of a job are placed one by one, each on a host that no constraint vetoes, and each is
counted before the next is placed. `Greedy` are the states that such a run reaches, with the hosts
of the instances placed so far. A limit then holds of the instances themselves, in every state of
every run (`Greedy.within`): before an instance is placed on a host, each value that the host
carries has a tally below the limit, hence fewer instances than the limit, and one more instance
does not exceed it. That the tally may run ahead of the instances only ends a run earlier.
-/

namespace Scheduling.Placement

/-- The states of greedy placement: the counts of a job, and the hosts of the instances that were
placed, the last one first. -/
inductive Greedy (job : JobKey) (constraints : List Constraint) :
    JobAggregate → List Host → Prop where
  /-- Nothing is placed yet. -/
  | start : Greedy job constraints (.new job) []
  /-- One more instance is placed on a host without a veto, and counted. -/
  | place {a : JobAggregate} {hosts : List Host} {host : Host} :
      Greedy job constraints a hosts →
      (∀ c ∈ constraints, veto a.count host c = .ok none) →
      Greedy job constraints (a.record host) (host :: hosts)

/-- The instances on `hosts` keep to a limit on the attribute called `name`. -/
structure Within (limit : UInt32) (name : String) (hosts : List Host) : Prop where
  /-- No value of the attribute is carried by more hosts than the limit. -/
  instances_le : ∀ value, instances hosts name value ≤ limit.toNat
  /-- Every host reports the attribute. -/
  reported : ∀ host ∈ hosts, host.Reports name

variable {job : JobKey} {constraints : List Constraint} {a : JobAggregate} {hosts : List Host}
  {host : Host} {name : String} {limit : UInt32} {c : Constraint} {bound : LimitConstraint}

/-- Without instances every limit is kept. -/
theorem within_nil : Within limit name [] :=
  ⟨fun _ => Nat.zero_le _, fun _ hmem => absurd hmem List.not_mem_nil⟩

/-- A limit is kept by one more instance on a host that reports the attribute and carries in it only
values with tallies below the limit. -/
theorem Within.cons (h : Within limit name hosts) (hreports : host.Reports name)
    (htally : ∀ value, host.Carries name value → tally hosts name value < limit.toNat) :
    Within limit name (host :: hosts) := by
  constructor
  · intro value
    rw [instances_cons]
    split
    · next hcarries =>
      -- there is room for one more, since the tally counts every instance
      have hle : instances hosts name value ≤ tally hosts name value := instances_le_tally
      have hlt := htally value hcarries
      omega
    · exact h.instances_le value
  · exact List.forall_mem_cons.2 ⟨hreports, h.reported⟩

/-- In every state the counters hold the tallies of the hosts. -/
theorem Greedy.count_eq (h : Greedy job constraints a hosts) (name value : String) :
    a.count name value = UInt64.ofNat (tally hosts name value) := by
  induction h with
  | start => rw [JobAggregate.count_new, tally_nil]; rfl
  | place _ _ ih =>
    rw [JobAggregate.count_record, ih, tally_cons, UInt64.ofNat_add, UInt64.add_comm]

/-- Greedy placement keeps every limit, counted in instances, in every state that it reaches before
a counter runs over. -/
theorem Greedy.within (h : Greedy job constraints a hosts) (hsmall : increments hosts < UInt64.size)
    (hc : c ∈ constraints) (hkind : c.kind = .ok (.limit bound)) :
    Within bound.limit c.name hosts := by
  induction h with
  | start => exact within_nil
  | place hrun hpass ih =>
    rw [increments_cons] at hsmall
    have hsmall' : increments _ < UInt64.size := Nat.lt_of_le_of_lt (Nat.le_add_left _ _) hsmall
    -- no veto means that the counters, hence the tallies, were below the limit
    obtain ⟨hreports, hbelow⟩ := (veto_limit_eq_none_iff hkind).1 (hpass c hc)
    refine (ih hsmall').cons hreports fun value hcarries => ?_
    have hcount := hbelow value hcarries
    rwa [hrun.count_eq, JobAggregate.toNat_ofNat_tally hsmall'] at hcount

/-- Two instances fit under a limit of two: one on a host that reports its rack once, and then one
on a host that reports the same rack twice, for which the counter goes up to three. -/
theorem greedy_within_rackTwice :
    let job : JobKey := ⟨"role", "devel", "job", by decide, by decide, by decide⟩
    let rackOnce : Host := [.ofList "rack" ["a"]]
    let constraints : List Constraint := [⟨"rack", .ofLimit 2⟩]
    let a := ((JobAggregate.new job).record rackOnce).record rackTwice
    Greedy job constraints a [rackTwice, rackOnce] ∧
      increments [rackTwice, rackOnce] < UInt64.size ∧ Within 2 "rack" [rackTwice, rackOnce] ∧
      instances [rackTwice, rackOnce] "rack" "a" = 2 ∧ a.count "rack" "a" = 3 := by
  intro job rackOnce constraints a
  have hpass : ∀ {b : JobAggregate} {hosts : List Host} {host : Host},
      Greedy job constraints b hosts → host.Reports "rack" →
      (∀ value, host.Carries "rack" value → value = "a") →
      (UInt64.ofNat (tally hosts "rack" "a")).toNat < 2 →
      ∀ c ∈ constraints, veto b.count host c = .ok none := by
    intro b hosts host hrun hreports hcarries hbelow c hc
    obtain rfl := List.mem_singleton.1 hc
    refine (veto_limit_eq_none_iff rfl).2 ⟨hreports, fun value hvalue => ?_⟩
    rw [hrun.count_eq, hcarries value hvalue]
    exact hbelow
  have hfirst : Greedy job constraints ((JobAggregate.new job).record rackOnce) [rackOnce] :=
    .place .start (hpass .start (by decide)
      (by simp [Host.Carries, rackOnce, Attribute.ofList]) (by decide))
  have hrun : Greedy job constraints a [rackTwice, rackOnce] :=
    .place hfirst (hpass hfirst (by decide)
      (by simp [Host.Carries, rackTwice, Attribute.ofList]) (by decide))
  have hsmall : increments [rackTwice, rackOnce] < UInt64.size := by decide
  refine ⟨hrun, hsmall, hrun.within hsmall (List.mem_singleton.2 rfl) rfl, by decide, ?_⟩
  rw [hrun.count_eq]
  decide

end Scheduling.Placement
