import Mathlib.Logic.Relation
import Scheduling.Proofs.Placement.Additivity
import Scheduling.Proofs.Placement.Limit

/-!
# How the verdict of a limit moves

Three things can change between two checks of a limit: more instances are counted, the limit is
another one, or the candidate gains attributes and values (`Host.Gains`). The verdict compares the
count of each value that the candidate carries with the limit, so it can move in one direction only
with each of them. `veto_limit_eq_none_of_le` says so for all three at once, of a candidate that
reports the attribute. A candidate that does not is rejected for this, whatever it carries, and it
is accepted once it gains the attribute without any values. This is the one way in which a candidate
can gain its acceptance (`veto_limit_monotone`).
-/

namespace Scheduling

namespace Host

variable {host host' : Host} {name value : String}

/-- A host gains an attribute, or one of its attributes gains a value. -/
inductive Gains : Host → Host → Prop where
  /-- Anywhere among the attributes there is one more. -/
  | newAttribute (before after : Host) (a : Attribute) :
      Gains (before ++ after) (before ++ a :: after)
  /-- One of the attributes has one more value. -/
  | newValue (before after : Host) (a : Attribute) (value : String) :
      Gains (before ++ a :: after) (before ++ { a with values := a.values.insert value } :: after)

/-- What a host has of the attributes is no less than what another one has. -/
structure Covers (host' host : Host) : Prop where
  /-- It reports each attribute that the other reports. -/
  reports : ∀ name, host.Reports name → host'.Reports name
  /-- It carries each value that the other carries. -/
  carries : ∀ name value, host.Carries name value → host'.Carries name value

/-- Each attribute of one host has its like in the other, of the same name and with no less
values. -/
theorem covers_of_forall
    (h : ∀ a ∈ host, ∃ b ∈ host', b.name = a.name ∧ ∀ value ∈ a.values, value ∈ b.values) :
    host'.Covers host where
  reports name := by
    rintro ⟨a, ha, hname⟩
    obtain ⟨b, hb, hsame, -⟩ := h a ha
    exact ⟨b, hb, hsame.trans hname⟩
  carries name value := by
    rintro ⟨a, ha, hname, hvalue⟩
    obtain ⟨b, hb, hsame, hvalues⟩ := h a ha
    exact ⟨b, hb, hsame.trans hname, hvalues value hvalue⟩

/-- A host loses nothing when it gains an attribute or a value. -/
theorem Gains.covers (h : Gains host host') : host'.Covers host := by
  cases h with
  | newAttribute before after a =>
    refine covers_of_forall fun b hb => ⟨b, ?_, rfl, fun _ hvalue => hvalue⟩
    rw [List.mem_append, List.mem_cons]
    exact (List.mem_append.1 hb).imp_right .inr
  | newValue before after a value =>
    refine covers_of_forall fun b hb => ?_
    rw [List.mem_append, List.mem_cons] at hb
    -- only the attribute that gains the value is not there any more
    obtain hb | rfl | hb := hb
    · exact ⟨b, by simp [hb], rfl, fun _ hvalue => hvalue⟩
    · exact ⟨{ b with values := b.values.insert value }, by simp, rfl,
        fun _ hvalue => SortedSet.mem_insert.2 (.inr hvalue)⟩
    · exact ⟨b, by simp [hb], rfl, fun _ hvalue => hvalue⟩

/-- A host covers itself. -/
theorem Covers.refl : host.Covers host := ⟨fun _ h => h, fun _ _ h => h⟩

/-- A host loses nothing however much it gains. -/
theorem covers_of_gains (h : Relation.ReflTransGen Gains host host') : host'.Covers host := by
  induction h with
  | refl => exact .refl
  | tail _ hstep ih =>
    have hcovers := hstep.covers
    exact ⟨fun name h => hcovers.reports name (ih.reports name h),
      fun name value h => hcovers.carries name value (ih.carries name value h)⟩

/-- A host that gains an attribute without values carries what it carried before. -/
theorem carries_cons_empty {other : String} :
    Host.Carries (⟨other, .empty⟩ :: host) name value ↔ host.Carries name value := by
  simp [Carries]

end Host

namespace Placement

variable {aggregate aggregate' : Aggregate} {host host' : Host} {name : String}
  {limit limit' : UInt32}

/-- A limit that does not accept a host rejects it as unsatisfied. -/
theorem veto_limit_eq_some_iff :
    veto aggregate host ⟨name, .ofLimit limit⟩ = .ok (some ⟨.unsatisfiedLimit, name⟩) ↔
      ¬ veto aggregate host ⟨name, .ofLimit limit⟩ = .ok none := by
  constructor
  · intro hsome hnone
    cases hsome.symm.trans hnone
  · exact (veto_limit rfl).resolve_left

/-- A host that reports the attribute is accepted if one is accepted that has no less attributes and
values, against counts that are no lower and a limit that is no higher. -/
theorem veto_limit_eq_none_of_le (hreports : host.Reports name) (hcovers : host'.Covers host)
    (hcounts : ∀ value, (aggregate name value).toNat ≤ (aggregate' name value).toNat)
    (hlimit : limit' ≤ limit)
    (hnone : veto aggregate' host' ⟨name, .ofLimit limit'⟩ = .ok none) :
    veto aggregate host ⟨name, .ofLimit limit⟩ = .ok none := by
  obtain ⟨-, hbelow⟩ := (veto_limit_eq_none_iff rfl).1 hnone
  refine (veto_limit_eq_none_iff rfl).2 ⟨hreports, fun value hcarries => ?_⟩
  calc (aggregate name value).toNat ≤ (aggregate' name value).toNat := hcounts value
    _ < limit'.toNat := hbelow value (hcovers.carries name value hcarries)
    _ ≤ limit.toNat := UInt32.le_iff_toNat_le.1 hlimit

/-- A host is accepted if it is against counts that are no lower and a limit that is no higher. -/
theorem veto_limit_eq_none_of_le_self
    (hcounts : ∀ value, (aggregate name value).toNat ≤ (aggregate' name value).toNat)
    (hlimit : limit' ≤ limit)
    (hnone : veto aggregate' host ⟨name, .ofLimit limit'⟩ = .ok none) :
    veto aggregate host ⟨name, .ofLimit limit⟩ = .ok none := by
  -- the acceptance shows that the attribute is reported
  have hreports := ((veto_limit_eq_none_iff rfl).1 hnone).1
  exact veto_limit_eq_none_of_le hreports .refl hcounts hlimit hnone

/-- A host that reports the attribute is accepted if it is after it has gained something. -/
theorem veto_limit_eq_none_of_gains (hreports : host.Reports name)
    (hgains : Relation.ReflTransGen Host.Gains host host')
    (hnone : veto aggregate host' ⟨name, .ofLimit limit⟩ = .ok none) :
    veto aggregate host ⟨name, .ofLimit limit⟩ = .ok none :=
  veto_limit_eq_none_of_le hreports (Host.covers_of_gains hgains) (fun _ => Nat.le_refl _)
    (UInt32.le_refl _) hnone

/-- A host that does not report the attribute can gain something and be accepted. -/
theorem exists_gains_veto_limit_eq_none (hnot : ¬ host.Reports name) :
    ∃ grown, Relation.ReflTransGen Host.Gains host grown ∧
      veto aggregate grown ⟨name, .ofLimit limit⟩ = .ok none := by
  have hnone : ∀ value, ¬ host.Carries name value := fun value hcarries => by
    obtain ⟨a, ha, hname, -⟩ := hcarries
    exact hnot ⟨a, ha, hname⟩
  refine ⟨⟨name, .empty⟩ :: host, .single (.newAttribute [] host _), ?_⟩
  -- the attribute without values is reported, and there is still nothing to compare
  refine (veto_limit_eq_none_iff rfl).2 ⟨⟨⟨name, .empty⟩, by simp, rfl⟩, fun value hcarries => ?_⟩
  exact absurd (Host.carries_cons_empty.1 hcarries) (hnone value)

/-- No count falls when more instances are counted, as long as none runs over. -/
theorem toNat_count_le_foldl_record {job : JobKey} {a : JobAggregate} {hosts later : List Host}
    (h : JobAggregate.Built job a hosts) (hsmall : increments (hosts ++ later) < UInt64.size)
    (value : String) :
    (a.count name value).toNat ≤
      ((later.foldl JobAggregate.record a).count name value).toNat := by
  have hhosts : increments hosts < UInt64.size := by
    rw [increments_append] at hsmall
    omega
  rw [h.toNat_count hhosts, (h.foldl_record later).toNat_count hsmall, tally_append]
  exact Nat.le_add_right _ _

/-- How the verdict of a limit can move.

* If the limit rejects the candidate, then it still does after more instances are counted, on
  whichever hosts, as long as no counter runs over.
* If a limit accepts the candidate, then so does a higher one, given the same counts.
* If the limit rejects a candidate that reports the attribute, then it still does when the candidate
  gains attributes and values, given the same counts.
* Exactly the candidates that do not report the attribute are rejected and can come to be accepted
  by what they gain, whatever the counts are. -/
theorem veto_limit_monotone (candidate : Host) (name : String) (limit : UInt32) :
    let c : Constraint := ⟨name, .ofLimit limit⟩
    let unsatisfied : Veto := ⟨.unsatisfiedLimit, name⟩
    (∀ {job : JobKey} {a : JobAggregate} {hosts : List Host} (later : List Host),
        JobAggregate.Built job a hosts → increments (hosts ++ later) < UInt64.size →
          veto a.count candidate c = .ok (some unsatisfied) →
          veto (later.foldl JobAggregate.record a).count candidate c = .ok (some unsatisfied)) ∧
      (∀ aggregate limit', limit ≤ limit' → veto aggregate candidate c = .ok none →
        veto aggregate candidate ⟨name, .ofLimit limit'⟩ = .ok none) ∧
      (∀ aggregate grown, Relation.ReflTransGen Host.Gains candidate grown →
        candidate.Reports name → veto aggregate candidate c = .ok (some unsatisfied) →
          veto aggregate grown c = .ok (some unsatisfied)) ∧
      (∀ aggregate, ¬ candidate.Reports name ↔
        veto aggregate candidate c = .ok (some unsatisfied) ∧
          ∃ grown, Relation.ReflTransGen Host.Gains candidate grown ∧
            veto aggregate grown c = .ok none) := by
  intro c unsatisfied
  refine ⟨?_, ?_, ?_, ?_⟩
  · intro job a hosts later h hsmall hvetoed
    rw [veto_limit_eq_some_iff] at hvetoed ⊢
    exact mt (veto_limit_eq_none_of_le_self (toNat_count_le_foldl_record h hsmall)
      (UInt32.le_refl _)) hvetoed
  · intro aggregate limit' hle hnone
    exact veto_limit_eq_none_of_le_self (fun _ => Nat.le_refl _) hle hnone
  · intro aggregate grown hgains hreports hvetoed
    rw [veto_limit_eq_some_iff] at hvetoed ⊢
    exact mt (veto_limit_eq_none_of_gains hreports hgains) hvetoed
  · intro aggregate
    rw [veto_limit_eq_some_iff]
    constructor
    · intro hnot
      exact ⟨fun hnone => hnot ((veto_limit_eq_none_iff rfl).1 hnone).1,
        exists_gains_veto_limit_eq_none hnot⟩
    · rintro ⟨hvetoed, grown, hgains, hnone⟩ hreports
      exact hvetoed (veto_limit_eq_none_of_gains hreports hgains hnone)

/-- Of one instance for each rack there is one on rack `a`. A candidate on this rack stays rejected
when another instance is counted there; one that reports no rack is rejected and can be accepted. -/
theorem veto_limit_monotone_oneForEachRack :
    let rack : Host := [.ofList "rack" ["a"]]
    let counts := JobAggregate.ofHosts Sample.job [rack]
    let c : Constraint := ⟨"rack", .ofLimit 1⟩
    let unsatisfied : Veto := ⟨.unsatisfiedLimit, "rack"⟩
    increments ([rack] ++ [rack]) < UInt64.size ∧
      veto counts.count rack c = .ok (some unsatisfied) ∧
      veto (counts.record rack).count rack c = .ok (some unsatisfied) ∧
      ∃ grown, Relation.ReflTransGen Host.Gains [] grown ∧
        veto counts.count grown c = .ok none := by
  intro rack counts c unsatisfied
  have hsmall : increments ([rack] ++ [rack]) < UInt64.size := by decide
  have hvetoed : veto counts.count rack c = .ok (some unsatisfied) := by
    rw [veto_limit_eq_some_iff, veto_ofHosts_eq_none_iff (by decide)]
    rintro ⟨-, hbelow⟩
    have hlt := hbelow "a" (by decide)
    revert hlt
    decide
  obtain ⟨hrecords, -⟩ := veto_limit_monotone rack "rack" 1
  obtain ⟨-, -, -, hgains⟩ := veto_limit_monotone [] "rack" 1
  exact ⟨hsmall, hvetoed, hrecords [rack] (.ofHosts [rack]) hsmall hvetoed,
    ((hgains counts.count).1 (by decide)).2⟩

end Placement

end Scheduling
