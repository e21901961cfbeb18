import Mathlib.Data.List.Forall2
import Scheduling.Placement.Verdict
import Scheduling.Proofs.Placement.Instances
import Scheduling.Sample

/-!
# Counting in parts and in any order

The counts of a job may be taken of its instances all at once, or of some of them at once and of the
others one by one (`Built`); it comes to the same (`Built.eq_ofHosts`). What is counted are the
entries that the hosts report. So counts add up when lists of hosts are put together
(`tally_append`), they depend neither on the order of the hosts nor on that of a host's attributes
(`tally_of_rearranged`), and a host that does not carry a value has no part in its count
(`tally_filter_carries`). `Built.count_additive` says what this means for the counters, as long as
none of them runs over, and for the verdicts that are based on them.
-/

namespace Scheduling

namespace Placement

variable {xs ys hosts hosts' : List Host} {name value : String}

/-- The tallies of two lists of hosts add up. -/
theorem tally_append : tally (xs ++ ys) name value = tally xs name value + tally ys name value := by
  rw [tally, List.flatMap_append, List.count_append]
  rfl

/-- The counters go up as often for two lists of hosts together as for each of them. -/
theorem increments_append : increments (xs ++ ys) = increments xs + increments ys := by
  rw [increments, List.flatMap_append, List.length_append]
  rfl

/-- Hosts that do not carry a value have no part in its tally. -/
theorem tally_filter_carries :
    tally (hosts.filter fun host => host.Carries name value) name value =
      tally hosts name value := by
  induction hosts with
  | nil => rfl
  | cons host hosts ih =>
    by_cases h : host.Carries name value
    · rw [List.filter_cons_of_pos (by simpa using h), tally_cons, tally_cons, ih]
    · have hnone : host.entries.count (name, value) = 0 :=
        Nat.eq_zero_of_not_pos (mt Host.count_entries_pos.1 h)
      rw [List.filter_cons_of_neg (by simpa using h), tally_cons, ih, hnone, Nat.zero_add]

/-- The lists have the same hosts, in any order, and each host the same attributes, in any order. -/
def Rearranged (hosts hosts' : List Host) : Prop :=
  ∃ reordered, hosts.Perm reordered ∧ List.Forall₂ List.Perm reordered hosts'

/-- Rearranged hosts report the same entries, each as often. -/
theorem Rearranged.entries_perm (h : Rearranged hosts hosts') :
    (hosts.flatMap Host.entries).Perm (hosts'.flatMap Host.entries) := by
  obtain ⟨reordered, hperm, hattributes⟩ := h
  have hentries : (reordered.flatMap Host.entries).Perm (hosts'.flatMap Host.entries) := by
    clear hperm
    induction hattributes with
    | nil => exact .refl _
    | cons hhost _ ih =>
      rw [List.flatMap_cons, List.flatMap_cons]
      exact (hhost.flatMap_right _).append ih
  exact (hperm.flatMap_right Host.entries).trans hentries

/-- Rearranged hosts have the same tallies. -/
theorem tally_of_rearranged (h : Rearranged hosts hosts') :
    tally hosts name value = tally hosts' name value := h.entries_perm.count_eq _

end Placement

namespace JobAggregate

open Placement

variable {job : JobKey} {a : JobAggregate} {hosts : List Host} {name value : String}

/-- The counts of a job are those of the instances on `hosts`. Some of these are counted at once,
and then the others one by one. -/
inductive Built (job : JobKey) : JobAggregate → List Host → Prop where
  /-- Instances are counted at once. -/
  | ofHosts (hosts : List Host) : Built job (.ofHosts job hosts) hosts
  /-- One more instance is counted. -/
  | record {a : JobAggregate} {hosts : List Host} (host : Host) :
      Built job a hosts → Built job (a.record host) (hosts ++ [host])

/-- It makes no difference which of the instances are counted at once. -/
theorem Built.eq_ofHosts (h : Built job a hosts) : a = .ofHosts job hosts := by
  induction h with
  | ofHosts hosts => rfl
  | record host _ ih =>
    rw [ih, JobAggregate.ofHosts, JobAggregate.ofHosts, List.foldl_append]
    rfl

/-- The instances may go on to be counted. -/
theorem Built.foldl_record (h : Built job a hosts) (later : List Host) :
    Built job (later.foldl JobAggregate.record a) (hosts ++ later) := by
  induction later generalizing a hosts with
  | nil => rwa [List.append_nil]
  | cons host later ih =>
    rw [List.foldl_cons, List.append_cons]
    exact ih (.record host h)

/-- A counter holds the tally. -/
theorem Built.count_eq (h : Built job a hosts) :
    a.count name value = UInt64.ofNat (tally hosts name value) := by
  rw [h.eq_ofHosts, count_ofHosts]

/-- A counter that did not run over holds the tally as a number. -/
theorem Built.toNat_count (h : Built job a hosts) (hsmall : increments hosts < UInt64.size) :
    (a.count name value).toNat = tally hosts name value := by
  rw [h.count_eq, toNat_ofNat_tally hsmall]

/-- Counts are additive and free of any order. Let some instances have been counted, no counter
having run over.

* Each counter holds the number of entries that the hosts report for its name and value.
* If the hosts are those of two lists together, then each count is the sum of the counts of the two,
  whichever the jobs are and however the instances of each list were counted.
* The counts are the same for any other job, any order of the hosts, any order of the attributes of
  each, and any way to count; hence so is every verdict.
* The count of a value is that of the hosts alone that carry it.
* Without hosts all counts are zero, as for a job without instances. -/
theorem Built.count_additive (h : Built job a hosts) (hsmall : increments hosts < UInt64.size) :
    (∀ name value, (a.count name value).toNat = tally hosts name value) ∧
      (∀ {job₁ job₂ : JobKey} {a₁ a₂ : JobAggregate} {xs ys : List Host},
        Built job₁ a₁ xs → Built job₂ a₂ ys → hosts = xs ++ ys → ∀ name value,
          (a.count name value).toNat =
            (a₁.count name value).toNat + (a₂.count name value).toNat) ∧
      (∀ {job' : JobKey} {b : JobAggregate} {hosts' : List Host},
        Built job' b hosts' → Rearranged hosts hosts' →
          b.count = a.count ∧
            ∀ candidate c, veto b.count candidate c = veto a.count candidate c) ∧
      (∀ name value, a.count name value =
        (JobAggregate.ofHosts job
          (hosts.filter fun host => host.Carries name value)).count name value) ∧
      (hosts = [] → a.count = Aggregate.empty) := by
  refine ⟨fun name value => h.toNat_count hsmall, ?_, ?_, ?_, ?_⟩
  · intro job₁ job₂ a₁ a₂ xs ys h₁ h₂ hsplit name value
    subst hsplit
    rw [increments_append] at hsmall
    have hxs : increments xs < UInt64.size := by omega
    have hys : increments ys < UInt64.size := by omega
    rw [h.toNat_count (by rwa [increments_append]), h₁.toNat_count hxs, h₂.toNat_count hys,
      tally_append]
  · intro job' b hosts' h' hsame
    have hcount : b.count = a.count := by
      funext name value
      rw [h.count_eq, h'.count_eq, tally_of_rearranged hsame]
    refine ⟨hcount, fun candidate c => ?_⟩
    rw [hcount]
  · intro name value
    rw [h.count_eq, count_ofHosts, tally_filter_carries]
  · intro hnone
    subst hnone
    funext name value
    rw [h.count_eq, tally_nil]
    rfl

/-- Two instances, the second counted after the first, and the same two with their hosts and the
attributes of one of them in another order, counted at once. -/
theorem Built.count_additive_twoHosts :
    let rackTwice : Host := [.ofList "rack" ["a"], .ofList "rack" ["a", "b"]]
    let pooled : Host := [.ofList "pool" ["p"], .ofList "rack" ["a"]]
    let a := (JobAggregate.ofHosts Sample.job [rackTwice]).record pooled
    let b := JobAggregate.ofHosts Sample.job
      [[.ofList "rack" ["a"], .ofList "pool" ["p"]], rackTwice]
    Built Sample.job a [rackTwice, pooled] ∧ increments [rackTwice, pooled] < UInt64.size ∧
      (a.count "rack" "a").toNat = 3 ∧ b.count = a.count := by
  intro rackTwice pooled a b
  have ha : Built Sample.job a [rackTwice, pooled] := .record pooled (.ofHosts [rackTwice])
  have hsmall : increments [rackTwice, pooled] < UInt64.size := by decide
  have hsame : Rearranged [rackTwice, pooled]
      [[.ofList "rack" ["a"], .ofList "pool" ["p"]], rackTwice] :=
    ⟨[pooled, rackTwice], .swap _ _ _, .cons (.swap _ _ _) (.cons (.refl _) .nil)⟩
  obtain ⟨htally, -, horder, -⟩ := ha.count_additive hsmall
  refine ⟨ha, hsmall, ?_, (horder (.ofHosts _) hsame).1⟩
  rw [htally]
  decide

end JobAggregate

end Scheduling
