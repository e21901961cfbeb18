import Mathlib.Tactic.Common
import Scheduling.Placement.Aggregate

/-!
# Counting instances

The counts of a job are meant to be numbers of instances: `instances hosts name value` is how many
of the occupied hosts carry the value in an attribute of that name, each of them once. What the
counters hold is `tally`, the number of entries that the hosts report for the name and the value
(`count_ofHosts`), and a host whose attributes repeat a name may report an entry more than once. So
the counters never fall short of the instances (`instances_le_tally`), and they are exact where no
host reports an entry twice (`tally_eq_instances_iff`).
-/

namespace Scheduling

namespace Host

/-- The host has an attribute called `name`. -/
def Reports (host : Host) (name : String) : Prop := ∃ a ∈ host, a.name = name

/-- The host has an attribute called `name` that includes `value`. -/
def Carries (host : Host) (name value : String) : Prop :=
  ∃ a ∈ host, a.name = name ∧ value ∈ a.values

instance (host : Host) (name : String) : Decidable (host.Reports name) :=
  inferInstanceAs (Decidable (∃ a ∈ host, a.name = name))

instance (host : Host) (name value : String) : Decidable (host.Carries name value) :=
  inferInstanceAs (Decidable (∃ a ∈ host, a.name = name ∧ value ∈ a.values))

/-- What a host carries is what it has an entry for. -/
theorem mem_entries {host : Host} {name value : String} :
    (name, value) ∈ host.entries ↔ host.Carries name value := by
  simp only [entries, Carries, List.mem_flatMap, List.mem_map, Prod.mk.injEq,
    SortedSet.mem_toList]
  constructor
  · rintro ⟨a, ha, v, hv, hname, rfl⟩
    exact ⟨a, ha, hname, hv⟩
  · rintro ⟨a, ha, hname, hv⟩
    exact ⟨a, ha, value, hv, hname, rfl⟩

/-- A host counts for a value exactly when it carries it. -/
theorem count_entries_pos {host : Host} {name value : String} :
    0 < host.entries.count (name, value) ↔ host.Carries name value := by
  rw [List.count_pos_iff, mem_entries]

end Host

namespace Placement

/-- The number of instances on hosts that carry a value in an attribute called `name`, if there is
one instance on each of `hosts`. -/
def instances (hosts : List Host) (name value : String) : ℕ :=
  hosts.countP fun host => host.Carries name value

/-- The number of entries for a name and a value that `hosts` report. -/
def tally (hosts : List Host) (name value : String) : ℕ :=
  (hosts.flatMap Host.entries).count (name, value)

/-- The number of times that some counter goes up while the instances on `hosts` are counted. -/
def increments (hosts : List Host) : ℕ := (hosts.flatMap Host.entries).length

variable {hosts : List Host} {host : Host} {name value : String}

@[simp] theorem instances_nil : instances [] name value = 0 := rfl

/-- One host more is one instance more for what it carries. -/
theorem instances_cons : instances (host :: hosts) name value =
    instances hosts name value + if host.Carries name value then 1 else 0 := by
  simp [instances, List.countP_cons]

@[simp] theorem tally_nil : tally [] name value = 0 := rfl

/-- One host more adds its entries. -/
theorem tally_cons : tally (host :: hosts) name value =
    host.entries.count (name, value) + tally hosts name value := by
  rw [tally, List.flatMap_cons, List.count_append]
  rfl

/-- No counter goes up more often than all of them together. -/
theorem tally_le_increments : tally hosts name value ≤ increments hosts := List.count_le_length

/-- One host more lets counters go up once for each of its entries. -/
theorem increments_cons : increments (host :: hosts) = host.entries.length + increments hosts := by
  rw [increments, List.flatMap_cons, List.length_append]
  rfl

/-- Each instance on a host that carries a value is in the tally. -/
theorem instances_le_tally : instances hosts name value ≤ tally hosts name value := by
  induction hosts with
  | nil => exact Nat.le_refl 0
  | cons host hosts ih =>
    rw [instances_cons, tally_cons]
    split
    · next h =>
      have := Host.count_entries_pos.2 h
      omega
    · omega

/-- The tally is the number of instances when no host has the entry twice, and only then. -/
theorem tally_eq_instances_iff : tally hosts name value = instances hosts name value ↔
    ∀ host ∈ hosts, host.entries.count (name, value) ≤ 1 := by
  induction hosts with
  | nil => simp
  | cons host hosts ih =>
    have hle : instances hosts name value ≤ tally hosts name value := instances_le_tally
    have hpos : 0 < host.entries.count (name, value) ↔ host.Carries name value :=
      Host.count_entries_pos
    rw [List.forall_mem_cons, ← ih, tally_cons, instances_cons]
    split
    · next h =>
      have := hpos.2 h
      omega
    · next h =>
      have : host.entries.count (name, value) = 0 := Nat.eq_zero_of_not_pos (mt hpos.1 h)
      omega

end Placement

namespace JobAggregate

open Placement

variable {hosts : List Host} {name value : String}

/-- Counting more instances adds the tally of their hosts. -/
theorem count_foldl_record (a : JobAggregate) :
    (hosts.foldl record a).count name value =
      a.count name value + UInt64.ofNat (tally hosts name value) := by
  induction hosts generalizing a with
  | nil => simp
  | cons host hosts ih =>
    rw [List.foldl_cons, ih, count_record, tally_cons, UInt64.ofNat_add, UInt64.add_assoc]

/-- The counter of a name and a value holds the tally. -/
theorem count_ofHosts (job : JobKey) :
    (ofHosts job hosts).count name value = UInt64.ofNat (tally hosts name value) := by
  rw [ofHosts, count_foldl_record, count_new, UInt64.zero_add]

/-- A counter that never ran over holds the tally as a number. -/
theorem toNat_ofNat_tally (h : increments hosts < UInt64.size) :
    (UInt64.ofNat (tally hosts name value)).toNat = tally hosts name value := by
  have hlt : tally hosts name value < UInt64.size :=
    calc tally hosts name value ≤ increments hosts := tally_le_increments
      _ < UInt64.size := h
  exact UInt64.toNat_ofNat_of_lt' hlt

end JobAggregate

end Scheduling
