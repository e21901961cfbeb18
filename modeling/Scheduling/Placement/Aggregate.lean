import Std.Data.HashMap
import Scheduling.Ident
import Scheduling.Placement.Constraint

/-!
# Where a job's instances run

How many instances of a job run on hosts whose attribute of a name includes a value, for every name
and value: the aggregates of `berth-filter`. `JobAggregate` mirrors `JobAttributeAggregate`, which
keeps its counts by name and then by value, each map and each count made when it is first needed.
What a host adds to the counts are its entries, the pairs of a name and a value that it reports
(`count_record`).
-/

namespace Scheduling

/-- For a name and a value, the number of instances on hosts whose attribute of that name includes
that value (`instances_with_attribute` of an `AttributeAggregate`). -/
abbrev Aggregate := String → String → UInt64

/-- The aggregate of a job without instances (`EmptyAggregate`). -/
def Aggregate.empty : Aggregate := fun _ _ => 0

/-- The pairs of a name and a value that a host reports, one for each attribute of that name that
includes the value. -/
def Host.entries (host : Host) : List (String × String) :=
  host.flatMap fun a => a.values.toList.map fun value => (a.name, value)

/-- The counts of one job, by name and then by value (`JobAttributeAggregate`). -/
structure JobAggregate where
  job : JobKey
  /-- For each attribute name the counts of its values. -/
  counts : Std.HashMap String (Std.HashMap String UInt64)

namespace JobAggregate

/-- No instances yet (`new`). -/
def new (job : JobKey) : JobAggregate := ⟨job, ∅⟩

/-- The counts of some values, with one more for one of them. -/
def bump (byValue : Std.HashMap String UInt64) (value : String) : Std.HashMap String UInt64 :=
  byValue.insert value (byValue.getD value 0 + 1)

/-- The counts with one more for each value of an attribute, under its name. -/
def bumpAttribute (counts : Std.HashMap String (Std.HashMap String UInt64)) (a : Attribute) :
    Std.HashMap String (Std.HashMap String UInt64) :=
  counts.insert a.name (a.values.toList.foldl bump (counts.getD a.name ∅))

/-- Counts one more instance, on `host` (`record_host`): one more for each value of each of the
host's attributes, also if two attributes have the same name. -/
def record (a : JobAggregate) (host : Host) : JobAggregate :=
  { a with counts := host.foldl bumpAttribute a.counts }

/-- The counts of the instances on `hosts`, one on each (`from_hosts`). -/
def ofHosts (job : JobKey) (hosts : List Host) : JobAggregate := hosts.foldl record (new job)

/-- The counts as an aggregate (`instances_with_attribute`): zero for a name or a value that was
never counted. -/
def count (a : JobAggregate) : Aggregate := fun name value =>
  (a.counts[name]?.bind fun byValue => byValue[value]?).getD 0

/-- A name without counts has no counts of its values. -/
theorem count_eq_getD (a : JobAggregate) (name value : String) :
    a.count name value = (a.counts.getD name ∅).getD value 0 := by
  rw [count, Std.HashMap.getD_eq_getD_getElem? (a := name)]
  cases a.counts[name]? with
  | none => simp
  | some byValue => simp [Std.HashMap.getD_eq_getD_getElem?]

/-- Without instances every count is zero. -/
@[simp] theorem count_new (job : JobKey) (name value : String) :
    (new job).count name value = 0 := by
  simp [count, new]

/-- Bumping a list of values adds to each count its number of occurrences in the list. -/
theorem getD_foldl_bump (values : List String) (byValue : Std.HashMap String UInt64)
    (value : String) :
    (values.foldl bump byValue).getD value 0 =
      byValue.getD value 0 + UInt64.ofNat (values.count value) := by
  induction values generalizing byValue with
  | nil => simp
  | cons v rest ih =>
    rw [List.foldl_cons, ih, bump, Std.HashMap.getD_insert, List.count_cons]
    by_cases h : v = value
    · subst h
      simp only [beq_self_eq_true, if_true]
      rw [UInt64.ofNat_add, UInt64.add_assoc, UInt64.add_comm (UInt64.ofNat _) (UInt64.ofNat 1)]
      rfl
    · simp [h]

/-- Bumping an attribute adds to each count the number of the attribute's entries for the name and
the value. -/
theorem getD_bumpAttribute (counts : Std.HashMap String (Std.HashMap String UInt64))
    (a : Attribute) (name value : String) :
    ((bumpAttribute counts a).getD name ∅).getD value 0 = (counts.getD name ∅).getD value 0 +
      UInt64.ofNat ((a.values.toList.map fun v => (a.name, v)).count (name, value)) := by
  rw [bumpAttribute, Std.HashMap.getD_insert]
  by_cases h : a.name = name
  · subst h
    have hentries : (a.values.toList.map fun v => (a.name, v)).count (a.name, value) =
        a.values.toList.count value := by
      rw [List.count_eq_countP, List.countP_map, List.count_eq_countP]
      refine List.countP_congr fun v _ => ?_
      simp
    rw [if_pos (beq_self_eq_true _), getD_foldl_bump, hentries]
  · have hnone : (a.values.toList.map fun v => (a.name, v)).count (name, value) = 0 := by
      simp [List.count_eq_zero, h]
    rw [if_neg (by simpa using h), hnone]
    simp

/-- Bumping the attributes of a host adds to each count the number of the host's entries for the
name and the value. -/
theorem getD_foldl_bumpAttribute (host : Host)
    (counts : Std.HashMap String (Std.HashMap String UInt64)) (name value : String) :
    ((host.foldl bumpAttribute counts).getD name ∅).getD value 0 =
      (counts.getD name ∅).getD value 0 + UInt64.ofNat (host.entries.count (name, value)) := by
  induction host generalizing counts with
  | nil => simp [Host.entries]
  | cons a rest ih =>
    rw [List.foldl_cons, ih, getD_bumpAttribute, Host.entries, Host.entries, List.flatMap_cons,
      List.count_append, UInt64.ofNat_add, UInt64.add_assoc]

/-- An instance on `host` adds to the count of a name and a value the number of the host's
attributes of that name that include the value. -/
theorem count_record (a : JobAggregate) (host : Host) (name value : String) :
    (a.record host).count name value =
      a.count name value + UInt64.ofNat (host.entries.count (name, value)) := by
  rw [count_eq_getD, count_eq_getD]
  exact getD_foldl_bumpAttribute host a.counts name value

end JobAggregate

end Scheduling
