import Mathlib.Data.List.Perm.Subperm
import Mathlib.Data.Nat.Find
import Mathlib.Order.Bounds.Basic
import Scheduling.Store.Basic

/-!
# The ancestors of a task

In a snapshot of a store, the ancestor links of the records lead from a task to its ancestors one
by one. `Ancestry.link` names the ancestor so many links up, and `Ancestry.Leading P n` says that
the first `n` of them are stored, are pairwise distinct, and have records with the property `P`.
A leading run grows by one ancestor at a time (`leading_succ_iff`), and a store of finitely many
records has a longest one (`exists_isGreatest_leading`), also where the links run in a circle.
-/

namespace Scheduling

/-- Distinct names that are all filed in a store are no more than it has records. -/
theorem TaskStore.length_le_size {store : TaskStore} {ids : List TaskId} (hnodup : ids.Nodup)
    (hfiled : ∀ id ∈ ids, (store.fetch id).isSome) : ids.length ≤ store.size := by
  have hsubset : ids ⊆ store.tasks.keys := fun id hmem => by
    rw [Std.TreeMap.mem_keys, Std.TreeMap.mem_iff_isSome_getElem?]
    exact hfiled id hmem
  calc ids.length ≤ store.tasks.keys.length := (hnodup.subperm hsubset).length_le
    _ = store.size := Std.TreeMap.length_keys

/-- What a store answers while nothing changes it. -/
abbrev Snapshot := TaskId → Option TaskRecord

namespace Ancestry

/-- The name of the ancestor that is `j + 1` links above `t`, if the links lead so far. -/
def link (S : Snapshot) (t : TaskRecord) : ℕ → Option TaskId
  | 0 => t.ancestor
  | j + 1 => (link S t j).bind fun id => (S id).bind TaskRecord.ancestor

/-- The first `n` ancestors of `t` are stored, have records with the property `P`, and are
pairwise distinct. -/
structure Leading (S : Snapshot) (P : TaskRecord → Prop) (t : TaskRecord) (n : ℕ) : Prop where
  /-- Each of them is the name of a stored record with the property. -/
  stored : ∀ j < n, ∃ id r, link S t j = some id ∧ S id = some r ∧ P r
  /-- None of them comes twice. -/
  distinct : ∀ i j, i < j → j < n → link S t i ≠ link S t j

/-- The names of the first `n` ancestors, the nearest first. -/
def names (S : Snapshot) (t : TaskRecord) (n : ℕ) : List TaskId :=
  (List.range n).filterMap (link S t)

variable {S : Snapshot} {P Q : TaskRecord → Prop} {t : TaskRecord} {n : ℕ} {id : TaskId}

@[simp] theorem names_zero : names S t 0 = [] := rfl

/-- One more ancestor adds its name at the end. -/
theorem names_succ (h : link S t n = some id) : names S t (n + 1) = names S t n ++ [id] := by
  simp [names, List.range_succ, h]

/-- The names are those that a link leads to. -/
theorem mem_names : id ∈ names S t n ↔ ∃ j < n, link S t j = some id := by
  simp [names]

/-- The names of fewer ancestors come first among those of more. -/
theorem prefix_names_of_le {m : ℕ} (h : m ≤ n) : names S t m <+: names S t n := by
  obtain ⟨i, rfl⟩ := Nat.exists_eq_add_of_le h
  rw [names, names, List.range_add, List.filterMap_append]
  exact List.prefix_append _ _

/-- The link after a stored ancestor is that of its record. -/
theorem link_succ {r : TaskRecord} (h : link S t n = some id) (hr : S id = some r) :
    link S t (n + 1) = r.ancestor := by
  simp [link, h, hr]

/-- No ancestors are a leading run. -/
theorem leading_zero : Leading S P t 0 :=
  ⟨fun j hj => absurd hj (Nat.not_lt_zero j), fun _ j _ hj => absurd hj (Nat.not_lt_zero j)⟩

/-- A leading run grows by the next ancestor when that one is stored, has the property, and is new.
This is what a walk up the ancestors checks at each step. -/
theorem leading_succ_iff : Leading S P t (n + 1) ↔ Leading S P t n ∧
    ∃ id r, link S t n = some id ∧ S id = some r ∧ P r ∧ id ∉ names S t n := by
  constructor
  · intro h
    refine ⟨⟨fun j hj => h.stored j (by omega), fun i j hij hj => h.distinct i j hij (by omega)⟩, ?_⟩
    obtain ⟨id, r, hid, hr, hp⟩ := h.stored n (by omega)
    refine ⟨id, r, hid, hr, hp, fun hmem => ?_⟩
    obtain ⟨j, hj, hjid⟩ := mem_names.1 hmem
    exact h.distinct j n hj (by omega) (hjid.trans hid.symm)
  · rintro ⟨h, id, r, hid, hr, hp, hnew⟩
    -- only the last ancestor, and pairs that end with it, are not in the shorter run
    refine ⟨fun j hj => ?_, fun i j hij hj heq => ?_⟩
    · rcases Nat.lt_succ_iff_lt_or_eq.1 hj with hj | rfl
      · exact h.stored j hj
      · exact ⟨id, r, hid, hr, hp⟩
    · rcases Nat.lt_succ_iff_lt_or_eq.1 hj with hj | rfl
      · exact h.distinct i j hij hj heq
      · exact hnew (mem_names.2 ⟨i, hij, heq.trans hid⟩)

/-- The start of a leading run is a leading run. -/
theorem Leading.mono {m : ℕ} (h : Leading S P t n) (hm : m ≤ n) : Leading S P t m :=
  ⟨fun j hj => h.stored j (by omega), fun i j hij hj => h.distinct i j hij (by omega)⟩

/-- A leading run stays one for a property that the stored records with the first one have. -/
theorem Leading.imp (h : Leading S P t n) (hpq : ∀ id r, S id = some r → P r → Q r) :
    Leading S Q t n := by
  refine ⟨fun j hj => ?_, h.distinct⟩
  obtain ⟨id, r, hid, hr, hp⟩ := h.stored j hj
  exact ⟨id, r, hid, hr, hpq id r hr hp⟩

/-- Properties that agree on the stored records have the same leading runs. -/
theorem leading_congr (h : ∀ id r, S id = some r → (P r ↔ Q r)) :
    Leading S P t n ↔ Leading S Q t n :=
  ⟨fun hp => hp.imp fun id r hr => (h id r hr).1, fun hq => hq.imp fun id r hr => (h id r hr).2⟩

/-- A leading run of `n` ancestors has `n` names, each once. -/
theorem Leading.nodup_names (h : Leading S P t n) :
    (names S t n).Nodup ∧ (names S t n).length = n := by
  induction n with
  | zero => simp
  | succ n ih =>
    obtain ⟨h, id, r, hid, -, -, hnew⟩ := leading_succ_iff.1 h
    obtain ⟨hnodup, hlength⟩ := ih h
    rw [names_succ hid]
    exact ⟨by simpa [List.nodup_append] using ⟨hnodup, fun x hx hxid => hnew (hxid ▸ hx)⟩,
      by simp [hlength]⟩

/-- Lengths of leading runs that stay below a bound have a greatest one. -/
theorem exists_isGreatest_of_le {bound : ℕ} (h : ∀ n, Leading S P t n → n ≤ bound) :
    ∃ k, IsGreatest {n | Leading S P t n} k := by
  classical
  refine ⟨Nat.findGreatest (fun n => Leading S P t n) bound, ?_, fun n hn => ?_⟩
  · exact Nat.findGreatest_spec (P := fun n => Leading S P t n) bound.zero_le leading_zero
  · exact Nat.le_findGreatest (h n hn) hn

/-- A leading run is no longer than the store that its records are in: its names are distinct, and
each of them is filed there. -/
theorem Leading.le_size {store : TaskStore} (h : Leading store.fetch P t n) : n ≤ store.size := by
  obtain ⟨hnodup, hlength⟩ := h.nodup_names
  rw [← hlength]
  refine TaskStore.length_le_size hnodup fun id hid => ?_
  obtain ⟨j, hj, hlink⟩ := mem_names.1 hid
  obtain ⟨id', r, hlink', hr, -⟩ := h.stored j hj
  obtain rfl : id' = id := Option.some.inj (hlink'.symm.trans hlink)
  exact Option.isSome_of_eq_some hr

/-- In a store there is a longest leading run. -/
theorem exists_isGreatest_leading (store : TaskStore) (P : TaskRecord → Prop) (t : TaskRecord) :
    ∃ k, IsGreatest {n | Leading store.fetch P t n} k :=
  exists_isGreatest_of_le fun _ h => h.le_size

end Ancestry

end Scheduling
