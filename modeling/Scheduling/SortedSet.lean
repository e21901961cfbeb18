/-!
# Finite sets in ascending order

A finite set kept as the list of its members in strictly ascending order, so that a set has one
form: `ext_mem` says that sets with the same members are equal. It stands for the ordered set of an
attribute's values (`BTreeSet`), and for the sorted list of interrupted states. `ofList` builds the
set of a list's members, whatever their order and however often they occur, and `mem_ofList` says
so.
-/

namespace Scheduling

/-- Adds a member to an ascending list, at its place. -/
def insertAscending {α : Type} [Ord α] (x : α) : List α → List α
  | [] => [x]
  | y :: rest =>
    match compare x y with
    | .lt => x :: y :: rest
    | .eq => y :: rest
    | .gt => y :: insertAscending x rest

/-- A finite set, as the strictly ascending list of its members. -/
structure SortedSet (α : Type) [Ord α] where
  /-- The members, each once, in ascending order. -/
  toList : List α
  /-- Each member stands before all greater ones. -/
  ascending : toList.Pairwise fun a b => compare a b = .lt
  deriving DecidableEq

namespace SortedSet

variable {α : Type} [Ord α]

/-- The set without members. -/
def empty : SortedSet α := ⟨[], List.Pairwise.nil⟩

instance : Membership α (SortedSet α) := ⟨fun s x => x ∈ s.toList⟩

instance [DecidableEq α] (x : α) (s : SortedSet α) : Decidable (x ∈ s) :=
  inferInstanceAs (Decidable (x ∈ s.toList))

@[simp] theorem mem_toList {s : SortedSet α} {x : α} : x ∈ s.toList ↔ x ∈ s := Iff.rfl

@[simp] theorem not_mem_empty {x : α} : ¬ x ∈ (empty : SortedSet α) := List.not_mem_nil

variable [Std.LawfulEqOrd α]

/-- An ascending list with `x` added holds `x` and what it held before. -/
theorem mem_insertAscending {x z : α} {ys : List α} :
    z ∈ insertAscending x ys ↔ z = x ∨ z ∈ ys := by
  induction ys with
  | nil => simp [insertAscending]
  | cons y rest ih =>
    unfold insertAscending
    split
    · simp
    · next h => have := Std.LawfulEqCmp.eq_of_compare h; simp [this]
    · simp only [List.mem_cons, ih]; exact or_left_comm

variable [Std.TransOrd α]

/-- Adding a member keeps a list ascending. -/
theorem pairwise_insertAscending {x : α} {ys : List α}
    (h : ys.Pairwise fun a b => compare a b = .lt) :
    (insertAscending x ys).Pairwise fun a b => compare a b = .lt := by
  induction ys with
  | nil => simp [insertAscending]
  | cons y rest ih =>
    rw [List.pairwise_cons] at h
    unfold insertAscending
    split
    · next hxy =>
      refine List.pairwise_cons.2 ⟨fun z hz => ?_, List.pairwise_cons.2 h⟩
      rcases List.mem_cons.1 hz with rfl | hz
      · exact hxy
      · exact Std.TransCmp.lt_trans hxy (h.1 z hz)
    · exact List.pairwise_cons.2 h
    · next hxy =>
      refine List.pairwise_cons.2 ⟨fun z hz => ?_, ih h.2⟩
      rcases mem_insertAscending.1 hz with rfl | hz
      · exact Std.OrientedCmp.lt_of_gt hxy
      · exact h.1 z hz

/-- The set with one more member. -/
def insert (s : SortedSet α) (x : α) : SortedSet α :=
  ⟨insertAscending x s.toList, pairwise_insertAscending s.ascending⟩

/-- The set of a list's members. -/
def ofList (xs : List α) : SortedSet α := xs.foldl insert empty

/-- The members of two sets together. -/
def union (s t : SortedSet α) : SortedSet α := t.toList.foldl insert s

/-- A set with `x` added holds `x` and what it held before. -/
@[simp] theorem mem_insert {s : SortedSet α} {x z : α} : z ∈ s.insert x ↔ z = x ∨ z ∈ s :=
  mem_insertAscending

/-- Adding the members of a list one by one adds them all. -/
theorem mem_foldl_insert {xs : List α} {s : SortedSet α} {z : α} :
    z ∈ xs.foldl insert s ↔ z ∈ s ∨ z ∈ xs := by
  induction xs generalizing s with
  | nil => simp
  | cons x rest ih =>
    rw [List.foldl_cons, ih, mem_insert, List.mem_cons, or_assoc]
    exact or_left_comm

/-- The set of a list has the list's members. -/
@[simp] theorem mem_ofList {xs : List α} {z : α} : z ∈ ofList xs ↔ z ∈ xs := by
  simp [ofList, mem_foldl_insert]

/-- The union of two sets has the members of both. -/
@[simp] theorem mem_union {s t : SortedSet α} {z : α} : z ∈ s.union t ↔ z ∈ s ∨ z ∈ t := by
  simp [union, mem_foldl_insert]

/-- Ascending lists with the same members are equal. -/
theorem eq_of_pairwise_of_mem_iff {xs ys : List α} (hx : xs.Pairwise fun a b => compare a b = .lt)
    (hy : ys.Pairwise fun a b => compare a b = .lt) (h : ∀ z, z ∈ xs ↔ z ∈ ys) : xs = ys := by
  have irrefl : ∀ a : α, compare a a ≠ .lt := fun a ha => by
    rw [Std.ReflOrd.compare_self] at ha; cases ha
  have asymm : ∀ {a b : α}, compare a b = .lt → compare b a ≠ .lt := fun hab hba =>
    irrefl _ (Std.TransCmp.lt_trans hab hba)
  induction xs generalizing ys with
  | nil =>
    cases ys with
    | nil => rfl
    | cons y rest => exact absurd ((h y).2 (by simp)) (by simp)
  | cons x xs ih =>
    cases ys with
    | nil => exact absurd ((h x).1 (by simp)) (by simp)
    | cons y ys =>
      rw [List.pairwise_cons] at hx hy
      -- both lists start with their least member
      have hxy : x = y := by
        rcases List.mem_cons.1 ((h x).1 (by simp)) with hxy | hxy
        · exact hxy
        · rcases List.mem_cons.1 ((h y).2 (by simp)) with hyx | hyx
          · exact hyx.symm
          · exact absurd (hx.1 y hyx) (asymm (hy.1 x hxy))
      subst hxy
      rw [ih hx.2 hy.2 fun z => ⟨fun hz => ?_, fun hz => ?_⟩]
      · rcases List.mem_cons.1 ((h z).1 (List.mem_cons_of_mem _ hz)) with rfl | h'
        · exact absurd (hx.1 z hz) (irrefl z)
        · exact h'
      · rcases List.mem_cons.1 ((h z).2 (List.mem_cons_of_mem _ hz)) with rfl | h'
        · exact absurd (hy.1 z hz) (irrefl z)
        · exact h'

/-- Sets with the same members are equal. -/
theorem ext_mem {s t : SortedSet α} (h : ∀ z, z ∈ s ↔ z ∈ t) : s = t := by
  have := eq_of_pairwise_of_mem_iff s.ascending t.ascending h
  cases s; cases t; simpa using this

/-- The set of a set's members is the set. -/
@[simp] theorem ofList_toList (s : SortedSet α) : ofList s.toList = s := ext_mem fun z => by simp

end SortedSet

end Scheduling
