import Mathlib.Tactic.Common

/-!
# Checks made one after the other

A step after another succeeds if both do (`bind_eq_ok_iff`). What a row of checks reports is what is
wrong with the first member that does not pass, and `IsFirst` says which one that is.
-/

namespace Scheduling

section Bind

variable {ε α β : Type} {x : Except ε α} {f : α → Except ε β}

/-- Two steps succeed if the first does, and the second with its result. -/
theorem bind_eq_ok_iff {b : β} : x >>= f = .ok b ↔ ∃ a, x = .ok a ∧ f a = .ok b := by
  cases x with
  | error e => exact iff_of_false nofun nofun
  | ok a =>
    constructor
    · intro h
      exact ⟨a, rfl, h⟩
    · rintro ⟨a', ha, hb⟩
      obtain rfl := Except.ok.inj ha
      exact hb

end Bind

section First

variable {α : Type} {good : α → Prop} {xs : List α} {x y : α}

/-- The first member of a list that is not good. -/
def IsFirst (good : α → Prop) (xs : List α) (x : α) : Prop :=
  ∃ before after, xs = before ++ x :: after ∧ (∀ y ∈ before, good y) ∧ ¬ good x

/-- The first member that is not good is the head, or the first one of the rest if the head is
good. -/
theorem isFirst_cons_iff :
    IsFirst good (y :: xs) x ↔ (x = y ∧ ¬ good y) ∨ (good y ∧ IsFirst good xs x) := by
  constructor
  · rintro ⟨_ | ⟨z, before⟩, after, hxs, hbefore, hx⟩
    · obtain ⟨rfl, -⟩ := List.cons.inj hxs
      exact .inl ⟨rfl, hx⟩
    · obtain ⟨rfl, hrest⟩ := List.cons.inj hxs
      exact .inr ⟨hbefore y (by simp), before, after, hrest, fun z hz => hbefore z (by simp [hz]),
        hx⟩
  · rintro (⟨rfl, hx⟩ | ⟨hy, before, after, rfl, hbefore, hx⟩)
    · exact ⟨[], xs, rfl, by simp, hx⟩
    · exact ⟨y :: before, after, rfl, by simpa [hy] using hbefore, hx⟩

/-- An empty list has no first member. -/
theorem not_isFirst_nil : ¬ IsFirst good [] x := by
  rintro ⟨before, after, h, -⟩
  simp at h

/-- The first member of a list that is not good has a property if the head is that member and has
it, or if the head is good and the first one of the rest has it. -/
theorem exists_isFirst_cons_iff {p : α → Prop} :
    (∃ x, IsFirst good (y :: xs) x ∧ p x) ↔
      (¬ good y ∧ p y) ∨ (good y ∧ ∃ x, IsFirst good xs x ∧ p x) := by
  simp only [isFirst_cons_iff, or_and_right, exists_or, and_assoc, exists_eq_left,
    exists_and_left]

/-- Which member is the first that is not good depends on the members alone. -/
theorem isFirst_congr {good' : α → Prop} (h : ∀ y ∈ xs, good y ↔ good' y) :
    IsFirst good xs x ↔ IsFirst good' xs x := by
  refine exists_congr fun before => exists_congr fun after => and_congr_right fun hxs => ?_
  subst hxs
  exact and_congr (forall₂_congr fun y hy => h y (by simp [hy])) (not_congr (h x (by simp)))

/-- What is found first is the first member that does not lack the property. -/
theorem find?_eq_some_iff_isFirst {p : α → Bool} :
    xs.find? p = some x ↔ IsFirst (fun y => p y = false) xs x := by
  rw [List.find?_eq_some_iff_append]
  constructor
  · rintro ⟨hx, before, after, hxs, hbefore⟩
    exact ⟨before, after, hxs, by simpa using hbefore, by simp [hx]⟩
  · rintro ⟨before, after, hxs, hbefore, hx⟩
    exact ⟨by simpa using hx, before, after, hxs, by simpa using hbefore⟩

end First

end Scheduling
