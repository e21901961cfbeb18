import Mathlib.Logic.Function.Iterate
import Scheduling.Proofs.Penalty.Observed

/-!
# The walk against its reference

The delay of a task is a matter of two sequences, the names `a₁, a₂, …` of its ancestors and the
delays `x₀ = 0, x₁, x₂, …` that the strategy replies when each call is given the last reply.
`penaltyMs_eq_reference` reads off them what a walk answers, what it looks up and what it gives the
strategy, for every snapshot of a store and every strategy, with a state or without.

The proof follows the loop. After `n` steps that did not end it, the walk stands at `aₙ₊₁` with the
delay `xₙ`, has seen and looked up exactly `a₁, …, aₙ`, and has given the strategy
`x₀, …, xₙ₋₁` (`observedRun_eq_walk`). What the next step does is `run_walk_new`.
-/

namespace Scheduling

open Ancestry

/-- The first `k` steps of a sequence of delays all grow, or there is a first one that does not. -/
theorem grow_or_stop (x : ℕ → UInt64) (k : ℕ) :
    (∀ j < k, x j < x (j + 1)) ∨ ∃ n < k, (∀ j < n, x j < x (j + 1)) ∧ x (n + 1) ≤ x n := by
  induction k with
  | zero => exact .inl fun j hj => absurd hj (Nat.not_lt_zero j)
  | succ k ih =>
    rcases ih with hgrow | ⟨n, hn, hstop⟩
    · by_cases hlt : x k < x (k + 1)
      · refine .inl fun j hj => ?_
        rcases Nat.lt_succ_iff_lt_or_eq.1 hj with hj | rfl
        · exact hgrow j hj
        · exact hlt
      · exact .inr ⟨k, by omega, hgrow, UInt64.not_lt.1 hlt⟩
    · exact .inr ⟨n, by omega, hstop⟩

namespace Calculator

variable {σ : Type}

/-- The `j`-th reply of the strategy when each call is given the last reply, with the world after
it; before the first call there is no delay. -/
def reply (backoff : UInt64 → StateM σ UInt64) (w : σ) (j : ℕ) : UInt64 × σ :=
  (fun p => (backoff p.1).run p.2)^[j] (0, w)

/-- The next reply is that to the last. -/
theorem reply_succ (backoff : UInt64 → StateM σ UInt64) (w : σ) (j : ℕ) :
    reply backoff w (j + 1) = (backoff (reply backoff w j).1).run (reply backoff w j).2 :=
  Function.iterate_succ_apply' _ _ _

/-- The walk for a task over a snapshot, watched from the start. -/
def observedRun (S : Snapshot) (s : Settings (UInt64 → StateM σ UInt64)) (t : TaskRecord) (w : σ) :
    UInt64 × Observed σ :=
  ((ofSnapshot S s).observed.penaltyMs t).run (.start w)

section Loop

variable (S : Snapshot) (s : Settings (UInt64 → StateM σ UInt64)) (t : TaskRecord) (w : σ)

/-- What is seen of a walk that has looked up the first `n` ancestors and called the strategy once
for each. -/
def seenAfter (n : ℕ) : Observed σ where
  world := (reply s.backoff w n).2
  lookups := names S t n
  inputs := (List.range n).map fun j => (reply s.backoff w j).1

variable {S s t w} {n : ℕ}

/-- The strategy has been called once more. -/
theorem seenAfter_succ {id : TaskId} (h : link S t n = some id) :
    seenAfter S s t w (n + 1) =
      ⟨(reply s.backoff w (n + 1)).2, (seenAfter S s t w n).lookups ++ [id],
        (seenAfter S s t w n).inputs ++ [(reply s.backoff w n).1]⟩ := by
  simp [seenAfter, names_succ h, List.range_succ]

/-- The walk at a new, stored and flapping ancestor, after `n` others: it goes on if the delay has
grown, and answers with the new delay if not. -/
theorem run_walk_flapping {id : TaskId} {r : TaskRecord} (hid : link S t n = some id)
    (hr : S id = some r) (hflap : s.isFlapping r = true) (hnew : id ∉ names S t n) :
    ((ofSnapshot S s).observed.walk (names S t n).reverse (reply s.backoff w n).1
        (link S t n)).run (seenAfter S s t w n) =
      if (reply s.backoff w n).1 < (reply s.backoff w (n + 1)).1 then
        ((ofSnapshot S s).observed.walk (names S t (n + 1)).reverse (reply s.backoff w (n + 1)).1
          (link S t (n + 1))).run (seenAfter S s t w (n + 1))
      else ((reply s.backoff w (n + 1)).1, seenAfter S s t w (n + 1)) := by
  have hfetch : ((ofSnapshot S s).fetch id).run (seenAfter S s t w n).world =
      (some r, (seenAfter S s t w n).world) := by
    rw [← hr]
    rfl
  have hreply : ((ofSnapshot S s).settings.backoff (reply s.backoff w n).1).run
      (seenAfter S s t w n).world = reply s.backoff w (n + 1) := (reply_succ _ _ _).symm
  have hflap' : (ofSnapshot S s).isFlapping r = true := hflap
  rw [hid, run_walk_new _ _ _ _ (by simpa using hnew), hfetch]
  dsimp only
  rw [if_pos hflap', hreply, seenAfter_succ hid, link_succ hid hr, names_succ hid,
    List.reverse_append]
  rfl

/-- Over flapping ancestors that make the delay grow, the walk goes on: after `n` of them it has
seen just these, and stands at the next with the `n`-th reply. -/
theorem observedRun_eq_walk (h : Leading S (s.isFlapping ·) t n)
    (hgrow : ∀ j < n, (reply s.backoff w j).1 < (reply s.backoff w (j + 1)).1) :
    observedRun S s t w =
      ((ofSnapshot S s).observed.walk (names S t n).reverse (reply s.backoff w n).1
        (link S t n)).run (seenAfter S s t w n) := by
  induction n with
  | zero => rfl
  | succ n ih =>
    -- the last ancestor of the run is what the walk's next step looks for
    obtain ⟨h, id, r, hid, hr, hflap, hnew⟩ := leading_succ_iff.1 h
    rw [ih h fun j hj => hgrow j (by omega), run_walk_flapping hid hr hflap hnew,
      if_pos (hgrow n (by omega))]

/-- Where no leading run goes further, the walk ends with the delay it has: the next ancestor, if
there is one that it has not seen, is looked up, and that is all. -/
theorem run_walk_end (h : Leading S (s.isFlapping ·) t n)
    (hmax : ¬ Leading S (s.isFlapping ·) t (n + 1)) :
    ((ofSnapshot S s).observed.walk (names S t n).reverse (reply s.backoff w n).1
        (link S t n)).run (seenAfter S s t w n) =
      ((reply s.backoff w n).1,
        { seenAfter S s t w n with
          lookups := names S t n ++ (link S t n).toList.filter (· ∉ names S t n) }) := by
  rcases hid : link S t n with _ | id
  · rw [run_walk_none]
    simp [seenAfter]
  · by_cases hseen : id ∈ names S t n
    · rw [run_walk_seen _ _ _ _ (by simpa using hseen)]
      simp [seenAfter, hseen]
    · have hfetch : ((ofSnapshot S s).fetch id).run (seenAfter S s t w n).world =
          (S id, (seenAfter S s t w n).world) := rfl
      -- a stored and flapping ancestor would make the leading run longer
      have hend : ∀ r, S id = some r → (ofSnapshot S s).isFlapping r = false := fun r hr =>
        Bool.eq_false_iff.2 fun hflap =>
          hmax (leading_succ_iff.2 ⟨h, id, r, hid, hr, hflap, hseen⟩)
      rw [run_walk_new _ _ _ _ (by simpa using hseen), hfetch]
      rcases hr : S id with _ | r
      · simp [seenAfter, hseen]
      · simp [seenAfter, hseen, hend r hr]

/-- As long as each reply exceeds the last, `n` replies have counted up to `n`. -/
theorem le_toNat_reply (hgrow : ∀ j < n, (reply s.backoff w j).1 < (reply s.backoff w (j + 1)).1) :
    n ≤ (reply s.backoff w n).1.toNat := by
  induction n with
  | zero => exact Nat.zero_le _
  | succ n ih =>
    have hlast := ih fun j hj => hgrow j (by omega)
    have hnext := UInt64.lt_iff_toNat_lt.1 (hgrow n (by omega))
    omega

/-- The walk answers with the first reply that is not above the last, as soon as it is made. -/
theorem observedRun_of_stop (h : Leading S (s.isFlapping ·) t (n + 1))
    (hgrow : ∀ j < n, (reply s.backoff w j).1 < (reply s.backoff w (j + 1)).1)
    (hstop : (reply s.backoff w (n + 1)).1 ≤ (reply s.backoff w n).1) :
    observedRun S s t w = ((reply s.backoff w (n + 1)).1, seenAfter S s t w (n + 1)) := by
  obtain ⟨h, id, r, hid, hr, hflap, hnew⟩ := leading_succ_iff.1 h
  rw [observedRun_eq_walk h hgrow, run_walk_flapping hid hr hflap hnew,
    if_neg (UInt64.not_lt.2 hstop)]

/-- If no reply stops it, the walk answers with the last one it can ask for. -/
theorem observedRun_of_grow (hn : IsGreatest {n | Leading S (s.isFlapping ·) t n} n)
    (hgrow : ∀ j < n, (reply s.backoff w j).1 < (reply s.backoff w (j + 1)).1) :
    observedRun S s t w =
      ((reply s.backoff w n).1,
        { seenAfter S s t w n with
          lookups := names S t n ++ (link S t n).toList.filter (· ∉ names S t n) }) := by
  have hmax : ¬ Leading S (s.isFlapping ·) t (n + 1) := fun h => absurd (hn.2 h) (by simp)
  rw [observedRun_eq_walk hn.1 hgrow, run_walk_end hn.1 hmax]

/-- If the replies grow along every leading run, there is a longest one, since replies that keep
growing in 64 bits are not many. -/
theorem exists_isGreatest_of_grow
    (hgrow : ∀ n, Leading S (s.isFlapping ·) t n →
      ∀ j < n, (reply s.backoff w j).1 < (reply s.backoff w (j + 1)).1) :
    ∃ k, IsGreatest {n | Leading S (s.isFlapping ·) t n} k :=
  exists_isGreatest_of_le fun n h =>
    (le_toNat_reply (hgrow n h)).trans (reply s.backoff w n).1.toNat_lt_size.le

variable (S s t w) in
/-- A walk ends in one of two ways: at the first reply that is not above the last, or, if no reply
stops it, where no leading run goes further. -/
theorem observedRun_cases :
    (∃ n, Leading S (s.isFlapping ·) t (n + 1) ∧
      (reply s.backoff w (n + 1)).1 ≤ (reply s.backoff w n).1 ∧
      observedRun S s t w = ((reply s.backoff w (n + 1)).1, seenAfter S s t w (n + 1))) ∨
    ∃ k, IsGreatest {n | Leading S (s.isFlapping ·) t n} k ∧
      observedRun S s t w =
        ((reply s.backoff w k).1,
          { seenAfter S s t w k with
            lookups := names S t k ++ (link S t k).toList.filter (· ∉ names S t k) }) := by
  have hends : ∀ n, Leading S (s.isFlapping ·) t n →
      (∀ j < n, (reply s.backoff w j).1 < (reply s.backoff w (j + 1)).1) ∨
        ∃ n, Leading S (s.isFlapping ·) t (n + 1) ∧
          (reply s.backoff w (n + 1)).1 ≤ (reply s.backoff w n).1 ∧
          observedRun S s t w = ((reply s.backoff w (n + 1)).1, seenAfter S s t w (n + 1)) := by
    intro n h
    rcases grow_or_stop (fun j => (reply s.backoff w j).1) n with hgrow | ⟨m, hm, hgrow, hstop⟩
    · exact .inl hgrow
    · have hm' : Leading S (s.isFlapping ·) t (m + 1) := h.mono hm
      exact .inr ⟨m, hm', hstop, observedRun_of_stop hm' hgrow hstop⟩
  by_cases hstop : ∃ n, Leading S (s.isFlapping ·) t (n + 1) ∧
      (reply s.backoff w (n + 1)).1 ≤ (reply s.backoff w n).1 ∧
      observedRun S s t w = ((reply s.backoff w (n + 1)).1, seenAfter S s t w (n + 1))
  · exact .inl hstop
  · have hgrow := fun n h => (hends n h).resolve_right hstop
    obtain ⟨k, hk⟩ := exists_isGreatest_of_grow hgrow
    exact .inr ⟨k, hk, observedRun_of_grow hk (hgrow k hk.1)⟩

end Loop

/-- A walk is its reference. Let `aⱼ₊₁` be `link S t j` and `xⱼ` be `reply s.backoff w j`. A number
is at most the length of the longest run of stored, pairwise distinct and flapping ancestors exactly
when it is the length of such a run, so `Leading` says which `j` count.

* The walk itself answers, and leaves the world, as the watched one does.
* If some `xⱼ` is not above `xⱼ₋₁`, then at the least such `j` the answer is `xⱼ`; the names looked
  up are `a₁, …, aⱼ`, and the strategy is called `j` times, with `x₀, …, xⱼ₋₁`.
* If there is none, the run has a greatest length `k`, and the answer is `xₖ`; the names looked up
  are `a₁, …, aₖ` and then `aₖ₊₁`, if it exists and is not among them, and the strategy is called `k`
  times, with `x₀, …, xₖ₋₁`. -/
theorem penaltyMs_eq_reference (S : Snapshot) (s : Settings (UInt64 → StateM σ UInt64))
    (t : TaskRecord) (w : σ) :
    ((ofSnapshot S s).penaltyMs t).run w =
        ((observedRun S s t w).1, (observedRun S s t w).2.world) ∧
      (∀ j, IsLeast {j | 1 ≤ j ∧ Leading S (s.isFlapping ·) t j ∧
            (reply s.backoff w j).1 ≤ (reply s.backoff w (j - 1)).1} j →
        observedRun S s t w =
          ((reply s.backoff w j).1,
            { world := (reply s.backoff w j).2
              lookups := names S t j
              inputs := (List.range j).map fun i => (reply s.backoff w i).1 })) ∧
      ((∀ j, 1 ≤ j → Leading S (s.isFlapping ·) t j →
          (reply s.backoff w (j - 1)).1 < (reply s.backoff w j).1) →
        ∃ k, IsGreatest {n | Leading S (s.isFlapping ·) t n} k ∧
          observedRun S s t w =
            ((reply s.backoff w k).1,
              { world := (reply s.backoff w k).2
                lookups := names S t k ++ (link S t k).toList.filter (· ∉ names S t k)
                inputs := (List.range k).map fun i => (reply s.backoff w i).1 })) := by
  refine ⟨run_observed (ofSnapshot S s) t (.start w), ?_, ?_⟩
  · rintro j ⟨⟨hpos, hlead, hstop⟩, hleast⟩
    obtain ⟨n, rfl⟩ : ∃ n, j = n + 1 := ⟨j - 1, by omega⟩
    rw [Nat.add_sub_cancel] at hstop
    -- before the least stop every reply is above the last
    refine observedRun_of_stop hlead (fun i hi => ?_) hstop
    by_contra hle
    have hstop' : (reply s.backoff w (i + 1)).1 ≤ (reply s.backoff w (i + 1 - 1)).1 :=
      UInt64.not_lt.1 hle
    have := hleast ⟨by omega, hlead.mono (by omega), hstop'⟩
    omega
  · intro hgrow
    have hgrow' : ∀ n, Leading S (s.isFlapping ·) t n →
        ∀ i < n, (reply s.backoff w i).1 < (reply s.backoff w (i + 1)).1 := fun n h i hi =>
      hgrow (i + 1) (by omega) (h.mono hi)
    obtain ⟨k, hk⟩ := exists_isGreatest_of_grow hgrow'
    exact ⟨k, hk, observedRun_of_grow hk (hgrow' k hk.1)⟩

end Calculator

end Scheduling
