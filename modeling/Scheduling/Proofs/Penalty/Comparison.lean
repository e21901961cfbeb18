import Scheduling.Proofs.Penalty.Orbit

/-!
# Comparing two walks

Two walks with the same pure strategy run side by side, each over a store that may change while it
is read. If one of them, at each step, finds and flags no more than the other (`FindsLess`), it
answers with no longer a delay (`walk_le_walk`). Where it ends first it answers with the delay it
has, and since delays never shrink the other cannot fall below that (`le_walk`).
-/

namespace Scheduling.Calculator

variable {σ τ : Type} {f : UInt64 → UInt64} {c : Calculator (StateM σ)} {d : Calculator (StateM τ)}

/-- A walk with a pure strategy at a new ancestor. -/
theorem run_walk_pure (hc : ∀ last, c.settings.backoff last = pure (f last))
    {visited : List TaskId} {id : TaskId} (h : id ∉ visited) (penalty : UInt64) (w : σ) :
    (c.walk visited penalty (some id)).run w =
      match (c.fetch id).run w with
      | (none, w) => (penalty, w)
      | (some r, w) =>
        if c.isFlapping r then
          if penalty < f penalty then (c.walk (id :: visited) (f penalty) r.ancestor).run w
          else (f penalty, w)
        else (penalty, w) := by
  rw [walk, if_neg h, run_bind]
  rcases (c.fetch id).run w with ⟨_ | r, w'⟩
  · rfl
  · dsimp only
    split
    · rw [hc, pure_bind]
      split <;> rfl
    · rfl

/-- From a delay of the strategy on, a walk never answers with less. -/
theorem le_walk (hf : NonShrinking f) (hc : ∀ last, c.settings.backoff last = pure (f last))
    {n : ℕ} {penalty : UInt64} (hn : penalty = f^[n] 0) (visited : List TaskId)
    (next : Option TaskId) (w : σ) : penalty ≤ ((c.walk visited penalty next).run w).1 := by
  induction visited, penalty, next using walk.induct generalizing n w with
  | case1 visited penalty => rw [walk]; exact UInt64.le_refl penalty
  | case2 visited penalty id h => rw [walk, if_pos h]; exact UInt64.le_refl penalty
  | case3 visited penalty id h ih =>
    have hnext : f penalty = f^[n + 1] 0 := by rw [Function.iterate_succ_apply', hn]
    have hgrow : penalty ≤ f penalty := by rw [hnext, hn]; exact hf n
    rw [run_walk_pure hc h]
    rcases (c.fetch id).run w with ⟨_ | r, w'⟩
    · exact UInt64.le_refl penalty
    · dsimp only
      split
      · split
        · next hlt => exact UInt64.le_trans hgrow (ih r (f penalty) hlt hnext w')
        · exact hgrow
      · exact UInt64.le_refl penalty

/-- Two calculators have the pure strategy `f`, and in worlds that `R` relates the first finds and
flags no more than the second, and leaves worlds that `R` relates. -/
structure FindsLess (f : UInt64 → UInt64) (c : Calculator (StateM σ)) (d : Calculator (StateM τ))
    (R : σ → τ → Prop) : Prop where
  left_pure : ∀ last, c.settings.backoff last = pure (f last)
  right_pure : ∀ last, d.settings.backoff last = pure (f last)
  /-- What the first flags, the second flags. -/
  flags : ∀ r, c.isFlapping r = true → d.isFlapping r = true
  /-- What the first finds, the second finds. -/
  finds : ∀ id w v, R w v → ∀ r, ((c.fetch id).run w).1 = some r → ((d.fetch id).run v).1 = some r
  /-- A look-up keeps the worlds related. -/
  keeps : ∀ id w v, R w v → R ((c.fetch id).run w).2 ((d.fetch id).run v).2

/-- A walk that finds no more answers with no more. -/
theorem walk_le_walk (hf : NonShrinking f) {R : σ → τ → Prop} (h : FindsLess f c d R) {n : ℕ}
    {penalty : UInt64} (hn : penalty = f^[n] 0) (visited : List TaskId) (next : Option TaskId)
    {w : σ} {v : τ} (hwv : R w v) :
    ((c.walk visited penalty next).run w).1 ≤ ((d.walk visited penalty next).run v).1 := by
  -- the induction is the walk's own, and both walks stand at the same ancestor throughout
  induction visited, penalty, next using walk.induct generalizing n w v with
  | case1 visited penalty => rw [walk, walk]; exact UInt64.le_refl penalty
  | case2 visited penalty id hseen =>
    rw [walk, walk, if_pos hseen, if_pos hseen]
    exact UInt64.le_refl penalty
  | case3 visited penalty id hnew ih =>
    have hstop : penalty ≤ ((d.walk visited penalty (some id)).run v).1 :=
      le_walk hf h.right_pure hn visited (some id) v
    have hfinds := h.finds id w v hwv
    have hkeeps := h.keeps id w v hwv
    rw [run_walk_pure h.left_pure hnew]
    rcases hc : (c.fetch id).run w with ⟨_ | r, w'⟩ <;> rw [hc] at hfinds hkeeps
    · exact hstop
    · dsimp only at hfinds hkeeps ⊢
      by_cases hflag : c.isFlapping r = true
      · -- both find the record and flag it, so both take the same step
        rw [if_pos hflag, run_walk_pure h.right_pure hnew]
        rcases hd : (d.fetch id).run v with ⟨found, v'⟩
        rw [hd] at hfinds hkeeps
        obtain rfl : found = some r := hfinds r rfl
        dsimp only at hkeeps ⊢
        rw [if_pos (h.flags r hflag)]
        split
        · next hlt =>
          have hnext : f penalty = f^[n + 1] 0 := by rw [Function.iterate_succ_apply', hn]
          exact ih r (f penalty) hlt hnext hkeeps
        · exact UInt64.le_refl (f penalty)
      · rw [if_neg hflag]
        exact hstop

/-- The answer over a snapshot, with a pure strategy, is that of the walk in any world that the
look-ups leave alone. -/
theorem penaltyMs_eq_run (S : Snapshot) (s : Settings (UInt64 → UInt64)) (t : TaskRecord) (w : σ) :
    (⟨S, s⟩ : Calculator Id).penaltyMs t =
      (((ofSnapshot S s.stateless).penaltyMs t).run w).1 :=
  (walk_rel (.answer σ) (c := ofSnapshot S s.stateless) (d := ⟨S, s⟩) (fun _ _ => rfl)
    (fun _ _ => rfl) (fun _ => rfl) [] 0 t.ancestor w).symm

end Scheduling.Calculator
