import Scheduling.Proofs.Penalty.Reference

/-!
# Walks with a pure strategy

A strategy without a state replies with the iterates of one function `f` on zero. If these never
shrink, then once they stop growing they stay, so a walk that ends there misses nothing: its answer
is the iterate that counts every leading flapping ancestor (`penaltyMs_eq_iterate`), whether or not
the walk has read them all.
-/

namespace Scheduling

open Ancestry

/-- The delays of a pure strategy, from no delay on, never shrink. -/
def NonShrinking (f : UInt64 → UInt64) : Prop := ∀ j, f^[j] 0 ≤ f^[j + 1] 0

/-- The settings with a pure strategy as one that leaves the world alone. -/
def Settings.stateless {σ : Type} (s : Settings (UInt64 → UInt64)) :
    Settings (UInt64 → StateM σ UInt64) :=
  s.map fun f last => pure (f last)

/-- Delays that never shrink stay as they are from where they do not grow. -/
theorem NonShrinking.iterate_eq {f : UInt64 → UInt64} (hf : NonShrinking f) {n m : ℕ}
    (hstop : f^[n + 1] 0 ≤ f^[n] 0) (hm : n ≤ m) : f^[m] 0 = f^[n] 0 := by
  -- neither growing nor shrinking, the delay is a fixed point
  have hfix : f (f^[n] 0) = f^[n] 0 := by
    rw [← Function.iterate_succ_apply' f]
    exact UInt64.le_antisymm hstop (hf n)
  obtain ⟨i, rfl⟩ := Nat.exists_eq_add_of_le hm
  rw [Nat.add_comm, Function.iterate_add_apply, Function.iterate_fixed hfix]

/-- A delay that is always the same does not shrink. -/
theorem ConstantBackoff.nonShrinking_next (b : ConstantBackoff) : NonShrinking b.next := by
  intro j
  cases j with
  | zero => exact UInt64.le_iff_toNat_le.2 (Nat.zero_le _)
  | succ j =>
    rw [Function.iterate_succ_apply' b.next, Function.iterate_succ_apply' b.next (j + 1)]
    exact UInt64.le_refl b.delay

namespace Calculator

variable {S : Snapshot} {t : TaskRecord}

/-- The replies of a pure strategy are its iterates on zero. -/
theorem reply_pure (f : UInt64 → UInt64) (j : ℕ) :
    reply (fun last => (pure (f last) : StateM Unit UInt64)) () j = (f^[j] 0, ()) := by
  induction j with
  | zero => rfl
  | succ j ih => rw [reply_succ, ih, Function.iterate_succ_apply' f]; rfl

/-- With a pure strategy whose delays never shrink, the answer counts every leading flapping
ancestor, read or not. -/
theorem penaltyMs_eq_iterate {s : Settings (UInt64 → UInt64)} (hf : NonShrinking s.backoff) {k : ℕ}
    (hk : IsGreatest {n | Leading S (s.isFlapping ·) t n} k) :
    (⟨S, s⟩ : Calculator Id).penaltyMs t = s.backoff^[k] 0 := by
  rw [← fst_run_observed_pure S s t (.start ())]
  set s' : Settings (UInt64 → StateM Unit UInt64) := s.map fun f last => pure (f last) with hs'
  have hreply : ∀ j, (reply s'.backoff () j).1 = s.backoff^[j] 0 := fun j =>
    congrArg Prod.fst (reply_pure s.backoff j)
  have hk' : IsGreatest {n | Leading S (s'.isFlapping ·) t n} k := hk
  rcases grow_or_stop (fun j => s.backoff^[j] 0) k with hgrow | ⟨n, hn, hgrow, hstop⟩
  · exact (congrArg Prod.fst (observedRun_of_grow hk' (by simpa only [hreply] using hgrow))).trans
      (hreply k)
  · -- the walk ends at the first delay that does not grow, and no later one differs from it
    have hrun := observedRun_of_stop (w := ()) (hk'.1.mono (by omega : n + 1 ≤ k))
      (by simpa only [hreply] using hgrow) (by simpa only [hreply] using hstop)
    calc (observedRun S s' t ()).1 = s.backoff^[n + 1] 0 :=
          (congrArg Prod.fst hrun).trans (hreply (n + 1))
      _ = s.backoff^[n] 0 := hf.iterate_eq hstop (by omega)
      _ = s.backoff^[k] 0 := (hf.iterate_eq hstop (by omega)).symm

end Calculator

end Scheduling
