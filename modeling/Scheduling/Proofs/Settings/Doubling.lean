import Mathlib.Tactic.Ring
import Scheduling.Backoff
import Scheduling.Proofs.Penalty.Orbit

/-!
# The delays of a truncated backoff

From no delay on, a truncated backoff doubles its first delay until it reaches the largest one, and
stays there. `toNat_iterate_next` gives each delay as an exact number, far beyond where doubling
would leave 64 bits.
-/

namespace Scheduling.TruncatedBackoff

variable (b : TruncatedBackoff)

/-- Every reply is a delay, and none is above the largest one. -/
theorem one_le_toNat_next_and_le (last : UInt64) :
    1 ≤ (b.next last).toNat ∧ (b.next last).toNat ≤ b.max.toNat := by
  have hpos : 0 < b.initial.toNat := UInt64.lt_iff_toNat_lt.1 b.initial_pos
  have hle : b.initial.toNat ≤ b.max.toNat := UInt64.le_iff_toNat_le.1 b.initial_le_max
  rw [toNat_next]
  split
  · omega
  · next hlast =>
    rw [← UInt64.toNat_inj, UInt64.toNat_zero] at hlast
    omega

/-- From any delay on, each step doubles it, up to the largest delay. -/
theorem toNat_iterate_next_of_ne_zero {last : UInt64} (hlast : last ≠ 0) (n : ℕ) :
    (b.next^[n + 1] last).toNat = min (last.toNat * 2 ^ (n + 1)) b.max.toNat := by
  induction n with
  | zero => rw [Function.iterate_one, toNat_next, if_neg hlast, pow_one, mul_comm]
  | succ n ih =>
    -- the last reply is a delay, so the step doubles it
    have hreply : b.next^[n + 1] last ≠ 0 := by
      rw [ne_eq, ← UInt64.toNat_inj, UInt64.toNat_zero, Function.iterate_succ_apply']
      exact Nat.one_le_iff_ne_zero.1 (b.one_le_toNat_next_and_le _).1
    rw [Function.iterate_succ_apply', toNat_next, if_neg hreply, ih, pow_succ _ (n + 1),
      ← mul_assoc]
    omega

/-- After `n` more steps the first delay is doubled `n` times, up to the largest delay. -/
theorem toNat_iterate_next (n : ℕ) :
    (b.next^[n + 1] 0).toNat = min (b.initial.toNat * 2 ^ n) b.max.toNat := by
  have hfirst : b.next 0 = b.initial := if_pos rfl
  rw [Function.iterate_succ_apply, hfirst]
  cases n with
  | zero =>
    rw [Function.iterate_zero_apply, pow_zero, mul_one]
    exact (min_eq_left (UInt64.le_iff_toNat_le.1 b.initial_le_max)).symm
  | succ n => exact b.toNat_iterate_next_of_ne_zero (UInt64.ne_of_lt b.initial_pos).symm n

/-- The delay after `k` steps in exact numbers. -/
theorem toNat_iterate_next_eq (k : ℕ) :
    (b.next^[k] 0).toNat =
      if k = 0 then 0 else min b.max.toNat (b.initial.toNat * 2 ^ (k - 1)) := by
  cases k with
  | zero => rfl
  | succ n => rw [toNat_iterate_next, if_neg n.succ_ne_zero, Nat.add_sub_cancel, min_comm]

/-- The delays never shrink. -/
theorem nonShrinking_next : NonShrinking b.next := by
  intro j
  rw [UInt64.le_iff_toNat_le]
  cases j with
  | zero => exact Nat.zero_le _
  | succ n =>
    rw [toNat_iterate_next, toNat_iterate_next, pow_succ, ← mul_assoc]
    omega

end Scheduling.TruncatedBackoff
