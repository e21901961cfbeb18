import Scheduling.Duration

/-!
# Backoff strategies

A strategy turns the last delay into the next, in milliseconds, starting from zero. The truncated
one doubles the delay from a first to a largest one (`TruncatedBinaryBackoff`); the constant one
ignores the last delay (`ConstantBackoff`). A function that is a strategy of its own needs no type
here.
-/

namespace Scheduling

/-- What is wrong with the bounds of a truncated backoff, in whole milliseconds
(`InvalidBackoff`). -/
inductive BackoffError where
  /-- The first delay is no delay. -/
  | noInitial
  /-- The largest delay is below the first. -/
  | maxBelowInitial (max initial : UInt64)
  deriving DecidableEq, Repr

/-- The wording of an error. -/
def BackoffError.message : BackoffError → String
  | .noInitial => "invalid backoff: initial backoff must be at least 1ms"
  | .maxBelowInitial max initial =>
    "invalid backoff: max backoff " ++ max.toNat.repr ++ "ms is below initial backoff "
      ++ initial.toNat.repr ++ "ms"

/-- Doubles the delay, from a first one up to a largest one. -/
structure TruncatedBackoff where
  initial : UInt64
  max : UInt64
  /-- The first delay is a delay. -/
  initial_pos : 0 < initial
  /-- The largest delay is not below the first. -/
  initial_le_max : initial ≤ max
  deriving DecidableEq

namespace TruncatedBackoff

/-- The strategy with the given bounds, cut to whole milliseconds (`new`). -/
def ofDurations (initial max : Duration) : Except BackoffError TruncatedBackoff :=
  if h0 : 0 < initial.toMillis then
    if h : initial.toMillis ≤ max.toMillis then .ok ⟨initial.toMillis, max.toMillis, h0, h⟩
    else .error (.maxBelowInitial max.toMillis initial.toMillis)
  else .error .noInitial

/-- Twice a delay, or the largest 64-bit number if that exceeds it (`saturating_mul`). -/
def doubled (delay : UInt64) : UInt64 :=
  UInt64.ofNat (Min.min (2 * delay.toNat) (UInt64.size - 1))

/-- Twice a delay in exact numbers, as far as 64 bits hold it. -/
theorem toNat_doubled (delay : UInt64) :
    (doubled delay).toNat = Min.min (2 * delay.toNat) (UInt64.size - 1) := by
  rw [doubled, UInt64.toNat_ofNat']
  simp only [UInt64.size]
  omega

/-- The delay after `last` (`calculate_backoff_ms`). -/
def next (b : TruncatedBackoff) (last : UInt64) : UInt64 :=
  if last = 0 then b.initial else Min.min (doubled last) b.max

/-- The next delay in exact numbers: where doubling stops short, the bound is reached anyway. -/
theorem toNat_next (b : TruncatedBackoff) (last : UInt64) :
    (b.next last).toNat =
      if last = 0 then b.initial.toNat else Min.min (2 * last.toNat) b.max.toNat := by
  have hmax : b.max.toNat ≤ UInt64.size - 1 := Nat.le_sub_one_of_lt b.max.toNat_lt
  unfold next
  split
  · rfl
  · show (if doubled last ≤ b.max then doubled last else b.max).toNat = _
    have hdoubled := toNat_doubled last
    split
    · next hle =>
      rw [UInt64.le_iff_toNat_le] at hle
      omega
    · next hnot =>
      rw [UInt64.le_iff_toNat_le] at hnot
      omega

end TruncatedBackoff

/-- Always the same delay. -/
structure ConstantBackoff where
  delay : UInt64
  deriving DecidableEq, Repr

namespace ConstantBackoff

/-- The strategy with the given delay, cut to whole milliseconds (`new`). -/
def ofDuration (delay : Duration) : ConstantBackoff := ⟨delay.toMillis⟩

/-- The delay after `last` (`calculate_backoff_ms`). -/
def next (b : ConstantBackoff) (_last : UInt64) : UInt64 := b.delay

end ConstantBackoff

end Scheduling
