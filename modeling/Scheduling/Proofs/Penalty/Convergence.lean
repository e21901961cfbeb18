import Scheduling.Proofs.Penalty.Plain
import Scheduling.Proofs.Settings.Construction

/-!
# Truncated backoffs converge

From any delay on, the replies of a truncated backoff approach the largest delay: below it they
grow (`lt_next_iff`), above it they fall to it (`next_lt_iff`), and it is the only one that stays
(`next_eq_self_iff`). Since a delay is doubled in each step, and 64 doublings take any delay to the
end of 64 bits, no more steps are needed (`iterate_next_eq_max`). So over enough flapping ancestors
a walk ends because the delay no longer grows (`exists_observedRun_eq_max`), and not for want of
ancestors. `next_converges` puts this together.
-/

namespace Scheduling

open Ancestry Calculator

namespace TruncatedBackoff

variable (b : TruncatedBackoff) {last : UInt64} {n : ℕ}

/-- Just the delays below the largest one grow. -/
theorem lt_next_iff : last < b.next last ↔ last < b.max := by
  have hbounds := b.one_le_toNat_next_and_le last
  have hle : b.initial.toNat ≤ b.max.toNat := UInt64.le_iff_toNat_le.1 b.initial_le_max
  rw [UInt64.lt_iff_toNat_lt, UInt64.lt_iff_toNat_lt]
  constructor
  · omega
  · intro hlt
    by_cases hzero : last = 0
    · subst hzero
      exact hbounds.1
    · have hnext := b.toNat_next last
      rw [if_neg hzero] at hnext
      rw [← UInt64.toNat_inj, UInt64.toNat_zero] at hzero
      omega

/-- Just the delays above the largest one shrink. -/
theorem next_lt_iff : b.next last < last ↔ b.max < last := by
  have hbounds := b.one_le_toNat_next_and_le last
  rw [UInt64.lt_iff_toNat_lt, UInt64.lt_iff_toNat_lt]
  constructor
  · intro hlt
    have hzero : last ≠ 0 := by
      rintro rfl
      exact absurd hlt (Nat.not_lt_zero _)
    have hnext := b.toNat_next last
    rw [if_neg hzero] at hnext
    omega
  · omega

/-- Just the largest delay stays as it is. -/
theorem next_eq_self_iff : b.next last = last ↔ last = b.max := by
  have hgrows : last < b.next last ↔ last < b.max := b.lt_next_iff
  have hshrinks : b.next last < last ↔ b.max < last := b.next_lt_iff
  rw [UInt64.lt_iff_toNat_lt, UInt64.lt_iff_toNat_lt] at hgrows hshrinks
  rw [← UInt64.toNat_inj, ← UInt64.toNat_inj]
  omega

/-- A longer delay is not followed by a shorter one, if neither is zero. -/
theorem next_le_next {longer : UInt64} (hlast : 1 ≤ last) (hle : last ≤ longer) :
    b.next last ≤ b.next longer := by
  rw [UInt64.le_iff_toNat_le] at hlast hle ⊢
  have hne : ∀ x : UInt64, (1 : UInt64).toNat ≤ x.toNat → x ≠ 0 := by
    rintro _ hx rfl
    exact absurd hx (by decide)
  rw [toNat_next, toNat_next, if_neg (hne last hlast), if_neg (hne longer (hlast.trans hle))]
  omega

/-- No delay that a walk comes to is above the largest one. -/
theorem iterate_next_le_max (n : ℕ) : b.next^[n] 0 ≤ b.max := by
  rw [UInt64.le_iff_toNat_le]
  cases n with
  | zero => exact Nat.zero_le _
  | succ n =>
    rw [Function.iterate_succ_apply']
    exact (b.one_le_toNat_next_and_le _).2

/-- In 64 doublings any delay exceeds what 64 bits hold. -/
theorem toNat_max_le {first : ℕ} (hfirst : 0 < first) (hn : 64 ≤ n) :
    b.max.toNat ≤ first * 2 ^ n :=
  calc b.max.toNat ≤ 2 ^ 64 := b.max.toNat_lt.le
    _ ≤ 2 ^ n := Nat.pow_le_pow_right Nat.two_pos hn
    _ ≤ first * 2 ^ n := Nat.le_mul_of_pos_left _ hfirst

/-- The delays of a walk have become the largest one when the first delay, doubled as often, has. -/
theorem iterate_succ_next_eq_max (hn : b.max.toNat ≤ b.initial.toNat * 2 ^ n) :
    b.next^[n + 1] 0 = b.max := by
  rw [← UInt64.toNat_inj, toNat_iterate_next, min_eq_right hn]

/-- From any delay on, 64 steps lead to the largest one, and there it stays. From no delay on it
takes one step more, which makes the first delay. -/
theorem iterate_next_eq_max (hn : (if last = 0 then 65 else 64) ≤ n) :
    b.next^[n] last = b.max := by
  obtain ⟨k, rfl⟩ : ∃ k, n = k + 1 := ⟨n - 1, by split at hn <;> omega⟩
  by_cases hzero : last = 0
  · rw [if_pos hzero] at hn
    subst hzero
    have hfirst : 0 < b.initial.toNat := UInt64.lt_iff_toNat_lt.1 b.initial_pos
    exact b.iterate_succ_next_eq_max (b.toNat_max_le hfirst (by omega))
  · rw [if_neg hzero] at hn
    have hfirst : 0 < last.toNat :=
      Nat.pos_of_ne_zero fun h => hzero (UInt64.toNat_inj.1 h)
    rw [← UInt64.toNat_inj, b.toNat_iterate_next_of_ne_zero hzero,
      min_eq_right (b.toNat_max_le hfirst hn)]

end TruncatedBackoff

/-- Over enough flapping ancestors a walk ends at the first call of the strategy that is given the
largest delay, and whose reply is again the largest delay. -/
theorem Calculator.exists_observedRun_eq_max {s : Settings TruncatedBackoff} {S : Snapshot}
    {t : TaskRecord} {n : ℕ} (hn : s.backoff.max.toNat ≤ s.backoff.initial.toNat * 2 ^ n)
    (hlead : Leading S (s.isFlapping ·) t (n + 2)) :
    ∃ j ≤ n + 1, (∀ i < j, s.backoff.next^[i] 0 < s.backoff.next^[i + 1] 0) ∧
      s.backoff.next^[j] 0 = s.backoff.max ∧
      observedRun S (s.map TruncatedBackoff.next).stateless t () =
        (s.backoff.max,
          { world := ()
            lookups := names S t (j + 1)
            inputs := (List.range (j + 1)).map fun i => s.backoff.next^[i] 0 }) := by
  set b := s.backoff
  have hreply : ∀ i, (reply (s.map TruncatedBackoff.next).stateless.backoff () i) =
      (b.next^[i] 0, ()) := reply_pure b.next
  rcases grow_or_stop (fun i => b.next^[i] 0) (n + 2) with hgrow | ⟨j, hj, hgrow, hstop⟩
  · -- from the largest delay on none grows
    have hlast := hgrow (n + 1) (by omega)
    rw [Function.iterate_succ_apply' b.next (n + 1), TruncatedBackoff.lt_next_iff,
      b.iterate_succ_next_eq_max hn] at hlast
    exact absurd hlast (UInt64.lt_irrefl _)
  · have hmax : b.next^[j] 0 = b.max := by
      refine UInt64.le_antisymm (b.iterate_next_le_max j) (UInt64.not_lt.1 fun hlt => ?_)
      rw [← TruncatedBackoff.lt_next_iff, ← Function.iterate_succ_apply' b.next] at hlt
      exact UInt64.not_lt.2 hstop hlt
    have hstays : b.next^[j + 1] 0 = b.max := by
      rw [Function.iterate_succ_apply' b.next, b.next_eq_self_iff.2 hmax, hmax]
    refine ⟨j, by omega, hgrow, hmax, ?_⟩
    have hrun := observedRun_of_stop (s := (s.map TruncatedBackoff.next).stateless) (w := ())
      (hlead.mono (by omega : j + 1 ≤ n + 2)) (by simpa only [hreply] using hgrow)
      (by simpa only [hreply] using hstop)
    rw [hrun, seenAfter]
    simp only [hreply, hstays]

namespace TruncatedBackoff

/-- How a truncated backoff runs, from whatever delay it starts. Let it be made from two lengths of
time.

* Its bounds are their whole milliseconds, and the first delay is a delay and not above the largest.
* No reply is zero or above the largest delay.
* Delays below the largest one grow, those above it shrink, and it alone stays as it is.
* A longer delay is not followed by a shorter one, if neither is zero.
* The first delay is doubled in each step, up to the largest one.
* From any delay on, 64 steps lead to the largest one, and there it stays. From no delay on it takes
  65 steps.
* So many doublings are always enough to take the first delay to the largest. If `n` are, and the
  first `n + 2` ancestors are stored, pairwise distinct and flapping, then a walk ends because the
  delay no longer grows: it answers with the largest delay, as soon as it has given this to the
  strategy and got it back, and looks up no name after that. -/
theorem next_converges {initial max : Duration} {b : TruncatedBackoff}
    (h : ofDurations initial max = .ok b) :
    (b.initial = initial.toMillis ∧ b.max = max.toMillis ∧ 1 ≤ b.initial ∧ b.initial ≤ b.max) ∧
      (∀ x, 1 ≤ b.next x ∧ b.next x ≤ b.max) ∧
      (∀ x, (x < b.next x ↔ x < b.max) ∧ (b.next x < x ↔ b.max < x) ∧
        (b.next x = x ↔ x = b.max)) ∧
      (∀ x y, 1 ≤ x → x ≤ y → b.next x ≤ b.next y) ∧
      (∀ n, (b.next^[n + 1] 0).toNat = min (b.initial.toNat * 2 ^ n) b.max.toNat) ∧
      (∀ x n, (if x = 0 then 65 else 64) ≤ n → b.next^[n] x = b.max) ∧
      b.max.toNat ≤ b.initial.toNat * 2 ^ 64 ∧
      ∀ (s : Settings TruncatedBackoff) (S : Snapshot) (t : TaskRecord) (n : ℕ), s.backoff = b →
        b.max.toNat ≤ b.initial.toNat * 2 ^ n → Leading S (s.isFlapping ·) t (n + 2) →
          ∃ j ≤ n + 1, (∀ i < j, b.next^[i] 0 < b.next^[i + 1] 0) ∧ b.next^[j] 0 = b.max ∧
            observedRun S (s.map TruncatedBackoff.next).stateless t () =
              (b.max,
                { world := ()
                  lookups := names S t (j + 1)
                  inputs := (List.range (j + 1)).map fun i => b.next^[i] 0 }) := by
  obtain ⟨hinitial, hmax⟩ := ofDurations_eq_ok_iff.1 h
  have hpos : 0 < b.initial.toNat := UInt64.lt_iff_toNat_lt.1 b.initial_pos
  refine ⟨⟨hinitial, hmax, UInt64.le_iff_toNat_le.2 hpos, b.initial_le_max⟩, fun x => ?_,
    fun x => ⟨b.lt_next_iff, b.next_lt_iff, b.next_eq_self_iff⟩, fun x y => b.next_le_next,
    b.toNat_iterate_next, fun x n => b.iterate_next_eq_max, b.toNat_max_le hpos le_rfl, ?_⟩
  · obtain ⟨hone, hle⟩ := b.one_le_toNat_next_and_le x
    exact ⟨UInt64.le_iff_toNat_le.2 hone, UInt64.le_iff_toNat_le.2 hle⟩
  · rintro s S t n rfl hn hlead
    exact exists_observedRun_eq_max hn hlead

end TruncatedBackoff

/-! ## A walk that ends though its ancestors do not -/

/-- Whether a record is flagged depends on its events alone. -/
theorem Settings.isFlapping_congr {β : Type} {s : Settings β} {r r' : TaskRecord}
    (h : r'.events = r.events) : s.isFlapping r' = s.isFlapping r := by
  unfold isFlapping TaskRecord.passedThrough TaskRecord.lifetimeMs TaskRecord.firstEvent
    TaskRecord.latestEvent
  rw [h]

/-- The name of some letters, at least one. -/
def lettersId (n : ℕ) : TaskId where
  text := String.ofList (List.replicate (n + 1) 'a')
  text_isWord := by
    refine ⟨by simp, fun c hc => ?_⟩
    obtain rfl : c = 'a' := by simpa using hc
    decide

/-- A flapping task under every name, with an ancestor that has one letter more. -/
def endlessFlappy : Snapshot := fun id =>
  some ((Sample.flappyTask id).withAncestor (lettersId id.text.length))

/-- The ancestors from the first letter on. -/
theorem link_endlessFlappy {t : TaskRecord} (ht : t.ancestor = some (lettersId 0)) (j : ℕ) :
    link endlessFlappy t j = some (lettersId j) := by
  induction j with
  | zero => exact ht
  | succ j ih =>
    rw [link_succ ih rfl]
    simp [TaskRecord.withAncestor, lettersId]

/-- They are flapping without end, by any settings that flag such tasks. -/
theorem leading_endlessFlappy {P : TaskRecord → Prop} {t : TaskRecord}
    (ht : t.ancestor = some (lettersId 0))
    (hP : ∀ id ancestor, P ((Sample.flappyTask id).withAncestor ancestor)) (n : ℕ) :
    Leading endlessFlappy P t n := by
  refine ⟨fun j _ => ⟨lettersId j, _, link_endlessFlappy ht j, rfl, hP _ _⟩,
    fun i j hij _ heq => ?_⟩
  rw [link_endlessFlappy ht, link_endlessFlappy ht] at heq
  have hlength := congrArg (fun id => id.text.length) (Option.some.inj heq)
  simp [lettersId] at hlength
  omega

/-- From one millisecond up to what 64 bits hold, a walk over ancestors without end ends, and looks
up no more than 66 names. -/
theorem TruncatedBackoff.next_converges_endlessFlappy :
    let b : TruncatedBackoff := ⟨1, 18446744073709551615, by decide, by decide⟩
    let s : Settings TruncatedBackoff := Settings.byDefault.map fun _ => b
    let t : TaskRecord := (Sample.task ⟨"t", by decide⟩ .pending).withAncestor (lettersId 0)
    let run := observedRun endlessFlappy (s.map TruncatedBackoff.next).stateless t ()
    ofDurations (.ofMillis 1) (.ofMillis 18446744073709551615) = .ok b ∧
      b.next 3 ≤ b.next 5 ∧ b.next^[64] 1 = b.max ∧ b.next^[65] 0 = b.max ∧
      (∀ n, Leading endlessFlappy (s.isFlapping ·) t n) ∧
      run.1 = b.max ∧ run.2.lookups.length ≤ 66 := by
  intro b s t run
  have hb : ofDurations (.ofMillis 1) (.ofMillis 18446744073709551615) = .ok b :=
    ofDurations_eq_ok_iff.2
      ⟨(Duration.toMillis_ofMillis 1).symm, (Duration.toMillis_ofMillis _).symm⟩
  have hflaps : s.isFlapping (Sample.flappyTask ⟨"a", by decide⟩) = true := by decide
  have hlead : ∀ n, Leading endlessFlappy (s.isFlapping ·) t n :=
    leading_endlessFlappy rfl fun _ _ => (Settings.isFlapping_congr rfl).trans hflaps
  obtain ⟨-, -, -, hmono, -, hreach, henough, hwalk⟩ := next_converges hb
  obtain ⟨j, hj, -, -, hrun⟩ := hwalk s endlessFlappy t 64 rfl henough (hlead _)
  have hlength : (names endlessFlappy t (j + 1)).length = j + 1 := (hlead (j + 1)).nodup_names.2
  refine ⟨hb, hmono 3 5 (by decide) (by decide), hreach 1 64 (by decide), hreach 0 65 (by decide),
    hlead, ?_⟩
  rw [show run = _ from hrun]
  refine ⟨rfl, ?_⟩
  rw [hlength]
  omega

end Scheduling
