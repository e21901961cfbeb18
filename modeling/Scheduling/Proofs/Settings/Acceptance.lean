import Scheduling.Proofs.Checks
import Scheduling.Proofs.Settings.Construction

/-!
# Which configurations make settings

The settings of a configuration are checked in two places, first the bounds of the strategy and then
the two lengths of time, and what is reported is the first condition that is broken. All four
conditions are about the numbers of the configuration itself, although the checks see them as
lengths of time: nothing is lost on the way there and back (`Duration.toMillis_ofMillis`), and no
number but zero makes no time (`Duration.isZero_ofMillis_iff`).

`Config.toSettings_exact` puts this together, and says what the settings are if no condition is
broken: the two lengths of time to the nanosecond, and the strategy at every delay, also where twice
the delay is more than 64 bits hold.
-/

namespace Scheduling

/-- Bounds are refused if the first delay is no delay, or else if the largest is below it. -/
theorem TruncatedBackoff.ofDurations_eq_error_iff {initial max : Duration} {cause : BackoffError} :
    ofDurations initial max = .error cause ↔
      (¬ 0 < initial.toMillis ∧ .noInitial = cause) ∨
        (0 < initial.toMillis ∧ ¬ initial.toMillis ≤ max.toMillis ∧
          .maxBelowInitial max.toMillis initial.toMillis = cause) := by
  unfold ofDurations
  by_cases hpos : 0 < initial.toMillis
  · rw [dif_pos hpos]
    by_cases hle : initial.toMillis ≤ max.toMillis
    · rw [dif_pos hle]
      simp only [hpos, hle, not_true, false_and, and_false, or_self, reduceCtorEq]
    · rw [dif_neg hle]
      simp only [hpos, hle, not_true, not_false_eq_true, true_and, false_and, false_or,
        Except.error.injEq]
  · rw [dif_neg hpos]
    simp only [hpos, not_false_eq_true, true_and, false_and, or_false, Except.error.injEq]

/-- Settings are refused if the threshold is no time, or else if the bound on the startup delay is
none. -/
theorem Settings.ofDurations_eq_error_iff {β : Type} {backoff : β} {threshold startup : Duration}
    {e : SettingsError} :
    ofDurations backoff threshold startup = .error e ↔
      (¬ threshold.isZero = false ∧ .notPositive .flappingThreshold = e) ∨
        (threshold.isZero = false ∧ ¬ startup.isZero = false ∧
          .notPositive .maxStartupDelay = e) := by
  unfold ofDurations
  by_cases ht : threshold.isZero = false
  · rw [dif_pos ht]
    by_cases hs : startup.isZero = false
    · rw [dif_pos hs]
      simp [ht, hs]
    · rw [dif_neg hs]
      simp [ht, hs]
  · rw [dif_neg ht]
    simp [ht]

namespace Config

/-- The conditions on a configuration in the order in which they are checked, each with the error if
it is broken. -/
def conditions (c : Config) : List (Prop × SettingsError) :=
  [(0 < c.backoffInitialMs, .invalidBackoff .noInitial),
   (c.backoffInitialMs ≤ c.backoffMaxMs,
     .invalidBackoff (.maxBelowInitial c.backoffMaxMs c.backoffInitialMs)),
   (0 < c.flappingThresholdMs, .notPositive .flappingThreshold),
   (0 < c.maxStartupDelayMs, .notPositive .maxStartupDelay)]

/-- The settings are what the numbers of the configuration say. -/
structure IsExact (c : Config) (s : Settings TruncatedBackoff) : Prop where
  threshold_millis : s.flappingThreshold.toMillis = c.flappingThresholdMs
  threshold_nanos : s.flappingThreshold.toNanos = c.flappingThresholdMs.toNat * 1000000
  startup_millis : s.maxStartupDelay.toMillis = c.maxStartupDelayMs
  startup_nanos : s.maxStartupDelay.toNanos = c.maxStartupDelayMs.toNat * 1000000
  /-- The strategy starts with the first delay, and then doubles up to the largest. -/
  next : ∀ last, (s.backoff.next last).toNat =
    if last = 0 then c.backoffInitialMs.toNat else min (2 * last.toNat) c.backoffMaxMs.toNat

variable {c : Config}

/-- A configuration is refused with the error of the first condition that it breaks. -/
theorem toSettings_eq_error_iff {e : SettingsError} :
    c.toSettings = .error e ↔
      ∃ condition, IsFirst Prod.fst c.conditions condition ∧ condition.2 = e := by
  simp only [conditions, exists_isFirst_cons_iff, not_isFirst_nil, false_and, exists_false,
    and_false, or_false]
  have hcause : ∀ cause, TruncatedBackoff.ofDurations (.ofMillis c.backoffInitialMs)
      (.ofMillis c.backoffMaxMs) = .error cause ↔
        (¬ 0 < c.backoffInitialMs ∧ .noInitial = cause) ∨
          (0 < c.backoffInitialMs ∧ ¬ c.backoffInitialMs ≤ c.backoffMaxMs ∧
            .maxBelowInitial c.backoffMaxMs c.backoffInitialMs = cause) := fun cause => by
    rw [TruncatedBackoff.ofDurations_eq_error_iff, Duration.toMillis_ofMillis,
      Duration.toMillis_ofMillis]
  rw [toSettings_eq]
  beta_reduce
  rcases hb : TruncatedBackoff.ofDurations (.ofMillis c.backoffInitialMs)
      (.ofMillis c.backoffMaxMs) with cause | b
  · -- the bounds break one of the first two conditions
    obtain ⟨hpos, rfl⟩ | ⟨hpos, hle, rfl⟩ := (hcause cause).1 hb
    · simp [hpos]
    · simp [hpos, hle]
  · -- a strategy has bounds that meet the first two conditions
    have hnone : ∀ cause, ¬ TruncatedBackoff.ofDurations (.ofMillis c.backoffInitialMs)
        (.ofMillis c.backoffMaxMs) = .error cause := fun cause h => by
      cases hb.symm.trans h
    have hpos : 0 < c.backoffInitialMs := by
      by_contra hpos
      exact hnone _ ((hcause _).2 (.inl ⟨hpos, rfl⟩))
    have hle : c.backoffInitialMs ≤ c.backoffMaxMs := by
      by_contra hle
      exact hnone _ ((hcause _).2 (.inr ⟨hpos, hle, rfl⟩))
    refine Settings.ofDurations_eq_error_iff.trans ?_
    simp only [Duration.isZero_ofMillis_iff, hpos, hle, not_true, true_and, false_and, false_or]

/-- A configuration makes settings exactly if it breaks no condition, and they are what its numbers
say. -/
theorem exists_toSettings_iff :
    (0 < c.backoffInitialMs ∧ c.backoffInitialMs ≤ c.backoffMaxMs ∧ 0 < c.flappingThresholdMs ∧
        0 < c.maxStartupDelayMs) ↔
      ∃ s, c.toSettings = .ok s ∧ c.IsExact s := by
  constructor
  · rintro ⟨hpos, hle, ht, hs⟩
    let s : Settings TruncatedBackoff :=
      ⟨⟨c.backoffInitialMs, c.backoffMaxMs, hpos, hle⟩, .ofMillis c.flappingThresholdMs,
        .ofMillis c.maxStartupDelayMs, .ofList Status.defaultInterrupted,
        Duration.isZero_ofMillis_iff.2 ht, Duration.isZero_ofMillis_iff.2 hs⟩
    refine ⟨s, toSettings_eq_ok_iff.2 ⟨rfl, rfl, rfl, rfl, rfl⟩, ?_⟩
    exact {
      threshold_millis := Duration.toMillis_ofMillis _
      threshold_nanos := Duration.toNanos_ofMillis _
      startup_millis := Duration.toMillis_ofMillis _
      startup_nanos := Duration.toNanos_ofMillis _
      next := fun last => s.backoff.toNat_next last }
  · rintro ⟨s, hs, -⟩
    obtain ⟨hinitial, hmax, ht, hd, -⟩ := toSettings_eq_ok_iff.1 hs
    refine ⟨hinitial ▸ s.backoff.initial_pos, ?_, ?_, ?_⟩
    · rw [← hinitial, ← hmax]
      exact s.backoff.initial_le_max
    · rw [← Duration.isZero_ofMillis_iff, ← ht]
      exact s.threshold_pos
    · rw [← Duration.isZero_ofMillis_iff, ← hd]
      exact s.startup_pos

/-- What settings a configuration makes, whatever its numbers.

* It makes settings exactly if the first delay of the strategy is a delay, the largest is not below
  it, and the threshold and the bound on the startup delay are some time. The settings have these
  two times to the nanosecond, and the whole milliseconds in them are the numbers of the
  configuration; and the strategy starts with the first delay and then doubles up to the largest, in
  exact numbers.
* Else there is an error, that of the first of these conditions that is broken.
* The errors tell what is wrong, for the second condition with both numbers. -/
theorem toSettings_exact (c : Config) :
    ((0 < c.backoffInitialMs ∧ c.backoffInitialMs ≤ c.backoffMaxMs ∧ 0 < c.flappingThresholdMs ∧
        0 < c.maxStartupDelayMs) ↔ ∃ s, c.toSettings = .ok s ∧ c.IsExact s) ∧
      (∀ e, c.toSettings = .error e ↔
        ∃ condition, IsFirst Prod.fst c.conditions condition ∧ condition.2 = e) ∧
      c.conditions.map (fun condition => condition.2.message) =
        ["invalid backoff: initial backoff must be at least 1ms",
         "invalid backoff: max backoff " ++ c.backoffMaxMs.toNat.repr
           ++ "ms is below initial backoff " ++ c.backoffInitialMs.toNat.repr ++ "ms",
         "flapping_threshold must be positive, got 0ns",
         "max_startup_delay must be positive, got 0ns"] :=
  ⟨exists_toSettings_iff, fun _ => toSettings_eq_error_iff, rfl⟩

end Config

end Scheduling
