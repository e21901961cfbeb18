import Mathlib.Tactic.Common
import Scheduling.Config

/-!
# What the constructors of settings accept

A strategy, settings and the settings of a configuration are made by functions that check what they
are given. Each of them succeeds with a value exactly when the value's parts are those given, since
a value carries the proof that its parts pass the checks. For a configuration the parts come
through lengths of time and back, and lose nothing on the way (`toSettings_eq_ok_iff`).
-/

namespace Scheduling

/-- A strategy has the bounds it is made from, in whole milliseconds. -/
theorem TruncatedBackoff.ofDurations_eq_ok_iff {initial max : Duration} {b : TruncatedBackoff} :
    ofDurations initial max = .ok b ↔ b.initial = initial.toMillis ∧ b.max = max.toMillis := by
  constructor
  · intro h
    unfold ofDurations at h
    split at h
    · split at h
      · obtain rfl := Except.ok.inj h
        exact ⟨rfl, rfl⟩
      · cases h
    · cases h
  · obtain ⟨i, m, hpos, hle⟩ := b
    rintro ⟨hi, hm⟩
    dsimp only at hi hm
    subst hi hm
    rw [ofDurations, dif_pos hpos, dif_pos hle]

/-- Settings have the parts they are made from, and the default set of interrupted states. -/
theorem Settings.ofDurations_eq_ok_iff {β : Type} {backoff : β} {threshold startup : Duration}
    {s : Settings β} :
    ofDurations backoff threshold startup = .ok s ↔
      s.backoff = backoff ∧ s.flappingThreshold = threshold ∧ s.maxStartupDelay = startup ∧
        s.interrupted = .ofList Status.defaultInterrupted := by
  constructor
  · intro h
    unfold ofDurations at h
    split at h
    · split at h
      · obtain rfl := Except.ok.inj h
        exact ⟨rfl, rfl, rfl, rfl⟩
      · cases h
    · cases h
  · obtain ⟨b, th, st, int, hth, hst⟩ := s
    rintro ⟨hb, ht, hs, hi⟩
    dsimp only at hb ht hs hi
    subst hb ht hs hi
    rw [ofDurations, dif_pos hth, dif_pos hst]

/-- The settings of a configuration, as its definition has them. The equation is between functions,
since to compare their values at one configuration is to evaluate the checks there. -/
theorem Config.toSettings_eq : Config.toSettings = fun c =>
    match TruncatedBackoff.ofDurations (.ofMillis c.backoffInitialMs)
      (.ofMillis c.backoffMaxMs) with
    | .error cause => .error (.invalidBackoff cause)
    | .ok backoff =>
      Settings.ofDurations backoff (.ofMillis c.flappingThresholdMs)
        (.ofMillis c.maxStartupDelayMs) := rfl

/-- The settings of a configuration have its numbers. -/
theorem Config.toSettings_eq_ok_iff {c : Config} {s : Settings TruncatedBackoff} :
    c.toSettings = .ok s ↔
      s.backoff.initial = c.backoffInitialMs ∧ s.backoff.max = c.backoffMaxMs ∧
        s.flappingThreshold = .ofMillis c.flappingThresholdMs ∧
        s.maxStartupDelay = .ofMillis c.maxStartupDelayMs ∧
        s.interrupted = .ofList Status.defaultInterrupted := by
  have hbounds : ∀ b, TruncatedBackoff.ofDurations (.ofMillis c.backoffInitialMs)
      (.ofMillis c.backoffMaxMs) = .ok b ↔
        b.initial = c.backoffInitialMs ∧ b.max = c.backoffMaxMs := fun b => by
    rw [TruncatedBackoff.ofDurations_eq_ok_iff, Duration.toMillis_ofMillis,
      Duration.toMillis_ofMillis]
  rw [toSettings_eq]
  beta_reduce
  -- bounds that are refused are no strategy's bounds
  rcases hb : TruncatedBackoff.ofDurations (.ofMillis c.backoffInitialMs)
      (.ofMillis c.backoffMaxMs) with cause | b
  · constructor
    · intro h
      cases h
    · rintro ⟨hi, hm, -⟩
      cases hb.symm.trans ((hbounds s.backoff).2 ⟨hi, hm⟩)
  · obtain ⟨hi, hm⟩ := (hbounds b).1 hb
    refine Settings.ofDurations_eq_ok_iff.trans ⟨?_, ?_⟩
    · rintro ⟨rfl, h⟩
      exact ⟨hi, hm, h⟩
    · rintro ⟨hi', hm', h⟩
      have := hb.symm.trans ((hbounds s.backoff).2 ⟨hi', hm'⟩)
      exact ⟨(Except.ok.inj this).symm, h⟩

end Scheduling
