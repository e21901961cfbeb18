import Scheduling.Proofs.Penalty.Configured
import Scheduling.Sample

/-!
# Lifetimes against the threshold

By exact times, a task is flapping if nothing interrupted it and the time from its first event to
its last is shorter than the threshold (`Settings.DiedWithin`). The flag of a record compares two
numbers of milliseconds instead: a lifetime that is never above what a signed 64-bit number holds,
and the threshold without its part below a millisecond (`Settings.isFlapping_iff_lived`).

So there are two ways for the flag to be wrong (`Settings.isFlapping_wrong`). A lifetime of just the
whole milliseconds of a threshold that has more than these is shorter than the threshold, and is not
flagged; below a threshold of less than a millisecond nothing ever is. And where the threshold is
above all lifetimes that can be told apart, a longer one is flagged as well.
-/

namespace Scheduling

/-- The milliseconds from the first event to the last, as an exact number; a time below zero counts
as none. -/
def TaskRecord.spanMs (r : TaskRecord) (h : r.events ≠ []) : ℕ :=
  ((r.events.getLast h).timestampMs.toInt - (r.events.head h).timestampMs.toInt).toNat

/-- The longest lifetime that a signed 64-bit number holds, in milliseconds. -/
def longestLifetimeMs : ℕ := 2 ^ 63 - 1

/-- An integer cut to signed 64 bits, with none left below zero. -/
theorem toNat_toInt_ofIntClamp (z : ℤ) :
    (Int64.ofIntClamp z).toInt.toNat = min z.toNat longestLifetimeMs := by
  have hmin : Int64.minValue.toInt = -2 ^ 63 := by decide
  have hmax : Int64.maxValue.toInt = 2 ^ 63 - 1 := by decide
  unfold Int64.ofIntClamp longestLifetimeMs
  split
  · split
    · rw [Int64.toInt_ofIntLE]
      omega
    · rw [hmax]
      omega
  · rw [hmin]
    omega

namespace Settings

variable {β : Type} {s : Settings β} {r : TaskRecord} {P Q : ℕ → Prop}

/-- The task has a history, nothing interrupted it, and the milliseconds that it lived have the
property `P`. -/
def Lived (s : Settings β) (r : TaskRecord) (P : ℕ → Prop) : Prop :=
  ∃ h : r.events ≠ [], (∀ e ∈ r.events, e.status ∉ s.interrupted) ∧ P (r.spanMs h)

/-- Nothing interrupted the task, and by exact times it lived shorter than the threshold. -/
def DiedWithin (s : Settings β) (r : TaskRecord) : Prop :=
  s.Lived r fun span => span * 1000000 < s.flappingThreshold.toNanos

/-- A task lived for one number of milliseconds, so what does not hold of its life fails of this
number. -/
theorem lived_and_not_lived_iff :
    s.Lived r P ∧ ¬ s.Lived r Q ↔ s.Lived r fun span => P span ∧ ¬ Q span := by
  constructor
  · rintro ⟨⟨h, hcalm, hp⟩, hq⟩
    exact ⟨h, hcalm, hp, fun hq' => hq ⟨h, hcalm, hq'⟩⟩
  · rintro ⟨h, hcalm, hp, hq⟩
    exact ⟨⟨h, hcalm, hp⟩, fun ⟨_, _, hq'⟩ => hq hq'⟩

/-- Properties that hold of the same numbers hold of the same lifetimes. -/
theorem lived_congr (h : ∀ span, P span ↔ Q span) : s.Lived r P ↔ s.Lived r Q :=
  exists_congr fun _ => and_congr_right fun _ => h _

/-- The flag compares the lifetime, as far as 64 bits hold it, with the whole milliseconds of the
threshold. -/
theorem isFlapping_iff_lived :
    s.isFlapping r = true ↔
      s.Lived r fun span =>
        min span longestLifetimeMs < s.flappingThreshold.toNanos / 1000000 := by
  rw [isFlapping_iff, Duration.toNat_toMillis]
  by_cases hevents : r.events = []
  · rw [TaskRecord.lifetimeMs_of_nil hevents]
    refine iff_of_false ?_ fun ⟨h, _⟩ => h hevents
    rintro ⟨-, lifetime, hlifetime, -⟩
    cases hlifetime
  · -- all lifetimes are below the largest threshold that 64 bits hold
    have hbelow : ∀ span whole : ℕ, min span longestLifetimeMs < min whole (UInt64.size - 1) ↔
        min span longestLifetimeMs < whole := by
      intro span whole
      simp only [longestLifetimeMs, UInt64.size]
      omega
    rw [TaskRecord.lifetimeMs_of_ne_nil hevents]
    constructor
    · rintro ⟨hcalm, lifetime, hlifetime, hshort⟩
      obtain rfl := Option.some.inj hlifetime
      rw [toNat_toInt_ofIntClamp] at hshort
      exact ⟨hevents, hcalm, (hbelow _ _).1 hshort⟩
    · rintro ⟨_, hcalm, hshort⟩
      refine ⟨hcalm, _, rfl, ?_⟩
      rw [toNat_toInt_ofIntClamp]
      exact (hbelow _ _).2 hshort

/-- A task with one event lived no time, so it is flagged if the event is no interruption and the
threshold is not below a millisecond. -/
theorem isFlapping_of_singleton {e : TaskEvent} (h : r.events = [e]) :
    s.isFlapping r = true ↔
      e.status ∉ s.interrupted ∧ 1000000 ≤ s.flappingThreshold.toNanos := by
  have hne : r.events ≠ [] := h ▸ List.cons_ne_nil e []
  have hspan : r.spanMs hne = 0 := by simp [TaskRecord.spanMs, h]
  rw [isFlapping_iff_lived]
  constructor
  · rintro ⟨_, hcalm, hshort⟩
    rw [hspan] at hshort
    exact ⟨hcalm e (by simp [h]), by omega⟩
  · rintro ⟨hcalm, hle⟩
    refine ⟨hne, by simpa [h] using hcalm, ?_⟩
    rw [hspan]
    omega

/-- How the flag of a record is related to the exact lifetime of its task.

* The flag compares the lifetime, as far as 64 bits hold it, with the whole milliseconds of the
  threshold.
* A task that died within the threshold is not flagged exactly when it lived for the whole
  milliseconds of the threshold, as far as 64 bits hold them, and the threshold has a part below a
  millisecond.
* A task that did not is flagged exactly when the threshold has more whole milliseconds than a
  lifetime of 64 bits, and the task lived at least as long.
* A task with one event that is no interruption is flagged exactly when the threshold is not below a
  millisecond. -/
theorem isFlapping_wrong (s : Settings β) (r : TaskRecord) :
    (s.isFlapping r = true ↔
        s.Lived r fun span =>
          min span longestLifetimeMs < s.flappingThreshold.toNanos / 1000000) ∧
      (s.DiedWithin r ∧ ¬ s.isFlapping r = true ↔
        s.Lived r fun span =>
          span = s.flappingThreshold.toNanos / 1000000 ∧ span ≤ longestLifetimeMs ∧
            0 < s.flappingThreshold.toNanos % 1000000) ∧
      (s.isFlapping r = true ∧ ¬ s.DiedWithin r ↔
        s.Lived r fun span =>
          longestLifetimeMs < s.flappingThreshold.toNanos / 1000000 ∧
            s.flappingThreshold.toNanos ≤ span * 1000000) ∧
      ∀ e, s.isFlapping (r.withEvents [e]) = true ↔
        e.status ∉ s.interrupted ∧ 1000000 ≤ s.flappingThreshold.toNanos := by
  refine ⟨isFlapping_iff_lived, ?_, ?_, fun e => isFlapping_of_singleton rfl⟩
  · rw [isFlapping_iff_lived, DiedWithin, lived_and_not_lived_iff]
    exact lived_congr fun span => by omega
  · rw [isFlapping_iff_lived, DiedWithin, lived_and_not_lived_iff]
    exact lived_congr fun span => by omega

/-- Settings with a threshold of half a millisecond. -/
def halfMillisecond : Settings ConstantBackoff :=
  ⟨⟨1000⟩, ⟨0, 500000, by decide⟩, .ofMillis 60000, .ofList Status.defaultInterrupted, rfl, rfl⟩

/-- A threshold of half a millisecond is accepted, but a task that failed at once is not flagged,
though it lived for a shorter time than that. -/
theorem not_isFlapping_iff_diedWithin_halfMillisecond :
    Settings.ofDurations ⟨1000⟩ ⟨0, 500000, by decide⟩ (.ofMillis 60000) = .ok halfMillisecond ∧
      ¬ (halfMillisecond.isFlapping
            ((Sample.task ⟨"t", by decide⟩ .pending).withEvents [⟨.failed, 0⟩]) = true ↔
          halfMillisecond.DiedWithin
            ((Sample.task ⟨"t", by decide⟩ .pending).withEvents [⟨.failed, 0⟩])) := by
  refine ⟨ofDurations_eq_ok_iff.2 ⟨rfl, rfl, rfl, rfl⟩, fun h => ?_⟩
  have hdied : halfMillisecond.DiedWithin
      ((Sample.task ⟨"t", by decide⟩ .pending).withEvents [⟨.failed, 0⟩]) :=
    ⟨List.cons_ne_nil _ _, by decide, by decide⟩
  have hlong := ((isFlapping_of_singleton rfl).1 (h.2 hdied)).2
  exact absurd hlong (by decide)

end Settings

end Scheduling
