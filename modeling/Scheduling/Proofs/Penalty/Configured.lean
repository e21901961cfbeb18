import Scheduling.Proofs.Penalty.Orbit
import Scheduling.Proofs.Settings.Construction
import Scheduling.Proofs.Settings.Doubling
import Scheduling.Sample

/-!
# Penalties from a configuration

What a configuration makes of a task is said here without its settings: which records count as
flapping (`Config.Flaps`), and the penalty as an exact number (`Config.toNat_penaltyMs`). Between
the two stand the checks of the settings, whose numbers are those of the configuration, and the
truncated backoff, whose delays never shrink. So the walk may end early, in a circle of ancestors or
at the largest delay, and still answers as if it had counted every leading flapping ancestor.
-/

namespace Scheduling

open Ancestry

/-- The time from the first to the last event is below `2 ^ 63` milliseconds, which is what a signed
64-bit number can hold. -/
def TaskRecord.SpanFits (r : TaskRecord) : Prop :=
  ∀ h : r.events ≠ [],
    (r.events.getLast h).timestampMs.toInt - (r.events.head h).timestampMs.toInt < 2 ^ 63

/-- The record of a flapping task, in the numbers of a configuration. -/
structure Config.Flaps (c : Config) (r : TaskRecord) : Prop where
  /-- The task has a history. -/
  history : r.events ≠ []
  /-- Nothing killed it. -/
  uninterrupted : ∀ e ∈ r.events, e.status ≠ .killing
  /-- It lived less than the threshold; a lifetime below zero counts as none. -/
  short : max 0 ((r.events.getLast history).timestampMs.toInt -
    (r.events.head history).timestampMs.toInt) < c.flappingThresholdMs.toNat

/-- A record with a history has a lifetime. -/
theorem TaskRecord.lifetimeMs_of_ne_nil {r : TaskRecord} (h : r.events ≠ []) :
    r.lifetimeMs = some (Int64.ofIntClamp
      ((r.events.getLast h).timestampMs.toInt - (r.events.head h).timestampMs.toInt)) := by
  unfold lifetimeMs firstEvent latestEvent
  rw [List.head?_eq_some_head h, List.getLast?_eq_some_getLast h]
  rfl

/-- A record without events has none. -/
theorem TaskRecord.lifetimeMs_of_nil {r : TaskRecord} (h : r.events = []) :
    r.lifetimeMs = none := by
  unfold lifetimeMs firstEvent
  rw [h]
  rfl

/-- A record passed through some states if one of its events has one of them. -/
theorem TaskRecord.passedThrough_iff {r : TaskRecord} {statuses : List Status} :
    r.passedThrough statuses = true ↔ ∃ e ∈ r.events, e.status ∈ statuses := by
  simp [passedThrough]

/-- A record is flagged if nothing interrupted the task, and it lived below the threshold. -/
theorem Settings.isFlapping_iff {β : Type} {s : Settings β} {r : TaskRecord} :
    s.isFlapping r = true ↔
      (∀ e ∈ r.events, e.status ∉ s.interrupted) ∧
        ∃ lifetime, r.lifetimeMs = some lifetime ∧
          lifetime.toInt.toNat < s.flappingThreshold.toMillis.toNat := by
  unfold isFlapping
  by_cases h : r.passedThrough s.interrupted.toList = true
  · obtain ⟨e, he, hstatus⟩ := TaskRecord.passedThrough_iff.1 h
    rw [if_pos h]
    exact iff_of_false Bool.false_ne_true fun hflags => hflags.1 e he hstatus
  · have hcalm : ∀ e ∈ r.events, e.status ∉ s.interrupted := fun e he hstatus =>
      h (TaskRecord.passedThrough_iff.2 ⟨e, he, hstatus⟩)
    rw [if_neg h, and_iff_right hcalm]
    cases r.lifetimeMs <;> simp

/-- The settings of a configuration flag the records that the configuration calls flapping. -/
theorem Config.isFlapping_iff_flaps {c : Config} {s : Settings TruncatedBackoff}
    (hc : c.toSettings = .ok s) {r : TaskRecord} (hr : r.SpanFits) :
    s.isFlapping r = true ↔ c.Flaps r := by
  obtain ⟨-, -, hthreshold, -, hinterrupted⟩ := toSettings_eq_ok_iff.1 hc
  have hkilling : ∀ status : Status, status ∉ s.interrupted ↔ status ≠ .killing := by
    simp [hinterrupted, Status.defaultInterrupted]
  rw [Settings.isFlapping_iff, hthreshold, Duration.toMillis_ofMillis]
  simp only [hkilling]
  by_cases hevents : r.events = []
  · rw [TaskRecord.lifetimeMs_of_nil hevents]
    refine iff_of_false ?_ fun h => h.history hevents
    rintro ⟨-, lifetime, hlifetime, -⟩
    cases hlifetime
  · -- the lifetime is not cut at the top, and what is below zero counts as zero on both sides
    have hclamp := Int64.toNatClampNeg_ofIntClamp_of_lt (hr hevents)
    rw [TaskRecord.lifetimeMs_of_ne_nil hevents]
    constructor
    · rintro ⟨hcalm, lifetime, hlifetime, hshort⟩
      obtain rfl := Option.some.inj hlifetime
      rw [show (Int64.ofIntClamp _).toInt.toNat = _ from hclamp] at hshort
      exact ⟨hevents, hcalm, by omega⟩
    · intro h
      have hshort := h.short
      refine ⟨h.uninterrupted, _, rfl, ?_⟩
      rw [show (Int64.ofIntClamp _).toInt.toNat = _ from hclamp]
      omega

/-- The penalty of a task as an exact number: no delay without a flapping ancestor, and otherwise
the first delay, doubled once for each further ancestor, up to the largest one. Ancestors count as
long as all of them from the task on are stored, distinct and flapping. -/
theorem Config.toNat_penaltyMs {c : Config} {s : Settings TruncatedBackoff}
    (hc : c.toSettings = .ok s) (store : TaskStore)
    (hstore : ∀ id r, store.fetch id = some r → r.SpanFits) (t : TaskRecord) :
    ∃ k, IsGreatest {n | Leading store.fetch c.Flaps t n} k ∧
      ((⟨store.fetch, s.map TruncatedBackoff.next⟩ : Calculator Id).penaltyMs t).run.toNat =
        if k = 0 then 0
        else min c.backoffMaxMs.toNat (c.backoffInitialMs.toNat * 2 ^ (k - 1)) := by
  obtain ⟨hinitial, hmax, -⟩ := toSettings_eq_ok_iff.1 hc
  obtain ⟨k, hk⟩ := exists_isGreatest_leading store c.Flaps t
  have hflaps : {n | Leading store.fetch ((s.map TruncatedBackoff.next).isFlapping ·) t n} =
      {n | Leading store.fetch c.Flaps t n} := by
    ext n
    exact leading_congr fun id r hr => isFlapping_iff_flaps hc (hstore id r hr)
  refine ⟨k, hk, ?_⟩
  rw [Calculator.penaltyMs_eq_iterate s.backoff.nonShrinking_next (hflaps ▸ hk), Id.run, ← hinitial,
    ← hmax]
  exact s.backoff.toNat_iterate_next_eq k

/-- The settings of the default configuration. -/
def Settings.byDefault : Settings TruncatedBackoff :=
  ⟨⟨1000, 300000, by decide, by decide⟩, .ofMillis 300000, .ofMillis 60000,
    .ofList Status.defaultInterrupted, by decide, by decide⟩

/-! ## A circle of ancestors -/

open Sample (flappyCircle belowCircle)

/-- The time from the first to the last event of a record in the circle is no large number. -/
theorem spanFits_of_fetch_flappyCircle {id : TaskId} {r : TaskRecord}
    (hr : (TaskStore.ofList flappyCircle).fetch id = some r) : r.SpanFits := by
  have hspan : ∀ id ancestor, ((Sample.flappyTask id).withAncestor ancestor).SpanFits := by
    intro id ancestor _
    show (300 : Int64).toInt - (0 : Int64).toInt < 2 ^ 63
    decide
  have hmem : r ∈ flappyCircle := TaskStore.mem_of_fetch_ofList hr
  simp only [flappyCircle, List.mem_cons, List.not_mem_nil, or_false] at hmem
  obtain rfl | rfl | rfl := hmem
  · exact hspan _ _
  · exact hspan _ _
  · exact hspan _ _

/-- The records of the circle are those of flapping tasks. -/
theorem Config.flaps_flappyTask {c : Config} (hthreshold : 300 < c.flappingThresholdMs.toNat)
    (id ancestor : TaskId) : c.Flaps ((Sample.flappyTask id).withAncestor ancestor) where
  history := List.cons_ne_nil _ _
  uninterrupted := by simp [Sample.flappyTask, TaskRecord.withAncestor, TaskRecord.withEvents]
  short := by
    show max 0 ((300 : Int64).toInt - (0 : Int64).toInt) < (c.flappingThresholdMs.toNat : ℤ)
    exact Int.ofNat_lt.2 hthreshold

/-- The task below the circle has three ancestors that count, since none counts twice. -/
theorem Config.isGreatest_flappyCircle {c : Config}
    (hthreshold : 300 < c.flappingThresholdMs.toNat) :
    IsGreatest {n | Leading (TaskStore.ofList flappyCircle).fetch c.Flaps belowCircle n} 3 := by
  have hflaps := c.flaps_flappyTask hthreshold
  set S := (TaskStore.ofList flappyCircle).fetch
  have ha : S ⟨"a", by decide⟩ = some _ := (TaskStore.fetch_ofList _ _).trans rfl
  have hb : S ⟨"b", by decide⟩ = some _ := (TaskStore.fetch_ofList _ _).trans rfl
  have hc : S ⟨"c", by decide⟩ = some _ := (TaskStore.fetch_ofList _ _).trans rfl
  have hfirst : link S belowCircle 0 = some ⟨"a", by decide⟩ := rfl
  have hsecond : link S belowCircle 1 = some ⟨"b", by decide⟩ := link_succ hfirst ha
  have hthird : link S belowCircle 2 = some ⟨"c", by decide⟩ := link_succ hsecond hb
  constructor
  · refine leading_succ_iff.2 ⟨leading_succ_iff.2 ⟨leading_succ_iff.2 ⟨leading_zero, ?_⟩, ?_⟩, ?_⟩
    · exact ⟨_, _, hfirst, ha, hflaps _ _, List.not_mem_nil⟩
    · refine ⟨_, _, hsecond, hb, hflaps _ _, ?_⟩
      rw [names_succ hfirst]
      decide
    · refine ⟨_, _, hthird, hc, hflaps _ _, ?_⟩
      rw [names_succ hsecond, names_succ hfirst]
      decide
  · intro n hn
    calc n ≤ (TaskStore.ofList flappyCircle).size := Leading.le_size hn
      _ = 3 := by decide +kernel

/-- By default the delay of the task below the circle is a second, doubled twice. If the largest
delay is three seconds, it is that one. -/
theorem Config.toNat_penaltyMs_flappyCircle :
    let store : TaskStore := .ofList flappyCircle
    let penaltyMs (s : Settings TruncatedBackoff) : ℕ :=
      ((⟨store.fetch, s.map TruncatedBackoff.next⟩ : Calculator Id).penaltyMs belowCircle).run.toNat
    let capped : Config := { ofFields ConfigField.default with backoffMaxMs := 3000 }
    let s : Settings TruncatedBackoff :=
      Settings.byDefault.map fun _ => ⟨1000, 3000, by decide, by decide⟩
    (∀ id r, store.fetch id = some r → r.SpanFits) ∧
      (ofFields ConfigField.default).toSettings = .ok .byDefault ∧ penaltyMs .byDefault = 4000 ∧
      capped.toSettings = .ok s ∧ penaltyMs s = 3000 := by
  intro store penaltyMs capped s
  have hstore : ∀ id r, store.fetch id = some r → r.SpanFits :=
    fun _ _ => spanFits_of_fetch_flappyCircle
  have hdefault : (ofFields ConfigField.default).toSettings = .ok .byDefault :=
    toSettings_eq_ok_iff.2 ⟨rfl, rfl, rfl, rfl, rfl⟩
  have hcapped : capped.toSettings = .ok s := toSettings_eq_ok_iff.2 ⟨rfl, rfl, rfl, rfl, rfl⟩
  refine ⟨hstore, hdefault, ?_, hcapped, ?_⟩
  · obtain ⟨k, hk, hpenalty⟩ := toNat_penaltyMs hdefault store hstore belowCircle
    obtain rfl : k = 3 := hk.unique (isGreatest_flappyCircle (by decide))
    exact hpenalty.trans (by decide)
  · obtain ⟨k, hk, hpenalty⟩ := toNat_penaltyMs hcapped store hstore belowCircle
    obtain rfl : k = 3 := hk.unique (isGreatest_flappyCircle (by decide))
    exact hpenalty.trans (by decide)

end Scheduling
