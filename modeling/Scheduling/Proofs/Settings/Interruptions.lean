import Mathlib.Data.List.Destutter
import Scheduling.Proofs.Penalty.Configured
import Scheduling.Sample

/-!
# Sets of interrupted states

The states that mark a task as interrupted are given as a list and kept as a set. The list that is
kept is the one that sorting makes of the list given, with the repetitions left out, which stand
next to each other once the list is sorted (`toList_ofList_eq_destutter`); it ascends strictly in
the order of the states (`pairwise_rank_lt`). So there is one such list for given members, and
settings depend on the members alone (`withInterrupted_congr`). `withInterrupted_asSet` says what
this means for the flag of a record and for a walk.
-/

namespace Scheduling

namespace StatusSet

/-- The members of a set of states ascend in the order of the states. -/
theorem pairwise_rank_lt (s : StatusSet) : s.toList.Pairwise fun a b => a.rank < b.rank :=
  s.ascending.imp Nat.compare_eq_lt.1

/-- The set of a list is kept as the list, sorted, without the states that come right after
themselves. -/
theorem toList_ofList_eq_destutter (statuses : List Status) :
    (SortedSet.ofList statuses).toList =
      (statuses.mergeSort fun a b => a.rank ≤ b.rank).destutter (· ≠ ·) := by
  set sorted := statuses.mergeSort fun a b => a.rank ≤ b.rank with hsorted
  have hascending : sorted.Pairwise fun a b => a.rank ≤ b.rank := by
    have hle := @List.pairwise_mergeSort Status (fun a b => a.rank ≤ b.rank)
      (fun a b c => by simpa using Nat.le_trans) (fun a b => by simpa using Nat.le_total _ _)
      statuses
    simpa using hle
  have : Std.Antisymm fun a b : Status => a.rank ≤ b.rank :=
    ⟨fun a b hab hba => Status.eq_of_rank_eq (Nat.le_antisymm hab hba)⟩
  -- in a sorted list, all repetitions of a state are next to each other
  rw [hascending.destutter_eq_dedup]
  refine SortedSet.eq_of_pairwise_of_mem_iff (SortedSet.ofList statuses).ascending ?_ fun z => ?_
  · have hdistinct : sorted.dedup.Pairwise (· ≠ ·) := sorted.nodup_dedup
    refine (hdistinct.and (hascending.sublist sorted.dedup_sublist)).imp fun {a b} ⟨hne, hle⟩ => ?_
    exact Nat.compare_eq_lt.2 (Nat.lt_of_le_of_ne hle (mt Status.eq_of_rank_eq hne))
  · rw [SortedSet.mem_toList, SortedSet.mem_ofList, List.mem_dedup, hsorted, List.mem_mergeSort]

end StatusSet

namespace Settings

variable {β : Type} {statuses statuses' : List Status}

/-- Of two lists of interrupted states the second is kept. -/
theorem withInterrupted_withInterrupted (s : Settings β) (earlier statuses : List Status) :
    (s.withInterrupted earlier).withInterrupted statuses = s.withInterrupted statuses := rfl

/-- However many lists were given before, the last one is kept. -/
theorem foldl_withInterrupted (s : Settings β) (earlier : List (List Status)) :
    (earlier.foldl withInterrupted s).withInterrupted statuses = s.withInterrupted statuses := by
  induction earlier generalizing s with
  | nil => rfl
  | cons first earlier ih => rw [List.foldl_cons, ih, withInterrupted_withInterrupted]

/-- Settings depend on the members of the list alone. -/
theorem withInterrupted_congr (s : Settings β) (h : ∀ x, x ∈ statuses' ↔ x ∈ statuses) :
    s.withInterrupted statuses' = s.withInterrupted statuses := by
  have hset : SortedSet.ofList statuses' = SortedSet.ofList statuses :=
    SortedSet.ext_mem fun x => by rw [SortedSet.mem_ofList, SortedSet.mem_ofList, h]
  rw [withInterrupted, hset]
  rfl

/-- A record is flagged if none of its events has a state of the list, and the task lived below the
threshold. -/
theorem isFlapping_withInterrupted_iff {s : Settings β} {r : TaskRecord} :
    (s.withInterrupted statuses).isFlapping r = true ↔
      (∀ e ∈ r.events, e.status ∉ statuses) ∧
        ∃ lifetime, r.lifetimeMs = some lifetime ∧
          lifetime.toInt.toNat < s.flappingThreshold.toMillis.toNat := by
  rw [isFlapping_iff]
  simp only [withInterrupted, SortedSet.mem_ofList]

/-- The states that mark a task as interrupted are a set, whatever list they are given as.

* The list that is kept ascends strictly in the order of the states, has the members of the list
  given, and is that list sorted, without the states that come right after themselves.
* The other parts of the settings stay as they are.
* However many lists were given before, the last one is kept.
* A record is flagged if none of its events has a state of the list, and the task lived below the
  threshold.
* With another list of the same members the same records are flagged, and a walk is the same
  computation, whatever store it asks and whatever strategy it calls, and whatever effects these
  have. -/
theorem withInterrupted_asSet (s : Settings β) (statuses : List Status) :
    ((s.withInterrupted statuses).interrupted.toList.Pairwise (fun a b => a.rank < b.rank) ∧
        (∀ x, x ∈ (s.withInterrupted statuses).interrupted.toList ↔ x ∈ statuses) ∧
        (s.withInterrupted statuses).interrupted.toList =
          (statuses.mergeSort fun a b => a.rank ≤ b.rank).destutter (· ≠ ·)) ∧
      ((s.withInterrupted statuses).backoff = s.backoff ∧
        (s.withInterrupted statuses).flappingThreshold = s.flappingThreshold ∧
        (s.withInterrupted statuses).maxStartupDelay = s.maxStartupDelay) ∧
      (∀ earlier : List (List Status),
        (earlier.foldl withInterrupted s).withInterrupted statuses = s.withInterrupted statuses) ∧
      (∀ r : TaskRecord, (s.withInterrupted statuses).isFlapping r = true ↔
        (∀ e ∈ r.events, e.status ∉ statuses) ∧
          ∃ lifetime, r.lifetimeMs = some lifetime ∧
            lifetime.toInt.toNat < s.flappingThreshold.toMillis.toNat) ∧
      ∀ statuses' : List Status, (∀ x, x ∈ statuses' ↔ x ∈ statuses) →
        (∀ r, (s.withInterrupted statuses').isFlapping r =
          (s.withInterrupted statuses).isFlapping r) ∧
          ∀ (m : Type → Type) [Monad m] (fetch : TaskId → m (Option TaskRecord))
            (backoff : UInt64 → m UInt64) (t : TaskRecord),
            Calculator.penaltyMs ⟨fetch, (s.withInterrupted statuses').map fun _ => backoff⟩ t =
            Calculator.penaltyMs ⟨fetch, (s.withInterrupted statuses).map fun _ => backoff⟩ t := by
  refine ⟨⟨?_, fun x => ?_, ?_⟩, ⟨rfl, rfl, rfl⟩, foldl_withInterrupted s,
    fun r => isFlapping_withInterrupted_iff, fun statuses' h => ?_⟩
  · exact StatusSet.pairwise_rank_lt _
  · exact SortedSet.mem_ofList
  · exact StatusSet.toList_ofList_eq_destutter statuses
  · rw [s.withInterrupted_congr h]
    exact ⟨fun _ => rfl, fun _ _ _ _ _ => rfl⟩

/-- A state that is given twice, not next to itself, is kept once and in its place, and a walk over
ancestors that passed through it has nothing to wait for. -/
theorem withInterrupted_asSet_finishedTwice :
    let statuses : List Status := [.finished, .lost, .finished]
    let statuses' : List Status := [.lost, .finished]
    let fetch : TaskId → Id (Option TaskRecord) := (TaskStore.ofList Sample.threeFlappy).fetch
    let t : TaskRecord := (Sample.task ⟨"t", by decide⟩ .pending).withAncestor ⟨"a", by decide⟩
    let penaltyMs (s : Settings TruncatedBackoff) : UInt64 :=
      ((⟨fetch, s.map fun b => b.next⟩ : Calculator Id).penaltyMs t).run
    (Settings.byDefault.withInterrupted statuses).interrupted.toList = [.finished, .lost] ∧
      (∀ x, x ∈ statuses' ↔ x ∈ statuses) ∧
      penaltyMs .byDefault = 4000 ∧
      penaltyMs (Settings.byDefault.withInterrupted statuses') = 0 ∧
      penaltyMs (Settings.byDefault.withInterrupted statuses) = 0 := by
  intro statuses statuses' fetch t penaltyMs
  have hmembers : ∀ x, x ∈ statuses' ↔ x ∈ statuses := fun x => by
    simp only [statuses, statuses', List.mem_cons, List.not_mem_nil]
    tauto
  have hzero : penaltyMs (Settings.byDefault.withInterrupted statuses') = 0 := by decide +kernel
  obtain ⟨-, -, -, -, hsame⟩ := withInterrupted_asSet Settings.byDefault statuses
  refine ⟨by decide, hmembers, by decide +kernel, hzero, ?_⟩
  exact ((hsame statuses' hmembers).2 Id fetch Settings.byDefault.backoff.next t).symm.trans hzero

end Settings

end Scheduling
