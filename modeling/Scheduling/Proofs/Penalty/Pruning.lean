import Scheduling.Proofs.Penalty.Comparison
import Scheduling.Proofs.Penalty.Configured
import Scheduling.Sample

/-!
# Penalties while records are deleted

Records may be deleted while a walk goes on, so that it sees of each ancestor another store. A
`PrunedStore` holds what is deleted before each look-up to come. Every look-up finds no more than
one in the store as it was at first, and no less than one in the store as it is in the end, so the
answer of the walk lies between those of two walks that nothing disturbs
(`penaltyMs_pruned_between`).
-/

namespace Scheduling

namespace TaskStore

/-- The store after some deletions, each of the records of some names, one after the other. -/
def afterDeletions (s : TaskStore) (deletions : List (List TaskId)) : TaskStore :=
  deletions.foldl deleteAll s

/-- What is left was there before. -/
theorem fetch_of_fetch_afterDeletions {s : TaskStore} {deletions : List (List TaskId)} {id : TaskId}
    {r : TaskRecord} (h : (s.afterDeletions deletions).fetch id = some r) :
    s.fetch id = some r := by
  induction deletions generalizing s with
  | nil => exact h
  | cons ids rest ih =>
    have hfirst : (s.deleteAll ids).fetch id = some r := ih h
    exact fetch_of_fetch_deleteAll hfirst

/-- Deletions can be put together. -/
theorem afterDeletions_append (s : TaskStore) (first second : List (List TaskId)) :
    s.afterDeletions (first ++ second) = (s.afterDeletions first).afterDeletions second :=
  List.foldl_append

end TaskStore

/-- A store whose records are deleted while it is read. -/
structure PrunedStore where
  /-- The records that there are now. -/
  store : TaskStore
  /-- The deletions before the next look-up, those between it and the one after it, and so on. What
  follows the last look-up is deleted after it. -/
  pending : List (List (List TaskId))

namespace PrunedStore

/-- Looks a name up, after the deletions that come before it. -/
def fetch (id : TaskId) : StateM PrunedStore (Option TaskRecord) := do
  let p : PrunedStore ← get
  let store := p.store.afterDeletions (p.pending.head?.getD [])
  set (⟨store, p.pending.tail⟩ : PrunedStore)
  return store.fetch id

/-- The store when all that is pending has been deleted. -/
def final (p : PrunedStore) : TaskStore := p.store.afterDeletions p.pending.flatten

variable (p : PrunedStore) (id : TaskId)

/-- A look-up does not change what will be left in the end. -/
theorem final_run_fetch : ((fetch id).run p).2.final = p.final := by
  obtain ⟨store, pending⟩ := p
  cases pending with
  | nil => rfl
  | cons first rest =>
    exact (TaskStore.afterDeletions_append store first rest.flatten).symm

variable {p id} {r : TaskRecord}

/-- What is left in the end is found by a look-up. -/
theorem run_fetch_of_final (h : p.final.fetch id = some r) :
    ((fetch id).run p).1 = some r := by
  rw [← final_run_fetch p id] at h
  exact TaskStore.fetch_of_fetch_afterDeletions h

end PrunedStore

namespace Calculator

/-- The calculator over a store whose records are deleted meanwhile. -/
def pruned (s : Settings (UInt64 → UInt64)) : Calculator (StateM PrunedStore) :=
  ⟨PrunedStore.fetch, s.stateless⟩

variable {s : Settings (UInt64 → UInt64)}

/-- A walk finds no more than one over the store as it was at first. -/
theorem findsLess_initial (s : Settings (UInt64 → UInt64)) (store : TaskStore) :
    FindsLess s.backoff (pruned s) (ofSnapshot (σ := Unit) store.fetch s.stateless)
      fun p _ => ∀ id r, p.store.fetch id = some r → store.fetch id = some r where
  left_pure _ := rfl
  right_pure _ := rfl
  flags _ h := h
  finds id _ _ hp r h := hp id r (TaskStore.fetch_of_fetch_afterDeletions h)
  keeps _ _ _ hp id r h := hp id r (TaskStore.fetch_of_fetch_afterDeletions h)

/-- A walk finds no less than one over the store as it is in the end. -/
theorem findsLess_final (s : Settings (UInt64 → UInt64)) (store : TaskStore) :
    FindsLess s.backoff (ofSnapshot (σ := Unit) store.fetch s.stateless) (pruned s)
      fun _ p => p.final = store where
  left_pure _ := rfl
  right_pure _ := rfl
  flags _ h := h
  finds _ _ _ hp _ h := PrunedStore.run_fetch_of_final (hp ▸ h)
  keeps id _ p hp := (PrunedStore.final_run_fetch p id).trans hp

/-- With a strategy whose delays never shrink, the answer of a walk while records are deleted is at
least the answer over the store that is left in the end, and at most the answer over the store that
there was at first. -/
theorem penaltyMs_pruned_between (hf : NonShrinking s.backoff) (store : TaskStore)
    (deletions : List (List (List TaskId))) (t : TaskRecord) :
    ((⟨(store.afterDeletions deletions.flatten).fetch, s⟩ : Calculator Id).penaltyMs t).run ≤
        (((pruned s).penaltyMs t).run ⟨store, deletions⟩).1 ∧
      (((pruned s).penaltyMs t).run ⟨store, deletions⟩).1 ≤
        ((⟨store.fetch, s⟩ : Calculator Id).penaltyMs t).run := by
  constructor
  · rw [penaltyMs_eq_run _ s t ()]
    exact walk_le_walk (n := 0) hf (findsLess_final s _) rfl [] t.ancestor rfl
  · rw [penaltyMs_eq_run _ s t ()]
    exact walk_le_walk (n := 0) hf (findsLess_initial s store) rfl [] t.ancestor fun _ _ h => h

/-- The first and the last of three flapping ancestors are deleted when the walk has read two. It
answers with the delay of two, between the delays of none and of three. -/
theorem penaltyMs_pruned_between_threeFlappy :
    let s : Settings (UInt64 → UInt64) := Settings.byDefault.map TruncatedBackoff.next
    let store : TaskStore := .ofList Sample.threeFlappy
    let deletions : List (List (List TaskId)) := [[], [], [[⟨"a", by decide⟩, ⟨"c", by decide⟩]]]
    let t : TaskRecord := (Sample.task ⟨"t", by decide⟩ .pending).withAncestor ⟨"a", by decide⟩
    let before := ((⟨store.fetch, s⟩ : Calculator Id).penaltyMs t).run
    let meanwhile := (((pruned s).penaltyMs t).run ⟨store, deletions⟩).1
    let after :=
      ((⟨(store.afterDeletions deletions.flatten).fetch, s⟩ : Calculator Id).penaltyMs t).run
    NonShrinking s.backoff ∧ (after ≤ meanwhile ∧ meanwhile ≤ before) ∧
      after = 0 ∧ meanwhile = 2000 ∧ before = 4000 := by
  intro s store deletions t before meanwhile after
  have hf : NonShrinking s.backoff := Settings.byDefault.backoff.nonShrinking_next
  exact ⟨hf, penaltyMs_pruned_between hf store deletions t, by decide +kernel, by decide +kernel,
    by decide +kernel⟩

end Calculator

end Scheduling
