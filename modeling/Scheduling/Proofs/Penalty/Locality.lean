import Scheduling.Proofs.Penalty.Plain
import Scheduling.Proofs.Penalty.Turns
import Scheduling.Proofs.Store.History

/-!
# A walk depends on what it reads

Of a store, a turn of the loop sees only the answer for the name that it asks for (`hop_congr`). So
two loops over stores that agree on the names which the first asks for go through the same positions
to the same end (`Turns.congr`), whatever else is in the stores. Which names these are is decided on
the way, by the answers themselves: the second loop never comes to ask for another.

For a walk over a snapshot this says that its answer and its look-ups depend on the records that it
looks up and on nothing else (`observedRun_congr`), so changes under other names, such as those of
ancestors above the end of the walk, go unnoticed (`penaltyMs_congr_lookups`).
-/

namespace Scheduling.Calculator

open TaskStore (Change touched)

variable {σ : Type} {c d : Calculator (StateM σ)} {p : Position σ} {positions : List (Position σ)}
  {answer : UInt64 × σ}

/-- A turn depends on the settings and on the answer for the name that it asks for. -/
theorem hop_congr (hs : d.settings = c.settings)
    (hfetch : ∀ id ∈ p.asked, d.fetch id = c.fetch id) : d.hop p = c.hop p := by
  unfold hop isFlapping
  rcases hp : p.next with _ | id
  · rfl
  · dsimp only
    by_cases hseen : id ∈ p.visited
    · rw [if_pos hseen, if_pos hseen]
    · have hid : id ∈ p.asked := by simp [Position.asked_of_new hp hseen]
      rw [if_neg hseen, if_neg hseen, hfetch id hid, hs]

/-- Loops over stores that agree on the names which the first asks for take the same turns. -/
theorem Turns.congr (h : c.Turns p positions answer) (hs : d.settings = c.settings)
    (hfetch : ∀ id ∈ positions.flatMap Position.asked, d.fetch id = c.fetch id) :
    d.Turns p positions answer := by
  induction h with
  | ends hp =>
    rw [List.flatMap_singleton] at hfetch
    exact .ends ((hop_congr hs hfetch).trans hp)
  | goesOn hp _ ih =>
    rw [List.flatMap_cons] at hfetch
    have hhop := hop_congr hs fun id hmem => hfetch id (List.mem_append_left _ hmem)
    exact .goesOn (hhop.trans hp) (ih fun id hmem => hfetch id (List.mem_append_right _ hmem))

variable {S S' : Snapshot} {t t' : TaskRecord}

/-- What is seen of a walk depends, of the task, on its ancestor and, of the snapshot, on the names
that are looked up. -/
theorem observedRun_congr {s : Settings (UInt64 → StateM σ UInt64)} {w : σ}
    (ht : t'.ancestor = t.ancestor)
    (hS : ∀ id ∈ (observedRun S s t w).2.lookups, S' id = S id) :
    observedRun S' s t' w = observedRun S s t w := by
  obtain ⟨positions, answer, hturns⟩ := (ofSnapshot S s).observed.exists_turns (.start t (.start w))
  obtain rfl : observedRun S s t w = answer := hturns.run_walk
  have hasked : (observedRun S s t w).2.lookups = positions.flatMap Position.asked := hturns.log.1
  have hturns' : (ofSnapshot S' s).observed.Turns (.start t (.start w)) positions
      (observedRun S s t w) := by
    refine hturns.congr rfl fun id hmem => ?_
    unfold observed ofSnapshot
    dsimp only
    rw [hS id (hasked ▸ hmem)]
  calc observedRun S' s t' w = observedRun S' s t w := by
        unfold observedRun penaltyMs
        rw [ht]
    _ = observedRun S s t w := hturns'.run_walk

/-- With a pure strategy, the answer of a walk and the names that it looks up depend on the task's
ancestor and on the records of these names alone. So they stay as they are when records are saved
and deleted under any other names, in whatever order. -/
theorem penaltyMs_congr_lookups (s : Settings (UInt64 → UInt64)) :
    (∀ (S S' : Snapshot) (t t' : TaskRecord), t'.ancestor = t.ancestor →
      (∀ id ∈ lookups S s t, S' id = S id) →
        (⟨S', s⟩ : Calculator Id).penaltyMs t' = (⟨S, s⟩ : Calculator Id).penaltyMs t ∧
          lookups S' s t' = lookups S s t) ∧
      ∀ (store : TaskStore) (changes : List Change) (t : TaskRecord),
        (∀ id ∈ touched changes, id ∉ lookups store.fetch s t) →
          (⟨(store.after changes).fetch, s⟩ : Calculator Id).penaltyMs t =
              (⟨store.fetch, s⟩ : Calculator Id).penaltyMs t ∧
            lookups (store.after changes).fetch s t = lookups store.fetch s t := by
  have hcongr : ∀ (S S' : Snapshot) (t t' : TaskRecord), t'.ancestor = t.ancestor →
      (∀ id ∈ lookups S s t, S' id = S id) →
        (⟨S', s⟩ : Calculator Id).penaltyMs t' = (⟨S, s⟩ : Calculator Id).penaltyMs t ∧
          lookups S' s t' = lookups S s t := by
    intro S S' t t' ht hS
    have hrun : observedRun S' s.stateless t' () = observedRun S s.stateless t () :=
      observedRun_congr ht hS
    constructor
    · calc (⟨S', s⟩ : Calculator Id).penaltyMs t' = (observedRun S' s.stateless t' ()).1 :=
            (fst_run_observed_pure S' s t' (.start ())).symm
        _ = (observedRun S s.stateless t ()).1 := congrArg Prod.fst hrun
        _ = (⟨S, s⟩ : Calculator Id).penaltyMs t := fst_run_observed_pure S s t (.start ())
    · exact congrArg (fun run => run.2.lookups) hrun
  refine ⟨hcongr, fun store changes t htouched => hcongr _ _ t t rfl fun id hmem => ?_⟩
  exact TaskStore.fetch_after_of_not_mem fun h => htouched id h hmem

/-- With a constant delay, a walk over three flapping ancestors reads two of them. What happens to
the third goes unnoticed, also when it is deleted. -/
theorem penaltyMs_congr_lookups_threeFlappy :
    let s : Settings (UInt64 → UInt64) :=
      Settings.byDefault.map fun _ => (ConstantBackoff.mk 7).next
    let store : TaskStore := .ofList Sample.threeFlappy
    let deletion : List Change := [.delete [⟨"c", by decide⟩]]
    let t : TaskRecord := (Sample.task ⟨"t", by decide⟩ .pending).withAncestor ⟨"a", by decide⟩
    let t' : TaskRecord := (Sample.task ⟨"u", by decide⟩ .failed).withAncestor ⟨"a", by decide⟩
    let ids : List TaskId := [⟨"a", by decide⟩, ⟨"b", by decide⟩]
    lookups store.fetch s t = ids ∧ (⟨store.fetch, s⟩ : Calculator Id).penaltyMs t = 7 ∧
      (∀ id ∈ lookups store.fetch s t, (store.after deletion).fetch id = store.fetch id) ∧
      (⟨(store.after deletion).fetch, s⟩ : Calculator Id).penaltyMs t' = 7 ∧
      (∀ id ∈ touched deletion, id ∉ lookups store.fetch s t) ∧
      (⟨(store.after deletion).fetch, s⟩ : Calculator Id).penaltyMs t = 7 ∧
      lookups (store.after deletion).fetch s t = ids := by
  intro s store deletion t t' ids
  have hids : lookups store.fetch s t = ids := by decide +kernel
  have hpenalty : ((⟨store.fetch, s⟩ : Calculator Id).penaltyMs t).run = 7 := by decide +kernel
  have htouched : ∀ id ∈ touched deletion, id ∉ lookups store.fetch s t := by
    rw [hids]
    decide
  have hfetch : ∀ id ∈ lookups store.fetch s t,
      (store.after deletion).fetch id = store.fetch id := fun id hmem =>
    TaskStore.fetch_after_of_not_mem fun h => htouched id h hmem
  obtain ⟨hsnapshots, hchanges⟩ := penaltyMs_congr_lookups s
  obtain ⟨hpenalty', hids'⟩ := hchanges store deletion t htouched
  have hother := (hsnapshots store.fetch (store.after deletion).fetch t t' rfl hfetch).1
  exact ⟨hids, hpenalty, hfetch, hother.trans hpenalty, htouched, hpenalty'.trans hpenalty,
    hids'.trans hids⟩

end Scheduling.Calculator
