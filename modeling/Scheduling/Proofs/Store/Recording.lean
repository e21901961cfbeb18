import Scheduling.Proofs.Penalty.Plain
import Scheduling.Store.Recording

/-!
# Walks over a store that watches

A store that watches its readers answers as the store in it does, until a forbidden name is looked
up. So a walk over it is the walk over the store in it, as far as it gets: it looks up the same
names in the same order, and breaks off at the first of them that is forbidden.

`RecordingStore.ask` looks up some names, one after the other, and lets go of what is found. A run
is related to an observed one if it does to the watching store just what asking for the names does
that are noted of the other (`MonadRel.recorded`). Single look-ups are related in this way, and so
are walks (`run_recording`). What is noted, where a walk breaks off and which names make no
difference are then facts about `ask` (`penaltyMs_recording`).
-/

namespace Scheduling

/-- A run over a store that watches. It may break off, and what has been noted stays. -/
abbrev Recorded := ExceptT ForbiddenLookup (StateM RecordingStore)

/-- A sequence of two runs breaks off with the first, and else goes on where it leaves off. -/
theorem Recorded.run_bind {α β : Type} (x : Recorded α) (f : α → Recorded β)
    (s : RecordingStore) :
    (x >>= f).run.run s =
      match x.run.run s with
      | (.ok a, s') => (f a).run.run s'
      | (.error e, s') => (.error e, s') := by
  change (match x.run.run s with | (a, s') => (ExceptT.bindCont f a).run s') = _
  rcases x.run.run s with ⟨_ | _, s'⟩ <;> rfl

namespace RecordingStore

variable {s : RecordingStore} {ids : List TaskId} {id : TaskId}

/-- Looking up a name breaks off if it is forbidden, and else notes it and answers as the store
does. -/
theorem run_fetch (s : RecordingStore) (id : TaskId) :
    (fetch id : Recorded (Option TaskRecord)).run.run s =
      if id ∈ s.forbidden then (.error ⟨id⟩, s)
      else (.ok (s.store.fetch id), { s with lookups := s.lookups ++ [id] }) := by
  rw [fetch, Recorded.run_bind]
  change StateT.run (ExceptT.run (if id ∈ s.forbidden then _ else _)) s = _
  by_cases h : id ∈ s.forbidden
  · rw [if_pos h, if_pos h]
    rfl
  · rw [if_neg h, if_neg h]
    rfl

/-- Looks up some names in order, until one is forbidden. -/
def ask (s : RecordingStore) : List TaskId → Except ForbiddenLookup Unit × RecordingStore
  | [] => (.ok (), s)
  | id :: ids =>
    if id ∈ s.forbidden then (.error ⟨id⟩, s) else ask { s with lookups := s.lookups ++ [id] } ids

/-- Names none of which is forbidden are all noted. -/
theorem ask_of_forall (h : ∀ id ∈ ids, id ∉ s.forbidden) :
    s.ask ids = (.ok (), { s with lookups := s.lookups ++ ids }) := by
  induction ids generalizing s with
  | nil => simp [ask]
  | cons id ids ih =>
    have hrest : ∀ id' ∈ ids,
        id' ∉ ({ s with lookups := s.lookups ++ [id] } : RecordingStore).forbidden :=
      fun id' hmem => h id' (List.mem_cons_of_mem id hmem)
    rw [ask, if_neg (h id (by simp)), ih hrest]
    simp

/-- Of two lists of names the second is looked up only if nothing in the first is forbidden. -/
theorem ask_append (ids' : List TaskId) :
    s.ask (ids ++ ids') =
      match s.ask ids with
      | (.ok _, s') => s'.ask ids'
      | (.error e, s') => (.error e, s') := by
  induction ids generalizing s with
  | nil => rfl
  | cons id ids ih =>
    rw [List.cons_append, ask, ask]
    by_cases h : id ∈ s.forbidden
    · rw [if_pos h, if_pos h]
    · rw [if_neg h, if_neg h, ih]

/-- At the first forbidden name asking breaks off, when those before it have been noted. -/
theorem ask_of_forbidden {before after : List TaskId} (hbefore : ∀ b ∈ before, b ∉ s.forbidden)
    (h : id ∈ s.forbidden) :
    s.ask (before ++ id :: after) = (.error ⟨id⟩, { s with lookups := s.lookups ++ before }) := by
  rw [ask_append, ask_of_forall hbefore]
  dsimp only
  rw [ask, if_pos h]

/-- Asking changes nothing but the log. -/
theorem store_ask : (s.ask ids).2.store = s.store := by
  induction ids generalizing s with
  | nil => rfl
  | cons id ids ih =>
    rw [ask]
    split
    · rfl
    · exact ih

/-- If some names are forbidden, one of them comes first. -/
theorem exists_first_forbidden (h : ∃ id ∈ ids, id ∈ s.forbidden) :
    ∃ before id after, ids = before ++ id :: after ∧ (∀ b ∈ before, b ∉ s.forbidden) ∧
      id ∈ s.forbidden := by
  have hsome : (ids.find? (· ∈ s.forbidden)).isSome := by simpa using h
  obtain ⟨id, hid⟩ := Option.isSome_iff_exists.1 hsome
  obtain ⟨hforbidden, before, after, hids, hbefore⟩ := List.find?_eq_some_iff_append.1 hid
  exact ⟨before, id, after, hids, by simpa using hbefore, by simpa using hforbidden⟩

/-- What asking comes to depends on which of the names are forbidden, and on no other name. -/
theorem ask_congr {s' : RecordingStore} (hlookups : s'.lookups = s.lookups)
    (hforbidden : ∀ id ∈ ids, id ∈ s'.forbidden ↔ id ∈ s.forbidden) :
    (s'.ask ids).1 = (s.ask ids).1 ∧ (s'.ask ids).2.lookups = (s.ask ids).2.lookups := by
  induction ids generalizing s s' with
  | nil => exact ⟨rfl, hlookups⟩
  | cons id ids ih =>
    rw [ask, ask]
    by_cases h : id ∈ s.forbidden
    · rw [if_pos h, if_pos ((hforbidden id (by simp)).2 h)]
      exact ⟨rfl, hlookups⟩
    · rw [if_neg h, if_neg fun h' => h ((hforbidden id (by simp)).1 h')]
      exact ih (congrArg (· ++ [id]) hlookups) fun id' hmem =>
        hforbidden id' (List.mem_cons_of_mem id hmem)

/-- A look-up is asking for one name and answering as the store does. -/
theorem run_fetch_eq_ask (s : RecordingStore) (id : TaskId) :
    (fetch id : Recorded (Option TaskRecord)).run.run s =
      ((s.ask [id]).1.map fun _ => s.store.fetch id, (s.ask [id]).2) := by
  rw [run_fetch, ask, ask]
  by_cases h : id ∈ s.forbidden
  · rw [if_pos h, if_pos h]
    rfl
  · rw [if_neg h, if_neg h]
    rfl

/-- Forbidding names changes nothing else. -/
theorem foldl_forbid (s : RecordingStore) (ids : List TaskId) :
    ids.foldl forbid s = { s with forbidden := ids.reverse ++ s.forbidden } := by
  induction ids generalizing s with
  | nil => rfl
  | cons id ids ih =>
    rw [List.foldl_cons, ih, forbid]
    simp

end RecordingStore

/-- A run over a watching store, and one that is observed: the first does what asking for the names
does that the second notes, and if it does not break off, it has the same answer. -/
def MonadRel.recorded (S : TaskStore) : MonadRel Recorded (StateM (Observed Unit)) where
  Rel x y := ∀ (s : RecordingStore) (o : Observed Unit), s.store = S →
    ∃ asked, (y.run o).2.lookups = o.lookups ++ asked ∧
      x.run.run s = ((s.ask asked).1.map fun _ => (y.run o).1, (s.ask asked).2)
  pure a s o _ := ⟨[], (List.append_nil _).symm, rfl⟩
  bind := by
    intro α β x y f g hx hf s o hs
    obtain ⟨asked, hlookups, hrun⟩ := hx s o hs
    obtain ⟨asked', hlookups', hrun'⟩ :=
      hf (y.run o).1 (s.ask asked).2 (y.run o).2 (RecordingStore.store_ask.trans hs)
    -- the second run goes on with the names that are left, unless the first has broken off
    refine ⟨asked ++ asked', ?_, ?_⟩
    · rw [Scheduling.run_bind, hlookups', hlookups, List.append_assoc]
    · rw [Recorded.run_bind, Scheduling.run_bind, hrun, RecordingStore.ask_append]
      rcases hask : s.ask asked with ⟨e | u, s'⟩
      · rfl
      · rw [hask] at hrun'
        exact hrun'

namespace Calculator

/-- The calculator over a store that watches, with a pure strategy. -/
def recording (s : Settings (UInt64 → UInt64)) : Calculator Recorded :=
  ⟨RecordingStore.fetch, s.map fun backoff last => pure (backoff last)⟩

/-- A walk over a watching store asks for the names that the walk over the store in it looks up, and
if none of them is forbidden, it has the same answer. -/
theorem run_recording (s : Settings (UInt64 → UInt64)) (watched : RecordingStore)
    (t : TaskRecord) :
    ((recording s).penaltyMs t).run.run watched =
      ((watched.ask (lookups watched.store.fetch s t)).1.map fun _ =>
          (⟨watched.store.fetch, s⟩ : Calculator Id).penaltyMs t,
        (watched.ask (lookups watched.store.fetch s t)).2) := by
  let d : Calculator (StateM (Observed Unit)) :=
    (ofSnapshot watched.store.fetch s.stateless).observed
  have hfetch : ∀ id, (MonadRel.recorded watched.store).Rel ((recording s).fetch id)
      (d.fetch id) := by
    intro id w o hw
    refine ⟨[id], rfl, (RecordingStore.run_fetch_eq_ask w id).trans ?_⟩
    rw [hw]
    rfl
  have hbackoff : ∀ last, (MonadRel.recorded watched.store).Rel
      ((recording s).settings.backoff last) (d.settings.backoff last) := fun last w o _ =>
    ⟨[], (List.append_nil _).symm, rfl⟩
  obtain ⟨asked, hlookups, hrun⟩ :=
    walk_rel (.recorded watched.store) hfetch hbackoff (fun _ => rfl) [] 0 t.ancestor watched
      (.start ()) rfl
  have hasked : lookups watched.store.fetch s t = asked := hlookups
  have hanswer := fst_run_observed_pure watched.store.fetch s t (.start ())
  rw [hasked, ← hanswer]
  exact hrun

/-- A walk over a watching store is the walk over the store in it. Let `w` be the names that this
one looks up.

* If none of them is forbidden, the walk over the watching store has the same answer, and notes just
  these names, after those noted before.
* If one is, there is a first, and there the walk breaks off, having noted the names before it.
* Forbidding any other names changes neither the outcome nor what is noted. -/
theorem penaltyMs_recording (s : Settings (UInt64 → UInt64)) (watched : RecordingStore)
    (t : TaskRecord) :
    let w := lookups watched.store.fetch s t
    let run := ((recording s).penaltyMs t).run.run watched
    ((∀ id ∈ w, id ∉ watched.forbidden) →
        run = (.ok ((⟨watched.store.fetch, s⟩ : Calculator Id).penaltyMs t),
            { watched with lookups := watched.lookups ++ w }) ∧
          run.2.lookups.length = watched.lookups.length + w.length) ∧
      ((∃ id ∈ w, id ∈ watched.forbidden) →
        ∃ before id after, w = before ++ id :: after ∧ (∀ b ∈ before, b ∉ watched.forbidden) ∧
          id ∈ watched.forbidden ∧
          run = (.error ⟨id⟩, { watched with lookups := watched.lookups ++ before })) ∧
      ∀ ids : List TaskId, (∀ id ∈ ids, id ∉ w) →
        let run' := ((recording s).penaltyMs t).run.run (ids.foldl RecordingStore.forbid watched)
        run'.1 = run.1 ∧ run'.2.lookups = run.2.lookups := by
  intro w run
  have hrun : run = ((watched.ask w).1.map fun _ =>
      (⟨watched.store.fetch, s⟩ : Calculator Id).penaltyMs t, (watched.ask w).2) :=
    run_recording s watched t
  refine ⟨fun hnone => ?_, fun hsome => ?_, fun ids hids => ?_⟩
  · rw [hrun, RecordingStore.ask_of_forall hnone]
    exact ⟨rfl, List.length_append⟩
  · obtain ⟨before, id, after, hw, hbefore, hid⟩ := RecordingStore.exists_first_forbidden hsome
    refine ⟨before, id, after, hw, hbefore, hid, ?_⟩
    rw [hrun, hw, RecordingStore.ask_of_forbidden hbefore hid]
    rfl
  · -- the names that are forbidden besides are not among those asked for
    have hsame : ∀ id ∈ w, id ∈ ids.reverse ++ watched.forbidden ↔ id ∈ watched.forbidden := by
      intro id hid
      rw [List.mem_append, List.mem_reverse, or_iff_right fun hmem => hids id hmem hid]
    let watched' : RecordingStore := { watched with forbidden := ids.reverse ++ watched.forbidden }
    obtain ⟨hanswer, hlookups⟩ :
        (watched'.ask w).1 = (watched.ask w).1 ∧
          (watched'.ask w).2.lookups = (watched.ask w).2.lookups :=
      RecordingStore.ask_congr rfl hsame
    intro run'
    have hrun' : run' = ((watched'.ask w).1.map fun _ =>
        (⟨watched.store.fetch, s⟩ : Calculator Id).penaltyMs t, (watched'.ask w).2) :=
      (congrArg _ (RecordingStore.foldl_forbid watched ids)).trans (run_recording s watched' t)
    rw [hrun', hrun, hanswer]
    exact ⟨rfl, hlookups⟩

/-- With a constant delay, a walk over three flapping ancestors reads two of them. If the third is
forbidden, it goes as if nothing was, and if the second is, it breaks off when it has read the
first. -/
theorem penaltyMs_recording_threeFlappy :
    let s : Settings (UInt64 → UInt64) :=
      Settings.byDefault.map fun _ => (ConstantBackoff.mk 7).next
    let a : TaskId := ⟨"a", by decide⟩
    let b : TaskId := ⟨"b", by decide⟩
    let c : TaskId := ⟨"c", by decide⟩
    let watched : RecordingStore := .ofList Sample.threeFlappy
    let t : TaskRecord := (Sample.task ⟨"t", by decide⟩ .pending).withAncestor a
    let run := fun watched => ((recording s).penaltyMs t).run.run watched
    lookups watched.store.fetch s t = [a, b] ∧
      run watched = (.ok 7, { watched with lookups := [a, b] }) ∧
      (run (watched.forbid c)).1 = .ok 7 ∧ (run (watched.forbid c)).2.lookups = [a, b] ∧
      run (watched.forbid b) = (.error ⟨b⟩, { watched.forbid b with lookups := [a] }) := by
  intro s a b c watched t run
  have hids : lookups watched.store.fetch s t = [a, b] := by decide +kernel
  have hpenalty : ((⟨watched.store.fetch, s⟩ : Calculator Id).penaltyMs t).run = 7 := by
    decide +kernel
  obtain ⟨hfree, -, hothers⟩ := penaltyMs_recording s watched t
  obtain ⟨-, hbroken, -⟩ := penaltyMs_recording s (watched.forbid b) t
  have hrun : run watched = (.ok 7, { watched with lookups := [a, b] }) := by
    obtain ⟨hrun, -⟩ := hfree (by simp [watched, RecordingStore.ofList])
    rw [hids] at hrun
    exact hrun.trans (Prod.ext (congrArg Except.ok hpenalty) rfl)
  obtain ⟨hanswer, hlookups⟩ := hothers [c] (by rw [hids]; decide)
  have hids' : lookups (watched.forbid b).store.fetch s t = [a, b] := hids
  obtain ⟨before, id, after, hsplit, -, hid, hbreak⟩ :=
    hbroken ⟨b, by rw [hids']; decide, by decide⟩
  obtain rfl : id = b := List.mem_singleton.1 hid
  obtain rfl : before = [a] := by
    rw [hids'] at hsplit
    rcases before with _ | ⟨x, _ | ⟨y, rest⟩⟩
    · exact absurd (List.cons.inj hsplit).1 (by decide)
    · rw [(List.cons.inj hsplit).1]
    · simp at hsplit
  exact ⟨hids, hrun, hanswer.trans (congrArg Prod.fst hrun),
    hlookups.trans (congrArg (fun outcome => outcome.2.lookups) hrun), hbreak⟩

end Calculator

end Scheduling
