import Scheduling.Proofs.Penalty.Configured
import Scheduling.Sample

/-!
# The walk without its early end

A walk stops reading as soon as the delay stops growing. `PlainWalk` is the walk that does not: it
counts every flapping ancestor until the links end, come back to an ancestor that it has seen, or
lead to one that is missing or not flapping. Over leading flapping ancestors it goes on
(`plainWalk_leading_iff`) and after the last of them it ends (`plainWalk_end_iff`), so it answers
with the iterate of the strategy that counts them all, and it ends whenever they do.

If the delays of the strategy never shrink, the early end is only a matter of what is read
(`penaltyMs_eq_plain`): the answer is that of the plain walk, and the names looked up are the first
ones that the plain walk looks up.
-/

namespace Scheduling

open Ancestry

/-- The walk up the ancestors that no delay ends. From `next`, after the ancestors of `visited`,
which made for a delay of `penalty`, it answers with a delay and looks up names, in order. -/
inductive PlainWalk (S : Snapshot) (s : Settings (UInt64 → UInt64)) :
    List TaskId → UInt64 → Option TaskId → UInt64 → List TaskId → Prop where
  /-- No link leads on. -/
  | unlinked {visited : List TaskId} {penalty : UInt64} :
      PlainWalk S s visited penalty none penalty []
  /-- The link leads back to an ancestor that was seen. -/
  | seen {visited : List TaskId} {penalty : UInt64} {id : TaskId} :
      id ∈ visited → PlainWalk S s visited penalty (some id) penalty []
  /-- The ancestor is not stored. -/
  | missing {visited : List TaskId} {penalty : UInt64} {id : TaskId} :
      id ∉ visited → S id = none → PlainWalk S s visited penalty (some id) penalty [id]
  /-- The ancestor is not flapping. -/
  | calm {visited : List TaskId} {penalty : UInt64} {id : TaskId} {r : TaskRecord} :
      id ∉ visited → S id = some r → s.isFlapping r = false →
      PlainWalk S s visited penalty (some id) penalty [id]
  /-- The ancestor is flapping: the strategy is called, and the walk goes on. -/
  | flapping {visited : List TaskId} {penalty answer : UInt64} {id : TaskId} {r : TaskRecord}
      {ids : List TaskId} :
      id ∉ visited → S id = some r → s.isFlapping r = true →
      PlainWalk S s (id :: visited) (s.backoff penalty) r.ancestor answer ids →
      PlainWalk S s visited penalty (some id) answer (id :: ids)

variable {S : Snapshot} {s : Settings (UInt64 → UInt64)} {t : TaskRecord} {n k : ℕ}
  {visited ids : List TaskId} {penalty answer : UInt64} {id : TaskId} {r : TaskRecord}

/-- At a new, stored and flapping ancestor the plain walk looks it up and goes on. -/
theorem plainWalk_flapping_iff (hnew : id ∉ visited) (hr : S id = some r)
    (hflap : s.isFlapping r = true) :
    PlainWalk S s visited penalty (some id) answer ids ↔ ∃ rest, ids = id :: rest ∧
      PlainWalk S s (id :: visited) (s.backoff penalty) r.ancestor answer rest := by
  constructor
  · intro h
    cases h with
    | seen hmem => exact absurd hmem hnew
    | missing _ hnone => cases hr.symm.trans hnone
    | calm _ hr' hcalm =>
      obtain rfl := Option.some.inj (hr.symm.trans hr')
      cases hflap.symm.trans hcalm
    | flapping _ hr' _ hrest =>
      obtain rfl := Option.some.inj (hr.symm.trans hr')
      exact ⟨_, rfl, hrest⟩
  · rintro ⟨rest, rfl, hrest⟩
    exact .flapping hnew hr hflap hrest

/-- Over leading flapping ancestors the plain walk goes on: it looks them up, and stands at the next
with a delay that counts them. -/
theorem plainWalk_leading_iff (h : Leading S (s.isFlapping ·) t n) :
    PlainWalk S s [] 0 t.ancestor answer ids ↔ ∃ rest, ids = names S t n ++ rest ∧
      PlainWalk S s (names S t n).reverse (s.backoff^[n] 0) (link S t n) answer rest := by
  induction n generalizing ids with
  | zero => simp [link]
  | succ n ih =>
    obtain ⟨h, id, r, hid, hr, hflap, hnew⟩ := leading_succ_iff.1 h
    have hstep : ∀ rest, PlainWalk S s (names S t n).reverse (s.backoff^[n] 0) (some id) answer
        rest ↔ _ := fun rest => plainWalk_flapping_iff (mt List.mem_reverse.1 hnew) hr hflap
    rw [ih h, hid, names_succ hid, link_succ hid hr, List.reverse_append,
      Function.iterate_succ_apply' s.backoff]
    constructor
    · rintro ⟨rest, rfl, hwalk⟩
      obtain ⟨rest, rfl, hrest⟩ := (hstep rest).1 hwalk
      exact ⟨rest, by simp, hrest⟩
    · rintro ⟨rest, rfl, hrest⟩
      exact ⟨id :: rest, by simp, (hstep _).2 ⟨rest, rfl, hrest⟩⟩

/-- Where no leading run goes further, the plain walk ends with the delay it has, as the walk with
an early end does there. -/
theorem plainWalk_end_iff (h : Leading S (s.isFlapping ·) t n)
    (hmax : ¬ Leading S (s.isFlapping ·) t (n + 1)) :
    PlainWalk S s (names S t n).reverse penalty (link S t n) answer ids ↔
      answer = penalty ∧ ids = (link S t n).toList.filter (· ∉ names S t n) := by
  -- a stored and flapping ancestor would make the leading run longer
  have hcalm : ∀ id r, link S t n = some id → id ∉ names S t n → S id = some r →
      s.isFlapping r = false := fun id r hid hnew hr =>
    Bool.eq_false_iff.2 fun hflap => hmax (leading_succ_iff.2 ⟨h, id, r, hid, hr, hflap, hnew⟩)
  rcases hid : link S t n with _ | id
  · constructor
    · intro hwalk
      cases hwalk
      exact ⟨rfl, rfl⟩
    · rintro ⟨rfl, rfl⟩
      exact .unlinked
  · by_cases hseen : id ∈ names S t n
    · have hfilter : (some id).toList.filter (· ∉ names S t n) = [] := by simp [hseen]
      rw [hfilter]
      constructor
      · intro hwalk
        cases hwalk with
        | seen => exact ⟨rfl, rfl⟩
        | missing hnew | calm hnew | flapping hnew => exact absurd (List.mem_reverse.2 hseen) hnew
      · rintro ⟨rfl, rfl⟩
        exact .seen (List.mem_reverse.2 hseen)
    · have hfilter : (some id).toList.filter (· ∉ names S t n) = [id] := by simp [hseen]
      rw [hfilter]
      constructor
      · intro hwalk
        cases hwalk with
        | seen hmem => exact absurd (List.mem_reverse.1 hmem) hseen
        | missing | calm => exact ⟨rfl, rfl⟩
        | flapping _ hr hflap => cases hflap.symm.trans (hcalm id _ hid hseen hr)
      · rintro ⟨rfl, rfl⟩
        have hnew : id ∉ (names S t n).reverse := mt List.mem_reverse.1 hseen
        rcases hr : S id with _ | r
        · exact .missing hnew hr
        · exact .calm hnew hr (hcalm id r hid hseen hr)

/-- The plain walk counts every leading flapping ancestor, and looks up the one after them if there
is one that it has not seen. -/
theorem plainWalk_iff (hk : IsGreatest {n | Leading S (s.isFlapping ·) t n} k) :
    PlainWalk S s [] 0 t.ancestor answer ids ↔ answer = s.backoff^[k] 0 ∧
      ids = names S t k ++ (link S t k).toList.filter (· ∉ names S t k) := by
  have hmax : ¬ Leading S (s.isFlapping ·) t (k + 1) := fun h => absurd (hk.2 h) (by simp)
  rw [plainWalk_leading_iff hk.1]
  constructor
  · rintro ⟨rest, rfl, hrest⟩
    obtain ⟨rfl, rfl⟩ := (plainWalk_end_iff hk.1 hmax).1 hrest
    exact ⟨rfl, rfl⟩
  · rintro ⟨rfl, rfl⟩
    exact ⟨_, rfl, (plainWalk_end_iff hk.1 hmax).2 ⟨rfl, rfl⟩⟩

/-- A plain walk that ends has looked up every leading flapping ancestor, so they end too. -/
theorem PlainWalk.exists_isGreatest (h : PlainWalk S s [] 0 t.ancestor answer ids) :
    ∃ k, IsGreatest {n | Leading S (s.isFlapping ·) t n} k := by
  have hle : ∀ n, Leading S (s.isFlapping ·) t n → n ≤ ids.length := by
    intro n hn
    obtain ⟨rest, rfl, -⟩ := (plainWalk_leading_iff hn).1 h
    rw [List.length_append, hn.nodup_names.2]
    exact Nat.le_add_right n rest.length
  exact exists_isGreatest_of_le hle

namespace Calculator

/-- The names that a walk with a pure strategy looks up, in order. -/
def lookups (S : Snapshot) (s : Settings (UInt64 → UInt64)) (t : TaskRecord) : List TaskId :=
  (observedRun S s.stateless t ()).2.lookups

/-- The names that a walk looks up start with those of leading flapping ancestors. Either these are
all, and the delay no longer grows there, or it has counted all such ancestors, and the next one
may follow. -/
theorem lookups_cases (S : Snapshot) (s : Settings (UInt64 → UInt64)) (t : TaskRecord) :
    (∃ n, Leading S (s.isFlapping ·) t (n + 1) ∧ s.backoff^[n + 1] 0 ≤ s.backoff^[n] 0 ∧
      (⟨S, s⟩ : Calculator Id).penaltyMs t = s.backoff^[n + 1] 0 ∧
      lookups S s t = names S t (n + 1)) ∨
    ∃ k, IsGreatest {n | Leading S (s.isFlapping ·) t n} k ∧
      (⟨S, s⟩ : Calculator Id).penaltyMs t = s.backoff^[k] 0 ∧
      lookups S s t = names S t k ++ (link S t k).toList.filter (· ∉ names S t k) := by
  have hanswer := fst_run_observed_pure S s t (.start ())
  have hreply : ∀ j, (reply s.stateless.backoff () j).1 = s.backoff^[j] 0 := fun j =>
    congrArg Prod.fst (reply_pure s.backoff j)
  rcases observedRun_cases S s.stateless t () with ⟨n, hlead, hstop, hrun⟩ | ⟨k, hk, hrun⟩
  · rw [hreply, hreply] at hstop
    exact .inl ⟨n, hlead, hstop,
      hanswer.symm.trans ((congrArg Prod.fst hrun).trans (hreply (n + 1))),
      congrArg (fun run => run.2.lookups) hrun⟩
  · exact .inr ⟨k, hk, hanswer.symm.trans ((congrArg Prod.fst hrun).trans (hreply k)),
      congrArg (fun run => run.2.lookups) hrun⟩

/-- The names that a walk looks up come first among those that the plain walk looks up. -/
theorem lookups_prefix (hk : IsGreatest {n | Leading S (s.isFlapping ·) t n} k) :
    lookups S s t <+: names S t k ++ (link S t k).toList.filter (· ∉ names S t k) := by
  rcases lookups_cases S s t with ⟨n, hlead, -, -, hlookups⟩ | ⟨k', hk', -, hlookups⟩
  · rw [hlookups]
    exact (prefix_names_of_le (hk.2 hlead)).trans (List.prefix_append _ _)
  · obtain rfl := hk.unique hk'
    exact hlookups ▸ List.prefix_rfl

/-- Where flapping ancestors never end, a walk ends at a delay that no later one differs from. -/
theorem exists_lookups_eq_names (hf : NonShrinking s.backoff)
    (hall : ∀ n, Leading S (s.isFlapping ·) t n) :
    ∃ n, lookups S s t = names S t n ∧
      ∀ m, n ≤ m → (⟨S, s⟩ : Calculator Id).penaltyMs t = s.backoff^[m] 0 := by
  rcases lookups_cases S s t with ⟨n, -, hstop, hanswer, hlookups⟩ | ⟨k, hk, -⟩
  · refine ⟨n + 1, hlookups, fun m hm => ?_⟩
    rw [hanswer, hf.iterate_eq hstop (by omega : n ≤ n + 1), hf.iterate_eq hstop (by omega : n ≤ m)]
  · exact absurd (hk.2 (hall (k + 1))) (by simp)

/-- With a strategy whose delays never shrink, a walk is the plain walk, up to what it reads.

* If the plain walk ends, it answers with the iterate of the strategy that counts every leading,
  pairwise distinct, stored and flapping ancestor. The walk has the same answer, and the names that
  it looks up come first among those that the plain walk looks up.
* The plain walk ends if there is a last such ancestor,
* and in the snapshot of a store there is.
* Where there is none, the walk answers with the iterate that counts the ancestors it has looked up,
  and no iterate that counts more of them is another delay. -/
theorem penaltyMs_eq_plain (hf : NonShrinking s.backoff) (S : Snapshot) (t : TaskRecord) :
    (∀ answer ids, PlainWalk S s [] 0 t.ancestor answer ids →
      (∃ k, IsGreatest {n | Leading S (s.isFlapping ·) t n} k ∧ answer = s.backoff^[k] 0) ∧
        (⟨S, s⟩ : Calculator Id).penaltyMs t = answer ∧ lookups S s t <+: ids) ∧
      ((∃ k, IsGreatest {n | Leading S (s.isFlapping ·) t n} k) →
        ∃ answer ids, PlainWalk S s [] 0 t.ancestor answer ids) ∧
      (∀ store : TaskStore, S = store.fetch →
        ∃ k, IsGreatest {n | Leading S (s.isFlapping ·) t n} k) ∧
      ((∀ n, Leading S (s.isFlapping ·) t n) →
        ∃ n, lookups S s t = names S t n ∧
          ∀ m, n ≤ m → (⟨S, s⟩ : Calculator Id).penaltyMs t = s.backoff^[m] 0) := by
  refine ⟨fun answer ids hwalk => ?_, ?_, ?_, exists_lookups_eq_names hf⟩
  · obtain ⟨k, hk⟩ := hwalk.exists_isGreatest
    obtain ⟨rfl, rfl⟩ := (plainWalk_iff hk).1 hwalk
    exact ⟨⟨k, hk, rfl⟩, penaltyMs_eq_iterate hf hk, lookups_prefix hk⟩
  · rintro ⟨k, hk⟩
    exact ⟨_, _, (plainWalk_iff hk).2 ⟨rfl, rfl⟩⟩
  · rintro store rfl
    exact exists_isGreatest_leading store _ t

/-- With a constant delay, a walk over three flapping ancestors reads two of them, and answers as if
it had read them all. -/
theorem penaltyMs_eq_plain_threeFlappy :
    let S : Snapshot := (TaskStore.ofList Sample.threeFlappy).fetch
    let s : Settings (UInt64 → UInt64) := Settings.byDefault.map fun _ => (ConstantBackoff.mk 7).next
    let t : TaskRecord := (Sample.task ⟨"t", by decide⟩ .pending).withAncestor ⟨"a", by decide⟩
    let ids : List TaskId := [⟨"a", by decide⟩, ⟨"b", by decide⟩, ⟨"c", by decide⟩]
    NonShrinking s.backoff ∧ PlainWalk S s [] 0 t.ancestor 7 ids ∧
      (⟨S, s⟩ : Calculator Id).penaltyMs t = 7 ∧ lookups S s t <+: ids ∧
      lookups S s t = ids.take 2 := by
  intro S s t ids
  have hf : NonShrinking s.backoff := (ConstantBackoff.mk 7).nonShrinking_next
  have hwalk : PlainWalk S s [] 0 t.ancestor 7 ids := by
    refine .flapping (by decide) ((TaskStore.fetch_ofList _ _).trans rfl) (by decide) ?_
    refine .flapping (by decide) ((TaskStore.fetch_ofList _ _).trans rfl) (by decide) ?_
    refine .flapping (by decide) ((TaskStore.fetch_ofList _ _).trans rfl) (by decide) ?_
    exact .unlinked
  obtain ⟨-, hanswer, hprefix⟩ := (penaltyMs_eq_plain hf S t).1 7 ids hwalk
  exact ⟨hf, hwalk, hanswer, hprefix, by decide +kernel⟩

end Calculator

end Scheduling
