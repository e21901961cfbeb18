import Scheduling.Proofs.Penalty.Comparison
import Scheduling.Proofs.Penalty.Configured
import Scheduling.Sample

/-!
# Stricter settings and smaller stores

Settings are stricter about flapping (`Settings.Stricter`) if, with the same strategy, their
threshold is no higher and all states that interrupt a task in the others do so in them. What they
flag, the others flag too (`Settings.Stricter.isFlapping`), and a store with fewer records finds no
more. Either may end a walk sooner, at any ancestor: it may open a circle of ancestors, or cut the
walk below the ancestor where the delay stops growing. As delays never shrink, none of this
lengthens a delay (`penaltyMs_mono`).
-/

namespace Scheduling

namespace Settings

variable {β : Type} {s s' : Settings β} {r : TaskRecord}

/-- The first settings are as strict about flapping as the second or stricter, with the same
strategy. -/
structure Stricter (s' s : Settings β) : Prop where
  backoff_eq : s'.backoff = s.backoff
  /-- The threshold is no higher. -/
  threshold_le : s'.flappingThreshold.toNanos ≤ s.flappingThreshold.toNanos
  /-- All states that interrupt a task in the second do so in the first. -/
  interrupted_subset : ∀ status ∈ s.interrupted, status ∈ s'.interrupted

/-- What stricter settings flag, the others flag too. -/
theorem Stricter.isFlapping (h : s'.Stricter s) (hr : s'.isFlapping r = true) :
    s.isFlapping r = true := by
  obtain ⟨hcalm, lifetime, hlifetime, hshort⟩ := isFlapping_iff.1 hr
  have hthreshold := Duration.toNat_toMillis_le h.threshold_le
  refine isFlapping_iff.2 ⟨fun e he hstatus => ?_, lifetime, hlifetime, hshort.trans_le hthreshold⟩
  exact hcalm e he (h.interrupted_subset e.status hstatus)

end Settings

namespace Calculator

variable {s s' : Settings (UInt64 → UInt64)} {S S' : Snapshot}

/-- A walk with stricter settings over a snapshot with fewer records finds and flags no more. -/
theorem findsLess_stricter (hs : s'.Stricter s)
    (hS : ∀ id r, S' id = some r → S id = some r) :
    FindsLess s.backoff (ofSnapshot (σ := Unit) S' s'.stateless)
      (ofSnapshot (σ := Unit) S s.stateless) fun _ _ => True where
  left_pure last := congrArg pure (congrFun hs.backoff_eq last)
  right_pure _ := rfl
  flags _ h := hs.isFlapping h
  finds id _ _ _ r h := hS id r h
  keeps _ _ _ _ := trivial

/-- With a strategy whose delays never shrink, no delay is longer under stricter settings and over
fewer records, such as those that are left when some are deleted from a store. -/
theorem penaltyMs_mono (hf : NonShrinking s.backoff) (hs : s'.Stricter s) (t : TaskRecord) :
    (∀ S S' : Snapshot, (∀ id r, S' id = some r → S id = some r) →
      ((⟨S', s'⟩ : Calculator Id).penaltyMs t).run ≤ ((⟨S, s⟩ : Calculator Id).penaltyMs t).run) ∧
      ∀ (store : TaskStore) (ids : List TaskId),
        ((⟨(store.deleteAll ids).fetch, s'⟩ : Calculator Id).penaltyMs t).run ≤
          ((⟨store.fetch, s⟩ : Calculator Id).penaltyMs t).run := by
  have hmono : ∀ S S' : Snapshot, (∀ id r, S' id = some r → S id = some r) →
      ((⟨S', s'⟩ : Calculator Id).penaltyMs t).run ≤
        ((⟨S, s⟩ : Calculator Id).penaltyMs t).run := by
    intro S S' hS
    rw [penaltyMs_eq_run S' s' t (), penaltyMs_eq_run S s t ()]
    exact walk_le_walk (n := 0) hf (findsLess_stricter hs hS) rfl [] t.ancestor trivial
  exact ⟨hmono, fun store ids => hmono _ _ fun _ _ => TaskStore.fetch_of_fetch_deleteAll⟩

/-- The last of three flapping ancestors is deleted, the threshold lowered to just above the
lifetime of the others, and lost tasks count as interrupted. The delay is that of two ancestors,
below that of three. -/
theorem penaltyMs_mono_threeFlappy :
    let s : Settings (UInt64 → UInt64) := Settings.byDefault.map TruncatedBackoff.next
    let s' : Settings (UInt64 → UInt64) :=
      { s.withInterrupted [.killing, .lost] with
        flappingThreshold := .ofMillis 301, threshold_pos := by decide }
    let store : TaskStore := .ofList Sample.threeFlappy
    let t : TaskRecord := (Sample.task ⟨"t", by decide⟩ .pending).withAncestor ⟨"a", by decide⟩
    let before := ((⟨store.fetch, s⟩ : Calculator Id).penaltyMs t).run
    let after :=
      ((⟨(store.deleteAll [⟨"c", by decide⟩]).fetch, s'⟩ : Calculator Id).penaltyMs t).run
    NonShrinking s.backoff ∧ s'.Stricter s ∧ after ≤ before ∧ after = 2000 ∧ before = 4000 := by
  intro s s' store t before after
  have hf : NonShrinking s.backoff := Settings.byDefault.backoff.nonShrinking_next
  have hs : s'.Stricter s := ⟨rfl, by decide, by decide⟩
  exact ⟨hf, hs, (penaltyMs_mono hf hs t).2 store [⟨"c", by decide⟩], by decide +kernel,
    by decide +kernel⟩

end Calculator

end Scheduling
