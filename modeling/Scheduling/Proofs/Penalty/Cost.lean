import Mathlib.Order.Nat
import Scheduling.Proofs.Penalty.Plain
import Scheduling.Proofs.Penalty.Turns

/-!
# How many look-ups a walk makes

A walk looks up one name a turn and goes on only while the delay grows. With a strategy `f` without
a state the delays are the iterates of `f` on zero, whatever the store answers, so if the delay has
stopped growing after `n` steps, there are at most `n + 1` look-ups (`cost_le_of_stop`); and where
so many leading ancestors are flapping, there are just as many (`cost_eq_of_stop`).

A truncated backoff grows as long as its doubled first delay is below the largest one
(`TruncatedBackoff.lt_iterate_succ_iff`), which takes at most 64 doublings, and a constant one grows
only once. `penaltyMs_cost` says what this means for the look-ups of a walk.
-/

namespace Scheduling

open Ancestry

namespace TruncatedBackoff

variable {b : TruncatedBackoff} {n : ℕ}

/-- The delay grows at first, and then as long as the first delay, doubled as often as before, is
below the largest one. -/
theorem lt_iterate_succ_iff :
    b.next^[n] 0 < b.next^[n + 1] 0 ↔
      n = 0 ∨ b.initial.toNat * 2 ^ (n - 1) < b.max.toNat := by
  have hpos : 0 < b.initial.toNat := UInt64.lt_iff_toNat_lt.1 b.initial_pos
  have hle : b.initial.toNat ≤ b.max.toNat := UInt64.le_iff_toNat_le.1 b.initial_le_max
  rw [UInt64.lt_iff_toNat_lt]
  cases n with
  | zero =>
    refine iff_of_true ?_ (.inl rfl)
    rw [toNat_iterate_next, pow_zero, mul_one, Function.iterate_zero_apply, UInt64.toNat_zero]
    omega
  | succ n =>
    have hgrown : 0 < b.initial.toNat * 2 ^ n := Nat.mul_pos hpos (Nat.two_pow_pos n)
    rw [toNat_iterate_next, toNat_iterate_next, Nat.add_sub_cancel, pow_succ, ← mul_assoc]
    omega

/-- The first delay reaches the largest one after some number of doublings, and 64 are enough. -/
theorem exists_isLeast_doublings (b : TruncatedBackoff) :
    ∃ n, IsLeast {n | b.max.toNat ≤ b.initial.toNat * 2 ^ n} n ∧ n ≤ 64 := by
  have hpos : 0 < b.initial.toNat := UInt64.lt_iff_toNat_lt.1 b.initial_pos
  have henough : b.max.toNat ≤ b.initial.toNat * 2 ^ 64 := by
    calc b.max.toNat ≤ 2 ^ 64 := b.max.toNat_lt.le
      _ ≤ b.initial.toNat * 2 ^ 64 := Nat.le_mul_of_pos_left _ hpos
  have hexists : ∃ n, b.max.toNat ≤ b.initial.toNat * 2 ^ n := ⟨64, henough⟩
  exact ⟨Nat.find hexists, Nat.isLeast_find hexists, Nat.find_min' hexists henough⟩

end TruncatedBackoff

namespace Calculator

variable {σ : Type} {c : Calculator (StateM σ)} {f : UInt64 → UInt64} {n : ℕ}

/-- The number of look-ups that the walk for a task makes. -/
def cost (c : Calculator (StateM σ)) (t : TaskRecord) (w : σ) : ℕ :=
  ((c.observed.penaltyMs t).run (.start w)).2.lookups.length

/-- If every reply of the strategy is that of a function, a loop has taken its last turn when the
function no longer makes the delay grow. -/
theorem Turns.length_le_of_stop {p : Position σ} {positions : List (Position σ)}
    {answer : UInt64 × σ} (h : c.Turns p positions answer)
    (hf : ∀ last w, ((c.settings.backoff last).run w).1 = f last)
    (hstop : f^[n + 1] p.penalty ≤ f^[n] p.penalty) : positions.length ≤ n + 1 := by
  induction h generalizing n with
  | ends => exact Nat.le_add_left 1 n
  | @goesOn p q _ _ hp _ ih =>
    obtain ⟨-, -, w, -, -, -, -, hbackoff, hlt, -, -⟩ := hop_eq_inr hp
    have hnext : f p.penalty = q.penalty := (hf p.penalty w).symm.trans (congrArg Prod.fst hbackoff)
    cases n with
    | zero => exact absurd hlt (UInt64.not_lt.2 (hnext ▸ hstop))
    | succ n =>
      -- the delays from the next position on are those from here, but for the first
      have hlater : ∀ m, f^[m + 1] p.penalty = f^[m] q.penalty := fun m => by
        rw [Function.iterate_succ_apply, hnext]
      rw [hlater, hlater] at hstop
      exact Nat.succ_le_succ (ih hstop)

/-- Whatever the store answers, a walk makes no more look-ups than its strategy has delays up to
where they stop growing. -/
theorem cost_le_of_stop (hf : ∀ last w, ((c.settings.backoff last).run w).1 = f last)
    (hstop : f^[n + 1] 0 ≤ f^[n] 0) (t : TaskRecord) (w : σ) : c.cost t w ≤ n + 1 := by
  obtain ⟨positions, answer, hturns⟩ := c.observed.exists_turns (.start t (.start w))
  have hrun : (c.observed.penaltyMs t).run (.start w) = answer := hturns.run_walk
  have hlookups : answer.2.lookups = positions.flatMap Position.asked := hturns.log.1
  calc c.cost t w = (positions.flatMap Position.asked).length := by rw [cost, hrun, hlookups]
    _ ≤ positions.length := length_flatMap_asked_le positions
    _ ≤ n + 1 := hturns.length_le_of_stop (fun last o => hf last o.world) hstop

/-- Over a store that nothing changes, a walk looks up as many leading flapping ancestors as there
are delays up to where they stop growing. -/
theorem cost_eq_of_stop {S : Snapshot} {s : Settings (UInt64 → UInt64)} {t : TaskRecord}
    (h : Leading S (s.isFlapping ·) t (n + 1))
    (hgrow : ∀ j < n, s.backoff^[j] 0 < s.backoff^[j + 1] 0)
    (hstop : s.backoff^[n + 1] 0 ≤ s.backoff^[n] 0) :
    (ofSnapshot S s.stateless).cost t () = n + 1 := by
  have hreply : ∀ j, (reply s.stateless.backoff () j).1 = s.backoff^[j] 0 := fun j =>
    congrArg Prod.fst (reply_pure s.backoff j)
  have hrun := observedRun_of_stop (s := s.stateless) (w := ()) h
    (by simpa only [hreply] using hgrow) (by simpa only [hreply] using hstop)
  calc (ofSnapshot S s.stateless).cost t () = (observedRun S s.stateless t ()).2.lookups.length :=
        rfl
    _ = (names S t (n + 1)).length := by rw [hrun]; rfl
    _ = n + 1 := h.nodup_names.2

/-- A leading run of one ancestor is a link to a stored record with the property. -/
theorem leading_one_iff {S : Snapshot} {P : TaskRecord → Prop} {t : TaskRecord} :
    Leading S P t 1 ↔ ∃ id r, t.ancestor = some id ∧ S id = some r ∧ P r := by
  simp [leading_succ_iff, leading_zero, link]

/-- A constant delay is waited for if the first ancestor is stored and flapping, and no delay
otherwise. -/
theorem penaltyMs_constant (s : Settings ConstantBackoff) (S : Snapshot) (t : TaskRecord) :
    (Leading S (s.isFlapping ·) t 1 ∧
        (⟨S, s.map ConstantBackoff.next⟩ : Calculator Id).penaltyMs t = s.backoff.delay) ∨
      (¬ Leading S (s.isFlapping ·) t 1 ∧
        (⟨S, s.map ConstantBackoff.next⟩ : Calculator Id).penaltyMs t = 0) := by
  have hdelay : ∀ j, (s.map ConstantBackoff.next).backoff^[j + 1] 0 = s.backoff.delay := fun j => by
    rw [Function.iterate_succ_apply']
    rfl
  rcases lookups_cases S (s.map ConstantBackoff.next) t with
    ⟨n, hlead, -, hanswer, -⟩ | ⟨k, hk, hanswer, -⟩
  · exact .inl ⟨hlead.mono (by omega), hanswer.trans (hdelay n)⟩
  · cases k with
    | zero => exact .inr ⟨fun hone => by simpa using hk.2 hone, hanswer⟩
    | succ k => exact .inl ⟨hk.1.mono (by omega), hanswer.trans (hdelay k)⟩

/-- How many look-ups a walk makes.

With a truncated backoff, let `n` be the least number of doublings that take the first delay to the
largest one.

* `n + 2` is at most 66.
* Whatever the store answers, and however it changes meanwhile, there are at most `n + 2` look-ups.
* Over a store that nothing changes there are just as many, if the first `n + 2` ancestors are
  stored, pairwise distinct and flapping.

With a constant backoff, also one of no delay, there are at most two look-ups, and the answer is the
delay if the first ancestor is stored and flapping, and zero otherwise. -/
theorem penaltyMs_cost :
    (∀ s : Settings TruncatedBackoff, ∃ n,
      IsLeast {n | s.backoff.max.toNat ≤ s.backoff.initial.toNat * 2 ^ n} n ∧ n + 2 ≤ 66 ∧
        (∀ (σ : Type) (fetch : TaskId → StateM σ (Option TaskRecord)) (t : TaskRecord) (w : σ),
          cost ⟨fetch, (s.map TruncatedBackoff.next).stateless⟩ t w ≤ n + 2) ∧
        ∀ (S : Snapshot) (t : TaskRecord), Leading S (s.isFlapping ·) t (n + 2) →
          (ofSnapshot S (s.map TruncatedBackoff.next).stateless).cost t () = n + 2) ∧
      ∀ s : Settings ConstantBackoff,
        (∀ (σ : Type) (fetch : TaskId → StateM σ (Option TaskRecord)) (t : TaskRecord) (w : σ),
          cost ⟨fetch, (s.map ConstantBackoff.next).stateless⟩ t w ≤ 2) ∧
        ∀ (S : Snapshot) (t : TaskRecord),
          ((∃ id r, t.ancestor = some id ∧ S id = some r ∧ s.isFlapping r = true) ∧
              (⟨S, s.map ConstantBackoff.next⟩ : Calculator Id).penaltyMs t = s.backoff.delay) ∨
            ((¬ ∃ id r, t.ancestor = some id ∧ S id = some r ∧ s.isFlapping r = true) ∧
              (⟨S, s.map ConstantBackoff.next⟩ : Calculator Id).penaltyMs t = 0) := by
  refine ⟨fun s => ?_, fun s => ⟨fun σ fetch t w => ?_, fun S t => ?_⟩⟩
  · obtain ⟨n, hn, hle⟩ := s.backoff.exists_isLeast_doublings
    -- the delay grows in each of the first `n + 1` steps, and not in the next
    have hgrow : ∀ j < n + 1, s.backoff.next^[j] 0 < s.backoff.next^[j + 1] 0 := fun j hj => by
      rw [TruncatedBackoff.lt_iterate_succ_iff]
      by_contra hstop
      have hreached : n ≤ j - 1 := hn.2 (Nat.not_lt.1 fun hlt => hstop (.inr hlt))
      omega
    have hstop : s.backoff.next^[n + 1 + 1] 0 ≤ s.backoff.next^[n + 1] 0 := by
      rw [← UInt64.not_lt, TruncatedBackoff.lt_iterate_succ_iff]
      exact not_or.2 ⟨n.succ_ne_zero, Nat.not_lt.2 hn.1⟩
    exact ⟨n, hn, by omega, fun σ fetch t w => cost_le_of_stop (fun _ _ => rfl) hstop t w,
      fun S t hlead => cost_eq_of_stop hlead hgrow hstop⟩
  · exact cost_le_of_stop (f := s.backoff.next) (n := 1) (fun _ _ => rfl) (UInt64.le_refl _) t w
  · simpa only [leading_one_iff] using penaltyMs_constant s S t

/-- With a first delay of one millisecond and a largest one of two, one doubling is enough, and over
three flapping ancestors there are three look-ups. -/
theorem penaltyMs_cost_threeFlappy :
    let s : Settings TruncatedBackoff :=
      Settings.byDefault.map fun _ => ⟨1, 2, by decide, by decide⟩
    let S : Snapshot := (TaskStore.ofList Sample.threeFlappy).fetch
    let t : TaskRecord := (Sample.task ⟨"t", by decide⟩ .pending).withAncestor ⟨"a", by decide⟩
    Leading S (s.isFlapping ·) t 3 ∧
      (ofSnapshot S (s.map TruncatedBackoff.next).stateless).cost t () = 3 := by
  intro s S t
  have hlead : Leading S (s.isFlapping ·) t 3 := by
    have ha : S ⟨"a", by decide⟩ = Sample.threeFlappy[0]? := TaskStore.fetch_ofList _ _
    have hb : S ⟨"b", by decide⟩ = Sample.threeFlappy[1]? := TaskStore.fetch_ofList _ _
    have hc : S ⟨"c", by decide⟩ = Sample.threeFlappy[2]? := TaskStore.fetch_ofList _ _
    have hlink_b : link S t 1 = some ⟨"b", by decide⟩ := link_succ rfl ha
    have hlink_c : link S t 2 = some ⟨"c", by decide⟩ := link_succ hlink_b hb
    have hnames : names S t 2 = [⟨"a", by decide⟩, ⟨"b", by decide⟩] := by
      rw [names_succ hlink_b, names_succ (rfl : link S t 0 = some ⟨"a", by decide⟩)]
      rfl
    refine leading_succ_iff.2 ⟨leading_succ_iff.2 ⟨leading_one_iff.2 ?_, ?_⟩, ?_⟩
    · exact ⟨⟨"a", by decide⟩, _, rfl, ha, by decide⟩
    · exact ⟨⟨"b", by decide⟩, _, hlink_b, hb, by decide, by
        rw [names_succ (rfl : link S t 0 = some ⟨"a", by decide⟩)]
        decide⟩
    · exact ⟨⟨"c", by decide⟩, _, hlink_c, hc, by decide, by rw [hnames]; decide⟩
  obtain ⟨n, hn, -, -, hcost⟩ := penaltyMs_cost.1 s
  have hone : n = 1 := hn.unique ⟨by decide, fun m hm => by
    by_contra hlt
    obtain rfl : m = 0 := by omega
    exact absurd hm (by decide)⟩
  subst hone
  exact ⟨hlead, hcost S t hlead⟩

end Calculator

end Scheduling
