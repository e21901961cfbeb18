import Mathlib.Tactic.Common
import Scheduling.Penalty
import Scheduling.Proofs.Penalty.Ancestry

/-!
# Walks under observation

What a walk does besides its answer shows only in the store that it asks and the strategy that it
calls. `Calculator.observed` wraps both in a log: it notes each name that is looked up and each
delay that the strategy is given, in order, and passes everything on. `run_walk_new` says what the
walk does at an ancestor not seen before, and is all that later proofs unfold of it.

A walk sees of its monad only what `pure` and `bind` do with the answers, so two walks whose
answers are related step by step have related results (`walk_rel`). That watching changes nothing
(`run_observed`) and that a strategy without a state needs no monad (`fst_run_observed_pure`) are
cases of this.
-/

namespace Scheduling

/-- What is seen of a walk in a world of type `σ`, which answers its look-ups and its calls of the
strategy. -/
structure Observed (σ : Type) where
  /-- The world as the walk has left it. -/
  world : σ
  /-- The names looked up so far, in order. -/
  lookups : List TaskId
  /-- The delays that the strategy has been given so far, in order. -/
  inputs : List UInt64

/-- Nothing has been seen yet. -/
def Observed.start {σ : Type} (world : σ) : Observed σ := ⟨world, [], []⟩

/-- A sequence of two stateful computations runs the second where the first leaves off. -/
theorem run_bind {ω α β : Type} (x : StateM ω α) (f : α → StateM ω β) (w : ω) :
    (x >>= f).run w = (f (x.run w).1).run (x.run w).2 := rfl

variable {σ : Type}

namespace Calculator

/-- A calculator over a store that nothing changes. -/
def ofSnapshot (S : Snapshot) (s : Settings (UInt64 → StateM σ UInt64)) : Calculator (StateM σ) :=
  ⟨fun id => pure (S id), s⟩

/-- The calculator with a log of its look-ups and of what it gives the strategy. -/
def observed (c : Calculator (StateM σ)) : Calculator (StateM (Observed σ)) where
  fetch id := do
    let o : Observed σ ← get
    let (record, world) := (c.fetch id).run o.world
    set { o with world := world, lookups := o.lookups ++ [id] }
    return record
  settings := c.settings.map fun backoff last => do
    let o : Observed σ ← get
    let (next, world) := (backoff last).run o.world
    set { o with world := world, inputs := o.inputs ++ [last] }
    return next

/-- An observed look-up is the look-up, and is noted. -/
theorem run_fetch_observed (c : Calculator (StateM σ)) (id : TaskId) (o : Observed σ) :
    (c.observed.fetch id).run o =
      (((c.fetch id).run o.world).1, ⟨((c.fetch id).run o.world).2, o.lookups ++ [id], o.inputs⟩) :=
  rfl

/-- An observed call of the strategy is the call, and what it is given is noted. -/
theorem run_backoff_observed (c : Calculator (StateM σ)) (last : UInt64) (o : Observed σ) :
    (c.observed.settings.backoff last).run o =
      (((c.settings.backoff last).run o.world).1,
        ⟨((c.settings.backoff last).run o.world).2, o.lookups, o.inputs ++ [last]⟩) :=
  rfl

/-- Watching does not change which records count as flapping. -/
@[simp] theorem isFlapping_observed (c : Calculator (StateM σ)) (r : TaskRecord) :
    c.observed.isFlapping r = c.isFlapping r := rfl

/-! ## Steps of an observed walk -/

section Steps

variable (c : Calculator (StateM σ)) (visited : List TaskId) (penalty : UInt64) (o : Observed σ)

/-- Without a link to an ancestor the walk is over. -/
theorem run_walk_none : (c.observed.walk visited penalty none).run o = (penalty, o) := by
  rw [walk]
  rfl

/-- At an ancestor seen before the walk is over. -/
theorem run_walk_seen {id : TaskId} (h : id ∈ visited) :
    (c.observed.walk visited penalty (some id)).run o = (penalty, o) := by
  rw [walk, if_pos h]
  rfl

/-- At a new ancestor the walk looks it up. If it is stored and flapping, the walk calls the
strategy once, and goes on if the delay has grown. -/
theorem run_walk_new {id : TaskId} (h : id ∉ visited) :
    (c.observed.walk visited penalty (some id)).run o =
      match (c.fetch id).run o.world with
      | (none, w) => (penalty, ⟨w, o.lookups ++ [id], o.inputs⟩)
      | (some r, w) =>
        if c.isFlapping r then
          match (c.settings.backoff penalty).run w with
          | (next, w') =>
            if penalty < next then
              (c.observed.walk (id :: visited) next r.ancestor).run
                ⟨w', o.lookups ++ [id], o.inputs ++ [penalty]⟩
            else (next, ⟨w', o.lookups ++ [id], o.inputs ++ [penalty]⟩)
        else (penalty, ⟨w, o.lookups ++ [id], o.inputs⟩) := by
  rw [walk, if_neg h, run_bind, run_fetch_observed]
  rcases (c.fetch id).run o.world with ⟨_ | r, w⟩
  · rfl
  · dsimp only
    by_cases hr : c.isFlapping r = true
    · rw [if_pos hr, if_pos ((isFlapping_observed c r).trans hr), run_bind, run_backoff_observed]
      rcases (c.settings.backoff penalty).run w with ⟨next, w'⟩
      dsimp only
      split <;> rfl
    · rw [if_neg hr, if_neg fun h' => hr ((isFlapping_observed c r).symm.trans h')]
      rfl

end Steps

end Calculator

/-! ## Related walks -/

/-- A relation between the computations of two monads that sequencing keeps. -/
structure MonadRel (m n : Type → Type) [Monad m] [Monad n] where
  /-- The computations are related. -/
  Rel : ∀ {α : Type}, m α → n α → Prop
  /-- The same answer without any effect is related to itself. -/
  pure : ∀ {α : Type} (a : α), Rel (Pure.pure a) (Pure.pure a)
  /-- Related computations, each followed by what is related at every answer, are related. -/
  bind : ∀ {α β : Type} {x : m α} {y : n α} {f : α → m β} {g : α → n β},
    Rel x y → (∀ a, Rel (f a) (g a)) → Rel (x >>= f) (y >>= g)

namespace MonadRel

/-- Of a computation that is watched there remain its answer and what it does to the world. -/
def unobserved (σ : Type) : MonadRel (StateM (Observed σ)) (StateM σ) where
  Rel x y := ∀ o, y.run o.world = ((x.run o).1, (x.run o).2.world)
  pure _ _ := rfl
  bind hx hf o := by rw [run_bind, run_bind, hx, hf]

/-- Of a stateful computation there remains its answer, whatever state it starts from. -/
def answer (ω : Type) : MonadRel (StateM ω) Id where
  Rel x y := ∀ w, (x.run w).1 = y.run
  pure _ _ := rfl
  bind hx hf w := by rw [run_bind, Id.run_bind, hf, hx]

end MonadRel

namespace Calculator

/-- Walks with related stores and strategies, which flag the same records, are related. -/
theorem walk_rel {m n : Type → Type} [Monad m] [Monad n] (R : MonadRel m n)
    {c : Calculator m} {d : Calculator n} (fetch : ∀ id, R.Rel (c.fetch id) (d.fetch id))
    (backoff : ∀ last, R.Rel (c.settings.backoff last) (d.settings.backoff last))
    (flapping : ∀ r, c.isFlapping r = d.isFlapping r)
    (visited : List TaskId) (penalty : UInt64) (next : Option TaskId) :
    R.Rel (c.walk visited penalty next) (d.walk visited penalty next) := by
  -- the induction is the walk's own, over whatever the store and the strategy may answer
  induction visited, penalty, next using walk.induct with
  | case1 visited penalty => rw [walk, walk]; exact R.pure penalty
  | case2 visited penalty id h => rw [walk, walk, if_pos h, if_pos h]; exact R.pure penalty
  | case3 visited penalty id h ih =>
    rw [walk, walk, if_neg h, if_neg h]
    refine R.bind (fetch id) fun record => ?_
    cases record with
    | none => exact R.pure penalty
    | some r =>
      dsimp only
      rw [flapping r]
      split
      · refine R.bind (backoff penalty) fun next => ?_
        split
        · exact ih r next ‹_›
        · exact R.pure next
      · exact R.pure penalty

/-- Watching a walk changes neither its answer nor what it does to the world. -/
theorem run_observed (c : Calculator (StateM σ)) (t : TaskRecord) (o : Observed σ) :
    (c.penaltyMs t).run o.world =
      (((c.observed.penaltyMs t).run o).1, ((c.observed.penaltyMs t).run o).2.world) :=
  walk_rel (.unobserved σ) (c := c.observed) (d := c) (fun _ _ => rfl) (fun _ _ => rfl)
    (fun _ => rfl) [] 0 t.ancestor o

/-- With a strategy without a state, the answer of an observed walk is that of the walk which has
no world at all. -/
theorem fst_run_observed_pure (S : Snapshot) (s : Settings (UInt64 → UInt64)) (t : TaskRecord)
    (o : Observed Unit) :
    (((ofSnapshot S (s.map fun f last => pure (f last))).observed.penaltyMs t).run o).1 =
      (⟨S, s⟩ : Calculator Id).penaltyMs t :=
  walk_rel (.answer _) (fun _ _ => rfl) (fun _ _ => rfl) (fun _ => rfl) [] 0 t.ancestor o

end Calculator

end Scheduling
