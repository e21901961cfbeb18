import Mathlib.Data.List.Nodup
import Scheduling.Proofs.Penalty.Configured
import Scheduling.Proofs.Penalty.Observed
import Scheduling.Sample

/-!
# The walk turn by turn

A walk is a loop that at each turn ends with an answer or goes on from another position
(`Calculator.hop`). The loop itself has no measure: names are texts of any length, links may run in
circles, the store may answer otherwise each time and with records of other names, and the strategy
may reply what it likes. It ends all the same (`exists_turns`), since a turn that goes on leaves a
greater delay (`penalty_lt_of_hop_eq_inr`) and delays are 64-bit numbers. `Calculator.Turns` lists
the positions of a loop up to its end, and the walk answers what the loop ends with
(`Turns.run_walk`).

What a walk does is then read off its positions. Their delays rise (`Turns.penalties`), and they ask
for pairwise distinct names (`Turns.nodup_asked`), of which all but the last one are found
(`Turns.asked_found`). `penaltyMs_ends` puts this together for the watched walk, whose log holds the
names asked for.
-/

namespace Scheduling

/-- Where a walk stands between two turns, in a world of type `σ`. -/
structure Position (σ : Type) where
  /-- The ancestors seen so far, the last one first. -/
  visited : List TaskId
  /-- The delay so far. -/
  penalty : UInt64
  /-- The link to the next ancestor. -/
  next : Option TaskId
  world : σ

namespace Position

variable {σ : Type} {p : Position σ} {id : TaskId}

/-- Where the walk for a task starts. -/
def start (t : TaskRecord) (world : σ) : Position σ := ⟨[], 0, t.ancestor, world⟩

/-- The name that the next turn looks up, if it looks one up. -/
def asked (p : Position σ) : List TaskId := p.next.toList.filter (· ∉ p.visited)

/-- A turn asks for a link to an ancestor that it has not seen. -/
theorem asked_of_new (hid : p.next = some id) (hnew : id ∉ p.visited) : p.asked = [id] := by
  simp [asked, hid, hnew]

/-- A turn does not ask for an ancestor that it has seen. -/
theorem not_mem_visited_of_mem_asked (h : id ∈ p.asked) : id ∉ p.visited := by
  simpa using (List.mem_filter.1 h).2

/-- A turn asks for one name at most. -/
theorem length_asked_le (p : Position σ) : p.asked.length ≤ 1 :=
  (List.length_filter_le _ _).trans Option.length_toList_le

/-- A turn does not ask for a name twice. -/
theorem nodup_asked (p : Position σ) : p.asked.Nodup := by
  refine List.Nodup.filter _ ?_
  cases p.next <;> simp

end Position

namespace Calculator

variable {σ : Type}

/-- One turn of the loop: it ends with an answer, or goes on from another position. -/
def hop (c : Calculator (StateM σ)) (p : Position σ) : (UInt64 × σ) ⊕ Position σ :=
  match p.next with
  | none => .inl (p.penalty, p.world)
  | some id =>
    if id ∈ p.visited then .inl (p.penalty, p.world)
    else
      match (c.fetch id).run p.world with
      | (none, w) => .inl (p.penalty, w)
      | (some r, w) =>
        if c.isFlapping r then
          match (c.settings.backoff p.penalty).run w with
          | (next, w) =>
            if p.penalty < next then .inr ⟨id :: p.visited, next, r.ancestor, w⟩
            else .inl (next, w)
        else .inl (p.penalty, w)

/-- The loop from a position on: its positions, one after the other, and what it ends with. -/
inductive Turns (c : Calculator (StateM σ)) :
    Position σ → List (Position σ) → UInt64 × σ → Prop where
  /-- The loop ends in this turn. -/
  | ends {p : Position σ} {answer : UInt64 × σ} : c.hop p = .inl answer → Turns c p [p] answer
  /-- The loop goes on after this turn. -/
  | goesOn {p q : Position σ} {rest : List (Position σ)} {answer : UInt64 × σ} :
      c.hop p = .inr q → Turns c q rest answer → Turns c p (p :: rest) answer

variable {c : Calculator (StateM σ)} {p q : Position σ} {positions : List (Position σ)}
  {answer : UInt64 × σ}

/-- A turn that goes on has found a new ancestor that is flapping, and the strategy has replied with
a greater delay. -/
theorem hop_eq_inr (h : c.hop p = .inr q) :
    ∃ id r w, p.next = some id ∧ id ∉ p.visited ∧ (c.fetch id).run p.world = (some r, w) ∧
      c.isFlapping r = true ∧ (c.settings.backoff p.penalty).run w = (q.penalty, q.world) ∧
      p.penalty < q.penalty ∧ q.visited = id :: p.visited ∧ q.next = r.ancestor := by
  unfold hop at h
  split at h
  · cases h
  · next id hid =>
    split at h
    · cases h
    · next hnew =>
      split at h
      · cases h
      · next r w hfetch =>
        split at h
        · next hflap =>
          split at h
          next next' w' hbackoff =>
          split at h
          · next hlt =>
            obtain rfl := Sum.inr.inj h
            exact ⟨id, r, w, hid, hnew, hfetch, hflap, hbackoff, hlt, rfl, rfl⟩
          · cases h
        · cases h

/-- A turn that goes on leaves a greater delay. -/
theorem penalty_lt_of_hop_eq_inr (h : c.hop p = .inr q) : p.penalty < q.penalty := by
  obtain ⟨-, -, -, -, -, -, -, -, hlt, -, -⟩ := hop_eq_inr h
  exact hlt

/-- A turn that ends the loop has no name to ask for; or it finds no flapping ancestor; or the
strategy has replied with a delay that is not greater. -/
theorem hop_eq_inl (h : c.hop p = .inl answer) :
    (p.asked = [] ∧ answer = (p.penalty, p.world)) ∨
      ∃ id found w, p.next = some id ∧ id ∉ p.visited ∧ (c.fetch id).run p.world = (found, w) ∧
        ((answer = (p.penalty, w) ∧ ∀ r, found = some r → c.isFlapping r = false) ∨
          ∃ r, found = some r ∧ c.isFlapping r = true ∧
            (c.settings.backoff p.penalty).run w = answer ∧ answer.1 ≤ p.penalty) := by
  unfold hop at h
  split at h
  · next hnone =>
    exact .inl ⟨by simp [Position.asked, hnone], (Sum.inl.inj h).symm⟩
  · next id hid =>
    split at h
    · next hseen =>
      exact .inl ⟨by simp [Position.asked, hid, hseen], (Sum.inl.inj h).symm⟩
    · next hnew =>
      refine .inr ⟨id, ?_⟩
      split at h
      · next w hfetch =>
        exact ⟨none, w, hid, hnew, hfetch, .inl ⟨(Sum.inl.inj h).symm, by simp⟩⟩
      · next r w hfetch =>
        refine ⟨some r, w, hid, hnew, hfetch, ?_⟩
        split at h
        · next hflap =>
          split at h
          next next' w' hbackoff =>
          split at h
          · cases h
          · next hle =>
            obtain rfl := Sum.inl.inj h
            exact .inr ⟨r, rfl, hflap, hbackoff, UInt64.not_lt.1 hle⟩
        · next hcalm =>
          refine .inl ⟨(Sum.inl.inj h).symm, fun r' hr' => ?_⟩
          obtain rfl := Option.some.inj hr'
          exact Bool.eq_false_iff.2 hcalm

/-- The walk takes the loop's turns. -/
theorem run_walk_hop (c : Calculator (StateM σ)) (p : Position σ) :
    (c.walk p.visited p.penalty p.next).run p.world =
      match c.hop p with
      | .inl answer => answer
      | .inr q => (c.walk q.visited q.penalty q.next).run q.world := by
  obtain ⟨visited, penalty, next, world⟩ := p
  rcases next with _ | id
  · rw [walk]; rfl
  · unfold hop
    dsimp only
    rw [walk]
    by_cases hseen : id ∈ visited
    · rw [if_pos hseen, if_pos hseen]; rfl
    · rw [if_neg hseen, if_neg hseen, run_bind]
      rcases (c.fetch id).run world with ⟨_ | r, w⟩
      · rfl
      · dsimp only
        by_cases hflap : c.isFlapping r = true
        · rw [if_pos hflap, if_pos hflap, run_bind]
          rcases (c.settings.backoff penalty).run w with ⟨next, w'⟩
          dsimp only
          split <;> rfl
        · rw [if_neg hflap, if_neg hflap]; rfl

/-- The loop ends, from every position. -/
theorem exists_turns (c : Calculator (StateM σ)) (p : Position σ) :
    ∃ positions answer, c.Turns p positions answer := by
  -- what a rising delay leaves below the largest one goes down at each turn
  induction hroom : UInt64.size - p.penalty.toNat using Nat.strong_induction_on generalizing p with
  | _ room ih =>
    rcases hp : c.hop p with answer | q
    · exact ⟨[p], answer, .ends hp⟩
    · obtain ⟨-, -, -, -, -, -, -, -, hlt, -, -⟩ := hop_eq_inr hp
      have hrise := UInt64.lt_iff_toNat_lt.1 hlt
      have hsize := q.penalty.toNat_lt_size
      obtain ⟨rest, answer, hrest⟩ := ih (UInt64.size - q.penalty.toNat) (by omega) q rfl
      exact ⟨p :: rest, answer, .goesOn hp hrest⟩

/-- The walk answers what its loop ends with. -/
theorem Turns.run_walk (h : c.Turns p positions answer) :
    (c.walk p.visited p.penalty p.next).run p.world = answer := by
  induction h with
  | ends hp => rw [run_walk_hop, hp]
  | goesOn hp _ ih => rw [run_walk_hop, hp]; exact ih

/-! ## What the positions show -/

/-- The positions of a loop begin with the first. -/
theorem Turns.exists_eq_cons (h : c.Turns p positions answer) :
    ∃ rest, positions = p :: rest := by
  cases h with
  | ends => exact ⟨[], rfl⟩
  | goesOn => exact ⟨_, rfl⟩

/-- From turn to turn the delay rises. -/
theorem Turns.penalties (h : c.Turns p positions answer) :
    (positions.map Position.penalty).Pairwise (· < ·) := by
  induction h with
  | ends => exact List.pairwise_singleton _ _
  | goesOn hp hrest ih =>
    have hlt := penalty_lt_of_hop_eq_inr hp
    obtain ⟨rest, rfl⟩ := hrest.exists_eq_cons
    rw [List.map_cons, List.map_cons, List.pairwise_cons]
    refine ⟨fun penalty hmem => ?_, ih⟩
    -- the next delay is greater, and all later ones exceed that
    rcases List.mem_cons.1 hmem with rfl | hmem
    · exact hlt
    · exact UInt64.lt_trans hlt ((List.pairwise_cons.1 ih).1 penalty hmem)

/-- A loop has no more turns than there are delays from its first one up. -/
theorem Turns.length_le (h : c.Turns p positions answer) :
    p.penalty.toNat + positions.length ≤ UInt64.size := by
  induction h with
  | ends => exact UInt64.toNat_lt_size _
  | goesOn hp _ ih =>
    have hrise := UInt64.lt_iff_toNat_lt.1 (penalty_lt_of_hop_eq_inr hp)
    rw [List.length_cons]
    omega

/-- A loop asks for no name twice, and for none that it has seen. -/
theorem Turns.nodup_asked (h : c.Turns p positions answer) :
    (positions.flatMap Position.asked).Nodup ∧
      ∀ id ∈ positions.flatMap Position.asked, id ∉ p.visited := by
  induction h with
  | ends =>
    rw [List.flatMap_singleton]
    exact ⟨Position.nodup_asked _, fun id => Position.not_mem_visited_of_mem_asked⟩
  | goesOn hp _ ih =>
    obtain ⟨id, -, -, hid, hnew, -, -, -, -, hvisited, -⟩ := hop_eq_inr hp
    obtain ⟨hnodup, hlater⟩ := ih
    rw [hvisited] at hlater
    rw [List.flatMap_cons, Position.asked_of_new hid hnew, List.singleton_append]
    -- what is asked for now counts as seen in all later turns
    refine ⟨List.nodup_cons.2 ⟨fun hmem => hlater id hmem (by simp), hnodup⟩, ?_⟩
    refine List.forall_mem_cons.2 ⟨hnew, fun later hmem hseen => ?_⟩
    exact hlater later hmem (List.mem_cons_of_mem id hseen)

/-- All names that a loop asks for are found, but for the last. -/
theorem Turns.asked_found (h : c.Turns p positions answer) :
    ∃ found last, positions.flatMap Position.asked = found ++ last ∧ last.length ≤ 1 ∧
      ∀ id ∈ found, ∃ w r, ((c.fetch id).run w).1 = some r := by
  induction h with
  | @ends p _ hp =>
    exact ⟨[], p.asked, List.flatMap_singleton _ _, p.length_asked_le, by simp⟩
  | @goesOn p _ _ _ hp _ ih =>
    obtain ⟨id, r, w, hid, hnew, hfetch, -⟩ := hop_eq_inr hp
    obtain ⟨found, last, hasked, hlast, hfound⟩ := ih
    refine ⟨id :: found, last, ?_, hlast, ?_⟩
    · rw [List.flatMap_cons, Position.asked_of_new hid hnew, hasked]
      rfl
    · exact List.forall_mem_cons.2 ⟨⟨p.world, r, congrArg Prod.fst hfetch⟩, hfound⟩

/-- A loop asks for one name a turn at most. -/
theorem length_flatMap_asked_le (positions : List (Position σ)) :
    (positions.flatMap Position.asked).length ≤ positions.length := by
  induction positions with
  | nil => exact Nat.le_refl 0
  | cons p rest ih =>
    have hp := p.length_asked_le
    rw [List.flatMap_cons, List.length_append, List.length_cons]
    omega

/-! ## The log of a watched walk -/

section Log

variable {p q : Position (Observed σ)} {positions : List (Position (Observed σ))}
  {answer : UInt64 × Observed σ}

/-- A turn that ends the loop has noted the name it asks for, and the delay if the strategy was
called. -/
theorem log_of_hop_eq_inl (h : c.observed.hop p = .inl answer) :
    answer.2.lookups = p.world.lookups ++ p.asked ∧
      answer.2.inputs <+: p.world.inputs ++ [p.penalty] := by
  have hprefix : p.world.inputs <+: p.world.inputs ++ [p.penalty] := List.prefix_append _ _
  rcases hop_eq_inl h with ⟨hasked, rfl⟩ | ⟨id, found, w, hid, hnew, hfetch, hend⟩
  · exact ⟨by rw [hasked, List.append_nil], hprefix⟩
  · rw [Position.asked_of_new hid hnew]
    rw [run_fetch_observed] at hfetch
    obtain rfl := congrArg Prod.snd hfetch
    rcases hend with ⟨rfl, -⟩ | ⟨r, -, -, hbackoff, -⟩
    · exact ⟨rfl, hprefix⟩
    · rw [run_backoff_observed] at hbackoff
      rw [← congrArg Prod.snd hbackoff]
      exact ⟨rfl, List.prefix_rfl⟩

/-- A turn that goes on has noted the name it asks for and the delay. -/
theorem log_of_hop_eq_inr (h : c.observed.hop p = .inr q) :
    q.world.lookups = p.world.lookups ++ p.asked ∧
      q.world.inputs = p.world.inputs ++ [p.penalty] := by
  obtain ⟨id, r, w, hid, hnew, hfetch, -, hbackoff, -⟩ := hop_eq_inr h
  rw [run_fetch_observed] at hfetch
  rw [run_backoff_observed] at hbackoff
  obtain rfl := congrArg Prod.snd hfetch
  have hworld : q.world = _ := (congrArg Prod.snd hbackoff).symm
  rw [Position.asked_of_new hid hnew, hworld]
  exact ⟨rfl, rfl⟩

/-- The log of a watched loop grows by the names it asks for, and the strategy is given the delays,
up to the last, which may just be the answer. -/
theorem Turns.log (h : c.observed.Turns p positions answer) :
    answer.2.lookups = p.world.lookups ++ positions.flatMap Position.asked ∧
      answer.2.inputs <+: p.world.inputs ++ positions.map Position.penalty := by
  induction h with
  | ends hp =>
    rw [List.flatMap_singleton]
    exact log_of_hop_eq_inl hp
  | goesOn hp _ ih =>
    obtain ⟨hlookups, hinputs⟩ := log_of_hop_eq_inr hp
    rw [hlookups, hinputs, List.append_assoc, List.append_assoc] at ih
    exact ih

end Log

/-- Whatever the store and the strategy answer, the walk ends.

* It answers, and leaves the world, as the watched walk does, and that one goes from position to
  position of a finite list.
* The delays of the positions start at zero and rise strictly; the strategy is given them in order.
* The names looked up are those that the positions ask for, and none is looked up twice.
* There are at most `2 ^ 64` turns, and no more look-ups.
* If only names of a store are ever found, there is at most one look-up more than it has records. -/
theorem penaltyMs_ends (c : Calculator (StateM σ)) (t : TaskRecord) (w : σ) :
    let run := (c.observed.penaltyMs t).run (.start w)
    (c.penaltyMs t).run w = (run.1, run.2.world) ∧
      ∃ positions, c.observed.Turns (.start t (.start w)) positions run ∧
        (∃ later, positions.map Position.penalty = 0 :: later) ∧
        (positions.map Position.penalty).Pairwise (· < ·) ∧
        run.2.inputs <+: positions.map Position.penalty ∧
        run.2.lookups = positions.flatMap Position.asked ∧
        run.2.lookups.Nodup ∧
        run.2.lookups.length ≤ positions.length ∧
        positions.length ≤ 2 ^ 64 ∧
        ∀ store : TaskStore,
          (∀ id v r, ((c.fetch id).run v).1 = some r → ∃ r', store.fetch id = some r') →
            run.2.lookups.length ≤ store.size + 1 := by
  intro run
  refine ⟨run_observed c t (.start w), ?_⟩
  obtain ⟨positions, answer, hturns⟩ := c.observed.exists_turns (.start t (.start w))
  obtain rfl : run = answer := hturns.run_walk
  obtain ⟨rest, hrest⟩ := hturns.exists_eq_cons
  obtain ⟨hlookups, hinputs⟩ := hturns.log
  have hnodup := hturns.nodup_asked.1
  change run.2.lookups = positions.flatMap Position.asked at hlookups
  refine ⟨positions, hturns, ⟨rest.map Position.penalty, by rw [hrest]; rfl⟩, hturns.penalties,
    hinputs, hlookups, hlookups ▸ hnodup, hlookups ▸ length_flatMap_asked_le positions, ?_, ?_⟩
  · exact (Nat.le_add_left _ _).trans hturns.length_le
  · intro store hstore
    obtain ⟨found, last, hasked, hlast, hfound⟩ := hturns.asked_found
    rw [hasked] at hlookups hnodup
    have hle : found.length ≤ store.size := by
      refine TaskStore.length_le_size hnodup.of_append_left fun id hmem => ?_
      obtain ⟨o, r, hr⟩ := hfound id hmem
      obtain ⟨r', hr'⟩ := hstore id o.world r hr
      exact Option.isSome_of_eq_some hr'
    rw [hlookups, List.length_append]
    omega

/-- The bound on look-ups is reached: of three flapping ancestors two are stored, and the walk looks
up all three. -/
theorem penaltyMs_ends_twoFlappy :
    let s : Settings (UInt64 → UInt64) := Settings.byDefault.map TruncatedBackoff.next
    let store : TaskStore := .ofList (Sample.threeFlappy.take 2)
    let c : Calculator (StateM Unit) := ofSnapshot store.fetch s.stateless
    let t : TaskRecord := (Sample.task ⟨"t", by decide⟩ .pending).withAncestor ⟨"a", by decide⟩
    let run := (c.observed.penaltyMs t).run (.start ())
    (∀ id v r, ((c.fetch id).run v).1 = some r → ∃ r', store.fetch id = some r') ∧
      run.2.lookups.length ≤ store.size + 1 ∧ run.2.lookups.length = 3 ∧ store.size = 2 := by
  intro s store c t run
  have hstore : ∀ id v r, ((c.fetch id).run v).1 = some r → ∃ r', store.fetch id = some r' :=
    fun _ _ r hr => ⟨r, hr⟩
  obtain ⟨-, -, -, -, -, -, -, -, -, -, hlength⟩ := penaltyMs_ends c t ()
  exact ⟨hstore, hlength store hstore, by decide +kernel, by decide +kernel⟩

end Calculator

end Scheduling
