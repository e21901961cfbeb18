import Mathlib.Data.List.Pairwise
import Mathlib.Order.Bounds.Basic
import Scheduling.Proofs.Penalty.Configured
import Scheduling.Sample

/-!
# What the check of a record finds

`TaskRecord.validate` looks at each event together with the one before it, and after that at the
state of the last. By exact positions, an event stalls if it is not later than the one before it
(`Stalls`). The check reports the first that does (`checkOrder_eq_error_iff`), and if none does, all
events are later than all before them (`ascending_iff_forall_not_stalls`), so that looking at
neighbours is enough. Only then are the states compared.

A record that passes has lived for at least one millisecond between any two of its events
(`add_length_le_getLast`), as far as 64 bits hold a lifetime.
-/

namespace Scheduling

/-- An event is earlier than another. -/
def TaskEvent.IsBefore (a b : TaskEvent) : Prop := a.timestampMs < b.timestampMs

instance : Trans TaskEvent.IsBefore TaskEvent.IsBefore TaskEvent.IsBefore := ⟨Int64.lt_trans⟩

namespace TaskRecord

variable {events : List TaskEvent} {first second : TaskEvent} {i start : ℕ}
  {previous current : Int64} {r : TaskRecord}

/-- Every event is later than all before it. -/
def Ascending (events : List TaskEvent) : Prop :=
  ∀ i j, (hij : i < j) → (hj : j < events.length) → events[i].timestampMs < events[j].timestampMs

/-- The event at a position has the time `current`, the one before it has the time `previous`, and
it is not later. -/
def Stalls (events : List TaskEvent) (i : ℕ) (previous current : Int64) : Prop :=
  1 ≤ i ∧ events[i - 1]?.map TaskEvent.timestampMs = some previous ∧
    events[i]?.map TaskEvent.timestampMs = some current ∧ current ≤ previous

/-- The event at a position stalls, and none before it does. -/
def StallsFirst (events : List TaskEvent) (i : ℕ) (previous current : Int64) : Prop :=
  Stalls events i previous current ∧ ∀ j < i, ∀ p c, ¬ Stalls events j p c

/-! ## Neighbours -/

/-- The second event is the first that can stall. -/
theorem stalls_one_iff {rest : List TaskEvent} :
    Stalls (first :: second :: rest) 1 previous current ↔
      first.timestampMs = previous ∧ second.timestampMs = current ∧ current ≤ previous := by
  simp [Stalls]

/-- Whether a later event stalls does not depend on the first. -/
theorem stalls_cons_iff :
    Stalls (first :: events) (i + 2) previous current ↔ Stalls events (i + 1) previous current := by
  simp [Stalls]

/-- A single event does not stall. -/
theorem not_stalls_of_length_le (h : events.length ≤ 1) : ¬ Stalls events i previous current := by
  rintro ⟨hi, -, hcurrent, -⟩
  rw [List.getElem?_eq_none (by omega)] at hcurrent
  cases hcurrent

/-- The second event is the first that stalls if it does. -/
theorem stallsFirst_iff_of_le {rest : List TaskEvent}
    (h : second.timestampMs ≤ first.timestampMs) :
    StallsFirst (first :: second :: rest) i previous current ↔
      i = 1 ∧ first.timestampMs = previous ∧ second.timestampMs = current := by
  have hone : Stalls (first :: second :: rest) 1 first.timestampMs second.timestampMs :=
    stalls_one_iff.2 ⟨rfl, rfl, h⟩
  constructor
  · rintro ⟨hstalls, hfirst⟩
    obtain rfl : i = 1 := by
      have hpos := hstalls.1
      by_contra hne
      exact hfirst 1 (by omega) _ _ hone
    obtain ⟨hprevious, hcurrent, -⟩ := stalls_one_iff.1 hstalls
    exact ⟨rfl, hprevious, hcurrent⟩
  · rintro ⟨rfl, rfl, rfl⟩
    refine ⟨hone, fun j hj p c hstalls => ?_⟩
    have := hstalls.1
    omega

/-- If the second event does not stall, the first that does is found without the first event. -/
theorem stallsFirst_iff_of_not_le {rest : List TaskEvent}
    (h : ¬ second.timestampMs ≤ first.timestampMs) :
    StallsFirst (first :: second :: rest) (i + 1) previous current ↔
      StallsFirst (second :: rest) i previous current := by
  have hshift : ∀ j p c, Stalls (first :: second :: rest) (j + 1) p c ↔
      Stalls (second :: rest) j p c := by
    rintro (_ | j) p c
    · refine iff_of_false (fun hstalls => ?_) fun hstalls => absurd hstalls.1 (by simp)
      obtain ⟨rfl, rfl, hle⟩ := stalls_one_iff.1 hstalls
      exact h hle
    · exact stalls_cons_iff
  unfold StallsFirst
  rw [hshift]
  refine and_congr_right fun _ => ⟨fun hfirst j hj p c => ?_, fun hfirst j hj p c => ?_⟩
  · exact (hshift j p c).not.1 (hfirst (j + 1) (by omega) p c)
  · cases j with
    | zero => exact fun hstalls => absurd hstalls.1 (by simp)
    | succ j => exact (hshift j p c).not.2 (hfirst j (by omega) p c)

/-- The check of the order reports the first event that stalls. -/
theorem checkOrder_eq_error_iff {e : HistoryError} :
    checkOrder (start + 1) events = .error e ↔ ∃ i previous current,
      StallsFirst events i previous current ∧ e = .outOfOrder (start + i) previous current := by
  induction events generalizing start with
  | nil =>
    refine iff_of_false (by simp [checkOrder]) ?_
    rintro ⟨i, p, c, hstalls, -⟩
    exact not_stalls_of_length_le (by simp) hstalls.1
  | cons first rest ih =>
    cases rest with
    | nil =>
      refine iff_of_false (by simp [checkOrder]) ?_
      rintro ⟨i, p, c, hstalls, -⟩
      exact not_stalls_of_length_le (by simp) hstalls.1
    | cons second rest =>
      rw [checkOrder]
      by_cases hle : second.timestampMs ≤ first.timestampMs
      · rw [if_pos hle]
        simp [stallsFirst_iff_of_le hle, eq_comm]
      · rw [if_neg hle, ih]
        constructor
        · rintro ⟨i, p, c, hstalls, rfl⟩
          refine ⟨i + 1, p, c, (stallsFirst_iff_of_not_le hle).2 hstalls, ?_⟩
          rw [Nat.add_assoc, Nat.add_comm 1 i]
        · rintro ⟨i, p, c, hstalls, rfl⟩
          obtain ⟨i, rfl⟩ : ∃ j, i = j + 1 := ⟨i - 1, by have := hstalls.1.1; omega⟩
          refine ⟨i, p, c, (stallsFirst_iff_of_not_le hle).1 hstalls, ?_⟩
          rw [Nat.add_assoc, Nat.add_comm 1 i]

/-- If some event stalls, one is the first that does. -/
theorem exists_stallsFirst (h : Stalls events i previous current) :
    ∃ i previous current, StallsFirst events i previous current := by
  classical
  have hsome : ∃ i, ∃ p c, Stalls events i p c := ⟨i, previous, current, h⟩
  obtain ⟨p, c, hfirst⟩ := Nat.find_spec hsome
  exact ⟨Nat.find hsome, p, c, hfirst, fun j hj p c hstalls => Nat.find_min hsome hj ⟨p, c, hstalls⟩⟩

/-! ## All pairs -/

/-- The events are ascending as a list. -/
theorem ascending_iff_pairwise : Ascending events ↔ events.Pairwise TaskEvent.IsBefore := by
  rw [List.pairwise_iff_getElem]
  constructor
  · intro h i j hi hj hij
    exact h i j hij hj
  · intro h i j hij hj
    exact h i j (hij.trans hj) hj hij

/-- Some event stalls where a neighbour is not before it. -/
theorem exists_stalls_succ_iff :
    (∃ previous current, Stalls events (i + 1) previous current) ↔
      ∃ h : i + 1 < events.length, ¬ events[i].IsBefore events[i + 1] := by
  constructor
  · rintro ⟨p, c, -, hp, hc, hle⟩
    obtain ⟨earlier, hearlier, rfl⟩ := Option.map_eq_some_iff.1 hp
    obtain ⟨later, hlater, rfl⟩ := Option.map_eq_some_iff.1 hc
    obtain ⟨h, rfl⟩ := List.getElem?_eq_some_iff.1 hlater
    obtain ⟨_, rfl⟩ := List.getElem?_eq_some_iff.1 hearlier
    exact ⟨h, Int64.not_lt.2 hle⟩
  · rintro ⟨h, hnot⟩
    have hlater : events[i + 1]? = some events[i + 1] := List.getElem?_eq_getElem h
    have hearlier : events[i + 1 - 1]? = some events[i] := List.getElem?_eq_getElem (by omega)
    exact ⟨_, _, by omega, congrArg _ hearlier, congrArg _ hlater, Int64.not_lt.1 hnot⟩

/-- If no event stalls, then each is later than all before it, not just than the one before it. -/
theorem ascending_iff_forall_not_stalls :
    Ascending events ↔ ∀ i p c, ¬ Stalls events i p c := by
  rw [ascending_iff_pairwise, ← List.isChain_iff_pairwise, List.isChain_iff_getElem]
  constructor
  · intro h i p c hstalls
    obtain ⟨i, rfl⟩ : ∃ j, i = j + 1 := ⟨i - 1, by have := hstalls.1; omega⟩
    obtain ⟨hlength, hnot⟩ := exists_stalls_succ_iff.1 ⟨p, c, hstalls⟩
    exact hnot (h i hlength)
  · intro h i hi
    by_contra hnot
    obtain ⟨p, c, hstalls⟩ := exists_stalls_succ_iff.2 ⟨hi, hnot⟩
    exact h (i + 1) p c hstalls

/-! ## The check of a record -/

/-- A record passes the check of the order if its events are ascending. -/
theorem checkOrder_eq_ok_iff : checkOrder 1 events = .ok () ↔ Ascending events := by
  rw [ascending_iff_forall_not_stalls]
  rcases hcheck : checkOrder 1 events with e | u
  · obtain ⟨i, p, c, hstalls, -⟩ := checkOrder_eq_error_iff.1 hcheck
    exact iff_of_false (by simp) fun h => h i p c hstalls.1
  · refine iff_of_true rfl fun i p c hstalls => ?_
    obtain ⟨i, p, c, hfirst⟩ := exists_stallsFirst hstalls
    cases hcheck.symm.trans (checkOrder_eq_error_iff.2 ⟨i, p, c, hfirst, rfl⟩)

/-- The states are compared when the order has been checked. -/
theorem validate_eq (r : TaskRecord) :
    r.validate =
      match checkOrder 1 r.events with
      | .error e => .error e
      | .ok _ =>
        match r.events.getLast? with
        | some latest =>
          if latest.status = r.status then .ok ()
          else .error (.statusMismatch r.status latest.status)
        | none => .ok () := by
  unfold validate latestEvent
  rcases checkOrder 1 r.events with e | u <;> rfl

/-- A record passes if its events are ascending and the last has the record's state. -/
theorem validate_eq_ok_iff :
    r.validate = .ok () ↔
      Ascending r.events ∧ ∀ latest ∈ r.events.getLast?, latest.status = r.status := by
  rw [validate_eq, ← checkOrder_eq_ok_iff]
  rcases checkOrder 1 r.events with e | u
  · simp
  · rcases r.events.getLast? with _ | latest <;> simp

/-- An error of the order is that of the first event that stalls. -/
theorem validate_eq_outOfOrder_iff :
    r.validate = .error (.outOfOrder i previous current) ↔
      StallsFirst r.events i previous current := by
  have hcheck : checkOrder 1 r.events = .error (.outOfOrder i previous current) ↔
      StallsFirst r.events i previous current := by
    rw [show 1 = 0 + 1 from rfl, checkOrder_eq_error_iff]
    simp
  rw [validate_eq, ← hcheck]
  rcases checkOrder 1 r.events with e | u
  · simp
  · rcases r.events.getLast? with _ | latest
    · simp
    · by_cases h : latest.status = r.status <;> simp [h]

/-- An error of the state says that the events are ascending, and the last has another. -/
theorem validate_eq_statusMismatch_iff {status latest : Status} :
    r.validate = .error (.statusMismatch status latest) ↔
      Ascending r.events ∧ status = r.status ∧
        ∃ e, r.events.getLast? = some e ∧ latest = e.status ∧ e.status ≠ r.status := by
  rw [validate_eq, ← checkOrder_eq_ok_iff]
  rcases hcheck : checkOrder 1 r.events with e | u
  · -- the check of the order finds no other errors
    obtain ⟨i, p, c, -, rfl⟩ := checkOrder_eq_error_iff.1 hcheck
    simp
  · rcases r.events.getLast? with _ | last
    · simp
    · by_cases h : last.status = r.status
      · simp [h]
      · simp [h, eq_comm]

/-! ## The life of a record that passes -/

/-- Ascending events are a millisecond apart at least. -/
theorem add_length_le_getLast {rest : List TaskEvent}
    (h : (first :: rest).Pairwise TaskEvent.IsBefore) :
    first.timestampMs.toInt + rest.length ≤
      ((first :: rest).getLast (List.cons_ne_nil first rest)).timestampMs.toInt := by
  induction rest generalizing first with
  | nil => simp
  | cons second rest ih =>
    obtain ⟨hfirst, hrest⟩ := List.pairwise_cons.1 h
    have hstep := Int64.lt_iff_toInt_lt.1 (hfirst second (by simp))
    have hlast := ih hrest
    rw [List.getLast_cons (List.cons_ne_nil second rest), List.length_cons]
    push_cast
    omega

/-- Ascending events are between the first and the last. -/
theorem head_le_and_le_getLast (h : events ≠ []) (hasc : events.Pairwise TaskEvent.IsBefore) :
    ∀ e ∈ events, (events.head h).timestampMs ≤ e.timestampMs ∧
      e.timestampMs ≤ (events.getLast h).timestampMs := by
  have hle : events.Pairwise fun a b => a.timestampMs ≤ b.timestampMs :=
    hasc.imp fun hlt => Int64.le_of_lt hlt
  intro e he
  exact ⟨hle.rel_head_of_rel_head_head he (Int64.le_refl _),
    hle.rel_getLast_of_rel_getLast_getLast he (Int64.le_refl _)⟩

/-- A time that is not below zero, cut to signed 64 bits. -/
theorem toInt_ofIntClamp_of_nonneg {z : ℤ} (h : 0 ≤ z) :
    (Int64.ofIntClamp z).toInt = min z (2 ^ 63 - 1) := by
  have hmin : Int64.minValue.toInt = -2 ^ 63 := by decide
  have hmax : Int64.maxValue.toInt = 2 ^ 63 - 1 := by decide
  unfold Int64.ofIntClamp
  rw [dif_pos (by omega)]
  split
  · rw [Int64.toInt_ofIntLE]
    omega
  · omega

/-- A record with ascending events has a lifetime of a millisecond at least between any two of them,
as far as 64 bits hold it, so it is zero for a single event alone. -/
theorem exists_lifetimeMs (h : r.events ≠ []) (hasc : r.events.Pairwise TaskEvent.IsBefore) :
    ∃ lifetime, r.lifetimeMs = some lifetime ∧
      min (r.events.length - 1 : ℤ) (2 ^ 63 - 1) ≤ lifetime.toInt ∧
      (lifetime = 0 ↔ r.events.length = 1) := by
  rw [lifetimeMs_of_ne_nil h]
  generalize r.events = events at h hasc
  obtain ⟨first, rest, rfl⟩ := List.exists_cons_of_ne_nil h
  have hspan := add_length_le_getLast hasc
  have hone : rest.length = 0 →
      ((first :: rest).getLast h).timestampMs.toInt = first.timestampMs.toInt := fun hlength => by
    obtain rfl := List.length_eq_zero_iff.1 hlength
    rfl
  refine ⟨_, rfl, ?_, ?_⟩
  · rw [List.head_cons, toInt_ofIntClamp_of_nonneg (by omega), List.length_cons]
    push_cast
    omega
  · rw [List.head_cons, ← Int64.toInt_inj, toInt_ofIntClamp_of_nonneg (by omega),
      Int64.toInt_zero, List.length_cons]
    omega

/-- What the check of a record finds.

* A record passes exactly if each event is later than all before it and the last event, if there is
  one, has the record's state.
* An error of the order is that of the first event that is not later than the one before it, with
  the times of the two; there is one exactly if some event is not.
* An error of the state is found exactly if the events are ascending and the last one has another
  state than the record.
* If a record with events passes, their times are distinct and none is outside of the first and the
  last; its lifetime is at least the number of events after the first, as far as 64 bits hold it,
  and it is zero only for a single event. -/
theorem validate_exact (r : TaskRecord) :
    (r.validate = .ok () ↔
        Ascending r.events ∧ ∀ latest ∈ r.events.getLast?, latest.status = r.status) ∧
      (∀ i previous current, r.validate = .error (.outOfOrder i previous current) ↔
        StallsFirst r.events i previous current) ∧
      ((∃ i previous current, r.validate = .error (.outOfOrder i previous current)) ↔
        ∃ i previous current, Stalls r.events i previous current) ∧
      (∀ status latest, r.validate = .error (.statusMismatch status latest) ↔
        Ascending r.events ∧ status = r.status ∧
          ∃ e, r.events.getLast? = some e ∧ latest = e.status ∧ e.status ≠ r.status) ∧
      (∀ h : r.events ≠ [], r.validate = .ok () →
        (r.events.map TaskEvent.timestampMs).Nodup ∧
        (∀ e ∈ r.events, (r.events.head h).timestampMs ≤ e.timestampMs ∧
          e.timestampMs ≤ (r.events.getLast h).timestampMs) ∧
        ∃ lifetime, r.lifetimeMs = some lifetime ∧
          min (r.events.length - 1 : ℤ) (2 ^ 63 - 1) ≤ lifetime.toInt ∧
          (lifetime = 0 ↔ r.events.length = 1)) := by
  refine ⟨validate_eq_ok_iff, fun i p c => validate_eq_outOfOrder_iff, ?_,
    fun status latest => validate_eq_statusMismatch_iff, fun h hok => ?_⟩
  · simp only [validate_eq_outOfOrder_iff]
    constructor
    · rintro ⟨i, p, c, hfirst⟩
      exact ⟨i, p, c, hfirst.1⟩
    · rintro ⟨i, p, c, hstalls⟩
      exact exists_stallsFirst hstalls
  · have hasc := ascending_iff_pairwise.1 (validate_eq_ok_iff.1 hok).1
    have hdistinct : (r.events.map TaskEvent.timestampMs).Nodup :=
      List.pairwise_map.2 (hasc.imp fun hlt => Int64.ne_of_lt hlt)
    exact ⟨hdistinct, head_le_and_le_getLast h hasc, exists_lifetimeMs h hasc⟩

/-- A task that finished 300 ms after it was created has four events, and passes. -/
theorem validate_exact_flappyTask :
    let r := Sample.flappyTask ⟨"a", by decide⟩
    r.events ≠ [] ∧ r.validate = .ok () ∧ (r.events.map TaskEvent.timestampMs).Nodup ∧
      ∃ lifetime, r.lifetimeMs = some lifetime ∧ 3 ≤ lifetime.toInt ∧ lifetime ≠ 0 := by
  intro r
  have hne : r.events ≠ [] := List.cons_ne_nil _ _
  have hok : r.validate = .ok () := by decide
  obtain ⟨-, -, -, -, hlife⟩ := validate_exact r
  obtain ⟨hdistinct, -, lifetime, hlifetime, hle, hzero⟩ := hlife hne hok
  exact ⟨hne, hok, hdistinct, lifetime, hlifetime, hle, fun h => absurd (hzero.1 h) (by decide)⟩

end TaskRecord

end Scheduling
