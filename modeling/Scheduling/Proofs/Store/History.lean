import Mathlib.Algebra.GroupWithZero.Nat
import Mathlib.Data.Finset.Card
import Mathlib.Data.List.Nodup
import Scheduling.Store.Basic

/-!
# Stores and their history

A store changes by calls that save some records or delete the records of some names, one after the
other. Its history is all that was saved and deleted, in order, whatever the calls were, and a
record is `Live` in a history if it is the last one saved under its name and the name has not been
deleted since. What a store shows then depends on its history alone (`reflects_after`).

The look-ups come first. One more entry changes what is live under its own name only
(`live_concat`), and changes each look-up in the same way (`fetch_enter`), so the look-ups find
what is live (`fetch_replay`). The other views show the records that the look-ups find: the list of
all records holds each of them once (`mem_toList`, `nodup_toList`), and those of a job are a part
of it.
-/

namespace Scheduling.TaskStore

/-- A change of a store, in one call. -/
inductive Change where
  /-- Some records are saved. -/
  | save (records : List TaskRecord)
  /-- The records of some names are deleted, where there are any. -/
  | delete (ids : List TaskId)

/-- The store after a change. -/
def change (s : TaskStore) : Change → TaskStore
  | .save records => s.saveAll records
  | .delete ids => s.deleteAll ids

/-- The store after some changes, one after the other. -/
def after (s : TaskStore) (changes : List Change) : TaskStore := changes.foldl change s

/-! ## Histories -/

/-- What happens under one name. -/
inductive Entry where
  /-- A record is saved under its name. -/
  | saved (record : TaskRecord)
  /-- The record of a name is deleted. -/
  | deleted (id : TaskId)

/-- The name that an entry is about. -/
def Entry.taskId : Entry → TaskId
  | .saved record => record.taskId
  | .deleted id => id

/-- The record that an entry leaves under its name. -/
def Entry.record? : Entry → Option TaskRecord
  | .saved record => some record
  | .deleted _ => none

/-- What happens in a change, in order. -/
def Change.entries : Change → List Entry
  | .save records => records.map .saved
  | .delete ids => ids.map .deleted

/-- The record is the last one saved under its name, and the name has not been deleted since. -/
def Live (history : List Entry) (record : TaskRecord) : Prop :=
  ∃ earlier later, history = earlier ++ .saved record :: later ∧
    ∀ entry ∈ later, entry.taskId ≠ record.taskId

/-- The store after one entry. -/
def enter (s : TaskStore) : Entry → TaskStore
  | .saved record => s.save record
  | .deleted id => s.delete id

/-- The store that a history leaves. -/
def replay (history : List Entry) : TaskStore := history.foldl enter empty

variable {s : TaskStore} {history : List Entry} {entry : Entry} {record : TaskRecord} {id : TaskId}

/-- An entry leaves a record under the name that it is about. -/
theorem Entry.taskId_of_record? (h : entry.record? = some record) :
    entry.taskId = record.taskId := by
  cases entry with
  | saved r =>
    obtain rfl : r = record := Option.some.inj h
    rfl
  | deleted id => cases h

/-- What is live after one more entry: what it leaves, and what was live under other names. -/
theorem live_concat : Live (history ++ [entry]) record ↔
    entry.record? = some record ∨ (entry.taskId ≠ record.taskId ∧ Live history record) := by
  constructor
  · rintro ⟨earlier, later, hsplit, hlater⟩
    -- the new entry either saves the record or comes after its last save
    rcases later.eq_nil_or_concat with rfl | ⟨rest, last, rfl⟩
    · obtain ⟨-, hentry⟩ := List.append_inj' hsplit rfl
      obtain rfl : entry = .saved record := List.singleton_inj.1 hentry
      exact .inl rfl
    · rw [List.concat_eq_append] at hsplit hlater
      rw [← List.cons_append, ← List.append_assoc] at hsplit
      obtain ⟨hhistory, hentry⟩ := List.append_inj' hsplit rfl
      obtain rfl : entry = last := List.singleton_inj.1 hentry
      exact .inr ⟨hlater entry (by simp), earlier, rest, hhistory,
        fun e he => hlater e (List.mem_append_left _ he)⟩
  · rintro (h | ⟨hne, earlier, later, rfl, hlater⟩)
    · cases entry with
      | saved r =>
        obtain rfl : r = record := Option.some.inj h
        exact ⟨history, [], rfl, fun e he => absurd he List.not_mem_nil⟩
      | deleted id => cases h
    · refine ⟨earlier, later ++ [entry], by simp, fun e he => ?_⟩
      rcases List.mem_append.1 he with he | he
      · exact hlater e he
      · exact List.mem_singleton.1 he ▸ hne

/-- An entry decides the look-up of its name, and changes no other. -/
theorem fetch_enter (s : TaskStore) (entry : Entry) (id : TaskId) :
    (s.enter entry).fetch id = if entry.taskId = id then entry.record? else s.fetch id := by
  cases entry with
  | saved r => exact fetch_save s r id
  | deleted id' => exact fetch_delete s id' id

/-- After a history, a look-up finds the live record of a name. -/
theorem fetch_replay :
    (replay history).fetch id = some record ↔ Live history record ∧ record.taskId = id := by
  induction history using List.reverseRecOn with
  | nil =>
    refine iff_of_false (by simp [replay]) ?_
    rintro ⟨⟨earlier, later, h, -⟩, -⟩
    simp at h
  | append_singleton history entry ih =>
    have hreplay : replay (history ++ [entry]) = (replay history).enter entry := List.foldl_append
    rw [hreplay, fetch_enter, live_concat]
    by_cases hid : entry.taskId = id
    · rw [if_pos hid]
      constructor
      · intro h
        exact ⟨.inl h, (Entry.taskId_of_record? h).symm.trans hid⟩
      · rintro ⟨h | ⟨hne, -⟩, hrecord⟩
        · exact h
        · exact absurd (hid.trans hrecord.symm) hne
    · rw [if_neg hid, ih]
      constructor
      · rintro ⟨hlive, hrecord⟩
        exact ⟨.inr ⟨fun h => hid (h.trans hrecord), hlive⟩, hrecord⟩
      · rintro ⟨h | ⟨-, hlive⟩, hrecord⟩
        · exact absurd ((Entry.taskId_of_record? h).trans hrecord) hid
        · exact ⟨hlive, hrecord⟩

/-- A change enters what happens in it. -/
theorem change_eq_foldl_enter (s : TaskStore) (c : Change) :
    s.change c = c.entries.foldl enter s := by
  cases c with
  | save records => rw [Change.entries, List.foldl_map]; rfl
  | delete ids => rw [Change.entries, List.foldl_map]; rfl

/-- Changes enter what happens in them, call after call. -/
theorem after_eq_foldl_enter (s : TaskStore) (changes : List Change) :
    s.after changes = (changes.flatMap Change.entries).foldl enter s := by
  induction changes generalizing s with
  | nil => rfl
  | cons c rest ih =>
    rw [List.flatMap_cons, List.foldl_append, ← change_eq_foldl_enter]
    exact ih (s.change c)

/-- The names that some changes are about. -/
def touched (changes : List Change) : List TaskId :=
  (changes.flatMap Change.entries).map Entry.taskId

/-- Entries leave every look-up of another name as it was. -/
theorem fetch_foldl_enter_of_not_mem (h : id ∉ history.map Entry.taskId) :
    (history.foldl enter s).fetch id = s.fetch id := by
  induction history generalizing s with
  | nil => rfl
  | cons entry rest ih =>
    rw [List.map_cons, List.mem_cons, not_or] at h
    rw [List.foldl_cons, ih h.2, fetch_enter, if_neg (Ne.symm h.1)]

/-- So do changes. -/
theorem fetch_after_of_not_mem {changes : List Change} (h : id ∉ touched changes) :
    (s.after changes).fetch id = s.fetch id := by
  rw [after_eq_foldl_enter]
  exact fetch_foldl_enter_of_not_mem h

/-! ## Views -/

/-- The records of a store, by name. -/
theorem map_taskId_toList (s : TaskStore) : s.toList.map TaskRecord.taskId = s.tasks.keys := by
  rw [toList, List.map_map, ← Std.TreeMap.map_fst_toList_eq_keys]
  refine List.map_congr_left fun filed hmem => ?_
  exact s.filed filed.1 filed.2 (Std.TreeMap.mem_toList_iff_getElem?_eq_some.1 hmem)

/-- No two records of a store have one name. -/
theorem nodup_map_taskId (s : TaskStore) : (s.toList.map TaskRecord.taskId).Nodup := by
  rw [map_taskId_toList]
  exact Std.TreeMap.nodup_keys

/-- A store lists no record twice. -/
theorem nodup_toList (s : TaskStore) : s.toList.Nodup := s.nodup_map_taskId.of_map

/-- A store lists the records that look-ups find. -/
theorem mem_toList : record ∈ s.toList ↔ s.fetch record.taskId = some record := by
  simp only [toList, List.mem_map, Prod.exists, exists_eq_right,
    Std.TreeMap.mem_toList_iff_getElem?_eq_some]
  constructor
  · rintro ⟨id, h⟩
    exact s.filed id record h ▸ h
  · intro h
    exact ⟨record.taskId, h⟩

/-- The size is the number of records listed. -/
theorem length_toList (s : TaskStore) : s.toList.length = s.size := by
  rw [toList, List.length_map, Std.TreeMap.length_toList, size]

/-- The records of a job are those listed that belong to it. -/
theorem mem_ofJob {job : JobKey} : record ∈ s.ofJob job ↔ record ∈ s.toList ∧ record.job = job := by
  simp [ofJob]

/-- Job by job, a store lists the records of the jobs, and none of them twice. -/
theorem nodup_flatMap_ofJob {jobs : List JobKey} (hjobs : jobs.Nodup) :
    (jobs.flatMap s.ofJob).Nodup := by
  refine List.nodup_flatMap.2 ⟨fun job _ => s.nodup_toList.filter _, ?_⟩
  -- a record belongs to one job only
  refine hjobs.imp fun hne record hfirst hsecond => hne ?_
  exact (mem_ofJob.1 hfirst).2.symm.trans (mem_ofJob.1 hsecond).2

/-- Job by job, over all jobs that there are, a store lists its records. -/
theorem flatMap_ofJob_perm {jobs : List JobKey} (hjobs : jobs.Nodup)
    (hall : ∀ record ∈ s.toList, record.job ∈ jobs) : (jobs.flatMap s.ofJob).Perm s.toList := by
  refine (List.perm_ext_iff_of_nodup (nodup_flatMap_ofJob hjobs) s.nodup_toList).2 fun record => ?_
  simp only [List.mem_flatMap, mem_ofJob]
  constructor
  · rintro ⟨job, -, hmem, -⟩
    exact hmem
  · intro hmem
    exact ⟨record.job, hall record hmem, hmem, rfl⟩

/-- A store does not shrink while records are saved. -/
theorem size_le_size_saveAll (s : TaskStore) (records : List TaskRecord) :
    s.size ≤ (s.saveAll records).size := by
  induction records generalizing s with
  | nil => exact Nat.le_refl s.size
  | cons record rest ih =>
    have hsave : s.size ≤ (s.save record).size := Std.TreeMap.size_le_size_insert
    exact hsave.trans (ih (s.save record))

/-! ## Stores after changes -/

/-- What a store shows is what is live in a history. -/
structure Reflects (s : TaskStore) (history : List Entry) : Prop where
  /-- A look-up finds the live record of a name, which has that name, and finds nothing if there is
  none. -/
  fetch_iff : ∀ id record, s.fetch id = some record ↔ Live history record ∧ record.taskId = id
  /-- The size is the number of names with a live record. -/
  size_eq : ∃ ids : Finset TaskId,
    (∀ id, id ∈ ids ↔ ∃ record, Live history record ∧ record.taskId = id) ∧ s.size = ids.card
  /-- A store is empty if its size is zero. -/
  isEmpty_iff : s.isEmpty = true ↔ s.size = 0
  /-- The records of a job are the live ones that belong to it, -/
  ofJob_iff : ∀ job record, record ∈ s.ofJob job ↔ Live history record ∧ record.config.job = job
  /-- each of them once. -/
  ofJob_nodup : ∀ job, (s.ofJob job).Nodup
  /-- Over all jobs of live records, each taken once, the records of the jobs are the live records,
  each once, and their numbers add up to the size. -/
  jobs_partition : ∀ jobs : List JobKey, jobs.Nodup →
    (∀ record, Live history record → record.config.job ∈ jobs) →
      (jobs.flatMap s.ofJob).Nodup ∧
        (∀ record, record ∈ jobs.flatMap s.ofJob ↔ Live history record) ∧
        (jobs.map fun job => (s.ofJob job).length).sum = s.size
  /-- While records are saved, the size never goes down. -/
  size_saveAll_le : ∀ first rest, (s.saveAll first).size ≤ (s.saveAll (first ++ rest)).size

/-- The store that a history leaves reflects it. -/
theorem reflects_replay (history : List Entry) : Reflects (replay history) history := by
  -- a record is live under its own name only
  have hlive : ∀ record, record ∈ (replay history).toList ↔ Live history record := fun record => by
    rw [mem_toList, fetch_replay]
    exact and_iff_left rfl
  refine ⟨fun _ _ => fetch_replay, ?_, ?_, fun job record => ?_, fun job => ?_, ?_,
    fun first rest => ?_⟩
  · refine ⟨((replay history).toList.map TaskRecord.taskId).toFinset, fun id => ?_, ?_⟩
    · simp only [List.mem_toFinset, List.mem_map, hlive]
    · rw [List.toFinset_card_of_nodup (nodup_map_taskId _), List.length_map, length_toList]
  · rw [isEmpty, size, Std.TreeMap.isEmpty_eq_size_eq_zero, beq_iff_eq]
  · rw [mem_ofJob, hlive]
    rfl
  · exact (nodup_toList _).filter _
  · intro jobs hjobs hall
    have hperm : (jobs.flatMap (replay history).ofJob).Perm (replay history).toList :=
      flatMap_ofJob_perm hjobs fun record hmem => hall record ((hlive record).1 hmem)
    refine ⟨nodup_flatMap_ofJob hjobs, fun record => hperm.mem_iff.trans (hlive record), ?_⟩
    rw [← List.length_flatMap, hperm.length_eq, length_toList]
  · have happend : (replay history).saveAll (first ++ rest) =
        ((replay history).saveAll first).saveAll rest := List.foldl_append
    exact happend ▸ size_le_size_saveAll _ rest

/-- After any changes, a store that was empty at first reflects all that happened, and so does a
store that was made of some records. -/
theorem reflects_after (changes : List Change) :
    Reflects (empty.after changes) (changes.flatMap Change.entries) ∧
      ∀ records, Reflects ((ofList records).after changes)
        (records.map .saved ++ changes.flatMap Change.entries) := by
  have hempty : ∀ changes : List Change,
      Reflects (empty.after changes) (changes.flatMap Change.entries) := fun changes =>
    after_eq_foldl_enter empty changes ▸ reflects_replay _
  -- making a store of records is the change that saves them
  exact ⟨hempty changes, fun records => hempty (.save records :: changes)⟩

end Scheduling.TaskStore
