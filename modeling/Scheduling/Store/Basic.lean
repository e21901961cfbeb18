import Std.Data.TreeMap
import Scheduling.Task

/-!
# A store of task records

The current records by name, each filed under its own, as `MemTaskStore` of `berth-storage` keeps
them; its lock and its shared pointers are left out. `fetch_save` and `fetch_delete` say what a
change does to every look-up.
-/

namespace Scheduling

/-- The current records. -/
structure TaskStore where
  tasks : Std.TreeMap TaskId TaskRecord
  /-- A record is filed under its own name. -/
  filed : ∀ (id : TaskId) (record : TaskRecord), tasks[id]? = some record → record.taskId = id

namespace TaskStore

/-- No records (`new`). -/
def empty : TaskStore := ⟨∅, by simp⟩

/-- The record of a name (`fetch_task`). -/
def fetch (s : TaskStore) (id : TaskId) : Option TaskRecord := s.tasks[id]?

/-- Files a record, in the place of one of the same name. -/
def save (s : TaskStore) (record : TaskRecord) : TaskStore where
  tasks := s.tasks.insert record.taskId record
  filed id r h := by
    rw [Std.TreeMap.getElem?_insert] at h
    split at h
    · next he => rw [← Std.LawfulEqOrd.eq_of_compare he]; simp_all
    · exact s.filed id r h

/-- Files records one after the other (`save_tasks`). -/
def saveAll (s : TaskStore) (records : List TaskRecord) : TaskStore := records.foldl save s

/-- The store of some records (`with_tasks`). -/
def ofList (records : List TaskRecord) : TaskStore := empty.saveAll records

/-- Removes the record of a name, if there is one. -/
def delete (s : TaskStore) (id : TaskId) : TaskStore where
  tasks := s.tasks.erase id
  filed id' r h := by
    rw [Std.TreeMap.getElem?_erase] at h
    split at h
    · exact absurd h (by simp)
    · exact s.filed id' r h

/-- Removes the records of some names (`delete_tasks`). -/
def deleteAll (s : TaskStore) (ids : List TaskId) : TaskStore := ids.foldl delete s

/-- The records, in the order of their names. -/
def toList (s : TaskStore) : List TaskRecord := s.tasks.toList.map Prod.snd

/-- The records of a job, in the order of their names (`fetch_tasks_by_job`, which gives them in no
particular order). -/
def ofJob (s : TaskStore) (job : JobKey) : List TaskRecord :=
  s.toList.filter fun record => record.job = job

/-- The number of records (`len`). -/
def size (s : TaskStore) : Nat := s.tasks.size

/-- There are no records (`is_empty`). -/
def isEmpty (s : TaskStore) : Bool := s.tasks.isEmpty

@[simp] theorem fetch_empty (id : TaskId) : empty.fetch id = none := by simp [fetch, empty]

/-- A saved record is found under its name, and nothing else changes. -/
theorem fetch_save (s : TaskStore) (record : TaskRecord) (id : TaskId) :
    (s.save record).fetch id = if record.taskId = id then some record else s.fetch id := by
  simp only [fetch, save, Std.TreeMap.getElem?_insert, Std.LawfulEqOrd.compare_eq_iff_eq]

/-- A deleted name has no record, and nothing else changes. -/
theorem fetch_delete (s : TaskStore) (id id' : TaskId) :
    (s.delete id).fetch id' = if id = id' then none else s.fetch id' := by
  simp only [fetch, delete, Std.TreeMap.getElem?_erase, Std.LawfulEqOrd.compare_eq_iff_eq]

/-- After some records are saved, the last of them that has a name is found under it. -/
theorem fetch_saveAll (s : TaskStore) (records : List TaskRecord) (id : TaskId) :
    (s.saveAll records).fetch id =
      (records.reverse.find? fun record => record.taskId = id).or (s.fetch id) := by
  induction records generalizing s with
  | nil => rfl
  | cons record rest ih =>
    rw [show s.saveAll (record :: rest) = (s.save record).saveAll rest from rfl, ih, fetch_save,
      List.reverse_cons, List.find?_append, Option.or_assoc]
    by_cases h : record.taskId = id <;> simp [h]

/-- The store of some records holds under each name the last of them that has it. -/
theorem fetch_ofList (records : List TaskRecord) (id : TaskId) :
    (ofList records).fetch id = records.reverse.find? fun record => record.taskId = id := by
  rw [ofList, fetch_saveAll, fetch_empty, Option.or_none]

/-- What is found in the store of some records is one of them. -/
theorem mem_of_fetch_ofList {records : List TaskRecord} {id : TaskId} {record : TaskRecord}
    (h : (ofList records).fetch id = some record) : record ∈ records := by
  rw [fetch_ofList] at h
  exact List.mem_reverse.1 (List.mem_of_find?_eq_some h)

/-- Deleted names have no record, and nothing else changes. -/
theorem fetch_deleteAll (s : TaskStore) (ids : List TaskId) (id : TaskId) :
    (s.deleteAll ids).fetch id = if id ∈ ids then none else s.fetch id := by
  induction ids generalizing s with
  | nil => simp [deleteAll]
  | cons first rest ih =>
    rw [show s.deleteAll (first :: rest) = (s.delete first).deleteAll rest from rfl, ih,
      fetch_delete]
    by_cases hrest : id ∈ rest
    · rw [if_pos hrest, if_pos (List.mem_cons_of_mem first hrest)]
    · rw [if_neg hrest]
      simp only [List.mem_cons, hrest, or_false, eq_comm]

/-- What is found after deletions was there before. -/
theorem fetch_of_fetch_deleteAll {s : TaskStore} {ids : List TaskId} {id : TaskId}
    {record : TaskRecord} (h : (s.deleteAll ids).fetch id = some record) :
    s.fetch id = some record := by
  rw [fetch_deleteAll] at h
  split at h
  · cases h
  · exact h

end TaskStore

end Scheduling
