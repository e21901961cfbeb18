import Scheduling.Store.Basic

/-!
# A store that watches its readers

A store that notes every look-up and breaks off at the look-up of a forbidden name, before noting
it: `RecordingTaskStore` of `berth-testing`, whose panic is an exception here. What was noted before
stays.
-/

namespace Scheduling

/-- A forbidden name was looked up. -/
structure ForbiddenLookup where
  id : TaskId
  deriving DecidableEq

/-- The wording of the error. -/
def ForbiddenLookup.message (e : ForbiddenLookup) : String :=
  "task " ++ e.id.text ++ " must not be queried"

/-- A store with a log of its look-ups. -/
structure RecordingStore where
  store : TaskStore
  /-- The names looked up so far, in order. -/
  lookups : List TaskId
  /-- The names that must not be looked up. -/
  forbidden : List TaskId

namespace RecordingStore

/-- The store of some records, with an empty log (`with_tasks`). -/
def ofList (records : List TaskRecord) : RecordingStore := ⟨.ofList records, [], []⟩

/-- Forbids one name more (`forbid`). -/
def forbid (s : RecordingStore) (id : TaskId) : RecordingStore :=
  { s with forbidden := id :: s.forbidden }

/-- Looks a name up, in any setting that carries a recording store and can break off
(`fetch_task`). -/
def fetch {m : Type → Type} [Monad m] [MonadStateOf RecordingStore m]
    [MonadExceptOf ForbiddenLookup m] (id : TaskId) : m (Option TaskRecord) := do
  let s : RecordingStore ← get
  if id ∈ s.forbidden then throw (⟨id⟩ : ForbiddenLookup)
  set { s with lookups := s.lookups ++ [id] }
  return s.store.fetch id

end RecordingStore

end Scheduling
