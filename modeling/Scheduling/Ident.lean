import Scheduling.Text.Pieces
import Scheduling.Text.Quoted
import Scheduling.Uuid

/-!
# Names of jobs and tasks

A job is named by three words, its role, its environment and its own name, written with slashes
between them; a task is named by one word. A word is a non-empty text without the characters that
its place refuses, and the types hold the proof, so a name that exists is a name that reads back.
The types and their errors are those of `berth-id`.
-/

namespace Scheduling

/-- Why a text is no name. -/
inductive IdError where
  /-- There is no text. -/
  | empty
  /-- The word `value` holds a character it may not hold; `found` is the first of them. -/
  | invalidCharacter (value : String) (found : Char)
  /-- The text does not consist of three words with slashes between them. -/
  | invalidFormat (text : String)
  deriving DecidableEq, Repr

/-- What is expected of a job's name, and the text that was found in its place. -/
def IdError.formatDetail (text : String) : String :=
  "expected role/environment/name, got '" ++ text ++ "'"

/-- The wording of an error. -/
def IdError.message : IdError → String
  | .empty => "ID cannot be empty"
  | .invalidCharacter value found =>
    "invalid character " ++ Text.quoteChar found ++ " in '" ++ value ++ "'"
  | .invalidFormat text => "invalid ID format: " ++ formatDetail text

/-- The error is that of an absent text. -/
def IdError.isEmpty : IdError → Bool
  | .empty => true
  | _ => false

/-- A non-empty text without a character that `refused` holds for. -/
def IsWord (refused : Char → Bool) (s : String) : Prop :=
  s ≠ "" ∧ ∀ c ∈ s.toList, refused c = false

instance (refused : Char → Bool) (s : String) : Decidable (IsWord refused s) :=
  decidable_of_iff (s ≠ "" ∧ s.toList.all (fun c => !refused c) = true) (by simp [IsWord])

/-- Reads a text as a word (`validate_component` for the words of a job, and the checks of a task's
`parse`). -/
def readWord (refused : Char → Bool) (s : String) :
    Except IdError { w : String // IsWord refused w } :=
  if hs : s = "" then .error .empty
  else match hf : s.toList.find? refused with
    | some found => .error (.invalidCharacter s found)
    | none => .ok ⟨s, hs, fun c hc => by simpa using List.find?_eq_none.1 hf c hc⟩

/-- A word is read as itself. -/
theorem readWord_eq_ok {refused : Char → Bool} {s : String} (h : IsWord refused s) :
    readWord refused s = .ok ⟨s, h⟩ := by
  have hfind : s.toList.find? refused = none :=
    List.find?_eq_none.2 fun c hc => by rw [h.2 c hc]; exact Bool.false_ne_true
  unfold readWord
  rw [dif_neg h.1]
  split
  · next hf => rw [hfind] at hf; cases hf
  · rfl

/-! ## Jobs -/

/-- The character between the words of a job's name (`SEPARATOR`). -/
def JobKey.separator : Char := '/'

/-- The characters that no word of a job's name may hold. -/
def JobKey.refused (c : Char) : Bool := c == JobKey.separator || Text.isBlank c

/-- The name of a job. -/
structure JobKey where
  role : String
  environment : String
  name : String
  role_isWord : IsWord JobKey.refused role
  environment_isWord : IsWord JobKey.refused environment
  name_isWord : IsWord JobKey.refused name
  deriving DecidableEq

namespace JobKey

/-- The name made of three words (`new`); the first that is no word is the error. -/
def ofWords (role environment name : String) : Except IdError JobKey := do
  let role ← readWord refused role
  let environment ← readWord refused environment
  let name ← readWord refused name
  return ⟨role.1, environment.1, name.1, role.2, environment.2, name.2⟩

/-- Reads a name from its three words with slashes between them (`parse`). -/
def parse (s : String) : Except IdError JobKey :=
  if s = "" then .error .empty
  else match Text.pieces separator s.toList with
    | [role, environment, name] =>
      ofWords (String.ofList role) (String.ofList environment) (String.ofList name)
    | _ => .error (.invalidFormat s)

/-- The text of a name (`fmt`). -/
def text (k : JobKey) : String := k.role ++ "/" ++ k.environment ++ "/" ++ k.name

/-- No word of a name holds the separator. -/
theorem separator_not_mem {s : String} (h : IsWord refused s) : separator ∉ s.toList := fun hmem =>
  absurd (h.2 _ hmem) (by decide)

/-- Three texts without the separator are read from the text in which it stands between them. -/
theorem parse_words {role environment name : String} (hr : separator ∉ role.toList)
    (he : separator ∉ environment.toList) (hn : separator ∉ name.toList) :
    parse (role ++ "/" ++ environment ++ "/" ++ name) = ofWords role environment name := by
  have hpieces : Text.pieces separator (role ++ "/" ++ environment ++ "/" ++ name).toList
      = [role.toList, environment.toList, name.toList] := by
    have htext : (role ++ "/" ++ environment ++ "/" ++ name).toList = role.toList ++ separator ::
        (environment.toList ++ separator :: name.toList) := by
      simp [separator]
    rw [htext, Text.pieces_append hr, Text.pieces_append he, Text.pieces_of_not_mem hn]
  have hne : role ++ "/" ++ environment ++ "/" ++ name ≠ "" := fun h => by
    rw [h] at hpieces
    simp [Text.pieces] at hpieces
  unfold parse
  rw [if_neg hne, hpieces]
  simp only [String.ofList_toList]

/-- The text of a name is read as the name. -/
theorem parse_text (k : JobKey) : parse k.text = .ok k := by
  rw [text, parse_words (separator_not_mem k.role_isWord) (separator_not_mem k.environment_isWord)
    (separator_not_mem k.name_isWord)]
  simp only [ofWords, readWord_eq_ok k.role_isWord, readWord_eq_ok k.environment_isWord,
    readWord_eq_ok k.name_isWord]
  rfl

/-- Names are ordered by role, then environment, then name. -/
instance : Ord JobKey where
  compare := compareLex (compareOn role) (compareLex (compareOn environment) (compareOn name))

end JobKey

/-! ## Tasks -/

/-- The name of one incarnation of a task. -/
structure TaskId where
  text : String
  text_isWord : IsWord Text.isBlank text
  deriving DecidableEq

namespace TaskId

/-- Reads a task's name (`parse`). -/
def parse (s : String) : Except IdError TaskId := do
  let w ← readWord Text.isBlank s
  return ⟨w.1, w.2⟩

/-- The text of a name is read as the name. -/
theorem parse_text (t : TaskId) : parse t.text = .ok t := by
  unfold parse
  rw [readWord_eq_ok t.text_isWord]
  rfl

instance : Ord TaskId where
  compare := compareOn text

instance : Std.TransOrd TaskId := inferInstanceAs (Std.TransCmp (compareOn text))

instance : Std.LawfulEqOrd TaskId where
  eq_of_compare {a b} h := by
    have : a.text = b.text := Std.LawfulEqOrd.eq_of_compare (α := String) h
    cases a; cases b; simp_all

/-- The text of a generated name: the job's words, the instance and the identifier, with hyphens
between them. -/
def generatedText (job : JobKey) (instanceId : UInt32) (uuid : Uuid) : String :=
  job.role ++ "-" ++ job.environment ++ "-" ++ job.name ++ "-" ++ instanceId.toNat.repr ++ "-"
    ++ String.ofList uuid.text

/-- The words of a job's name hold no white space. -/
theorem not_isBlank_of_isWord {s : String} (h : IsWord JobKey.refused s) :
    ∀ c ∈ s.toList, Text.isBlank c = false := fun c hc => by
  have := h.2 c hc
  unfold JobKey.refused at this
  exact (Bool.or_eq_false_iff.1 this).2

/-- Decimal digits are no white space. -/
theorem not_isBlank_of_isDigit {c : Char} (h : c.isDigit = true) : Text.isBlank c = false := by
  simp only [Char.isDigit, Bool.and_eq_true, decide_eq_true_eq] at h
  have h1 : 48 ≤ c.toNat := h.1
  have h2 : c.toNat ≤ 57 := h.2
  simp [Text.isBlank, Text.inRanges, Text.blankRanges]
  omega

/-- The text of an identifier holds no white space. -/
theorem not_isBlank_of_mem_uuid {uuid : Uuid} {c : Char} (h : c ∈ uuid.text) :
    Text.isBlank c = false := by
  have digit : ∀ d : BitVec 4, Text.isBlank (Uuid.hexDigit d) = false := by decide
  have digits : ∀ c ∈ uuid.digits, Text.isBlank c = false := fun c hc => by
    obtain ⟨i, -, rfl⟩ := List.mem_map.1 hc
    exact digit _
  simp only [Uuid.text, List.mem_append, List.mem_cons] at h
  rcases h with h | rfl | h | rfl | h | rfl | h | rfl | h
  · exact digits c (List.mem_of_mem_take h)
  · decide
  · exact digits c (List.mem_of_mem_drop (List.mem_of_mem_take h))
  · decide
  · exact digits c (List.mem_of_mem_drop (List.mem_of_mem_take h))
  · decide
  · exact digits c (List.mem_of_mem_drop (List.mem_of_mem_take h))
  · decide
  · exact digits c (List.mem_of_mem_drop h)

/-- The words of a job's name, the number of an instance and a text without white space, with
hyphens between them, are a word. -/
theorem isWord_hyphenated (job : JobKey) (instanceId : UInt32) {u : String}
    (hu : ∀ c ∈ u.toList, Text.isBlank c = false) :
    IsWord Text.isBlank (job.role ++ "-" ++ job.environment ++ "-" ++ job.name ++ "-"
      ++ instanceId.toNat.repr ++ "-" ++ u) := by
  refine ⟨fun h => ?_, fun c hc => ?_⟩
  · have := congrArg String.toList h
    simp at this
  · simp only [String.toList_append, Nat.toList_repr, List.mem_append] at hc
    have hyphen : ∀ c ∈ "-".toList, Text.isBlank c = false := fun c hc => by
      obtain rfl : c = '-' := by simpa using hc
      decide
    rcases hc with (((((((hc | hc) | hc) | hc) | hc) | hc) | hc) | hc) | hc
    · exact not_isBlank_of_isWord job.role_isWord c hc
    · exact hyphen c hc
    · exact not_isBlank_of_isWord job.environment_isWord c hc
    · exact hyphen c hc
    · exact not_isBlank_of_isWord job.name_isWord c hc
    · exact hyphen c hc
    · exact not_isBlank_of_isDigit (Nat.isDigit_of_mem_toDigits (by decide) (by decide) hc)
    · exact hyphen c hc
    · exact hu c hc

/-- A generated text is a word. -/
theorem isWord_generatedText (job : JobKey) (instanceId : UInt32) (uuid : Uuid) :
    IsWord Text.isBlank (generatedText job instanceId uuid) :=
  isWord_hyphenated job instanceId fun _ hc =>
    not_isBlank_of_mem_uuid (String.toList_ofList ▸ hc)

/-- A name for an instance of a job (`generate`), fresh if the identifier is. -/
def generate (job : JobKey) (instanceId : UInt32) (uuid : Uuid) : TaskId :=
  ⟨generatedText job instanceId uuid, isWord_generatedText job instanceId uuid⟩

end TaskId

end Scheduling
