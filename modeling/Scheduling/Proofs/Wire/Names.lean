import Scheduling.Proofs.Ident.Hexadecimal
import Scheduling.Proofs.Ident.JobText
import Scheduling.Proofs.Wire.Documents
import Scheduling.Proofs.Wire.Parts
import Scheduling.Sample

/-!
# Where names come from

The name of a job is made of three words or read from a text, and the text is given as such or is
part of a document: the whole of it, the job of a configuration, or the job of the configuration of
a record. The name of a task is read from a text, from a document alone or as the task or the
ancestor of a record, or it is generated for an instance of a job. Whichever way a name comes about,
it is what was given, unchanged, and it is valid (`names_isValid`): a document is read by its parts
(`Wire/Parts.lean`), and the one way through the codec of names leads through the parser. Generated
names are not parsed; they are valid because the name of the job is, and they are parsed as
themselves.
-/

namespace Scheduling

/-! ## Names read from values -/

namespace TaskId

/-- A text is read as the name whose text it is. -/
theorem parse_eq_ok_iff {s : String} {t : TaskId} : parse s = .ok t ↔ t.text = s := by
  constructor
  · intro h
    obtain ⟨w, hw, h⟩ := bind_eq_ok_iff.1 h
    obtain rfl := Except.ok.inj h
    exact readWord_eq_ok_iff.1 hw
  · rintro rfl
    exact parse_text t

end TaskId

namespace Wire

/-- The name of a job is read from its text and from nothing else. -/
theorem jobKey_decode_eq_ok_iff {v : Json} {k : JobKey} :
    jobKey.decode v = .ok k ↔ v = .ofString k.text := by
  rw [jobKey, Codec.named_decode_eq_ok_iff]
  constructor
  · rintro ⟨s, rfl, hs⟩
    rw [JobKey.parse_eq_ok_iff.1 hs]
    rfl
  · rintro rfl
    exact ⟨k.text, rfl, JobKey.parse_text k⟩

/-- The name of a task is read from its text and from nothing else. -/
theorem taskId_decode_eq_ok_iff {v : Json} {t : TaskId} :
    taskId.decode v = .ok t ↔ v = .ofString t.text := by
  rw [taskId, Codec.named_decode_eq_ok_iff]
  constructor
  · rintro ⟨s, rfl, hs⟩
    rw [TaskId.parse_eq_ok_iff.1 hs]
    rfl
  · rintro rfl
    exact ⟨t.text, rfl, TaskId.parse_text t⟩

/-- What is read as a configuration holds the text of the job's name. -/
theorem part_job_of_decode {v : Json} {c : TaskConfig} (h : taskConfig.decode v = .ok c) :
    taskConfigLayout.part .job v = some (.ofString c.job.text) := by
  obtain ⟨w, hw, hjob⟩ :=
    Layout.exists_part_of_decode (fun _ f => by cases f <;> rfl) h (f := .job) rfl
  rw [hw, jobKey_decode_eq_ok_iff.1 hjob]
  rfl

section Record

variable {v : Json} {r : TaskRecord}

/-- What is read as a record holds a configuration that holds the text of the job's name. -/
theorem part_config_of_decode (h : taskRecord.decode v = .ok r) :
    (taskRecordLayout.part .config v).bind (taskConfigLayout.part .job) =
      some (.ofString r.config.job.text) := by
  obtain ⟨w, hw, hconfig⟩ :=
    Layout.exists_part_of_decode (fun _ f => by cases f <;> rfl) h (f := .config) rfl
  rw [hw, Option.bind_some]
  exact part_job_of_decode hconfig

/-- What is read as a record holds the text of the task's name. -/
theorem part_taskId_of_decode (h : taskRecord.decode v = .ok r) :
    taskRecordLayout.part .taskId v = some (.ofString r.taskId.text) := by
  obtain ⟨w, hw, hid⟩ :=
    Layout.exists_part_of_decode (fun _ f => by cases f <;> rfl) h (f := .taskId) rfl
  rw [hw, taskId_decode_eq_ok_iff.1 hid]
  rfl

/-- What is read as a record with an ancestor holds the text of the ancestor's name. -/
theorem part_ancestor_of_decode (h : taskRecord.decode v = .ok r) {t : TaskId}
    (ht : r.ancestor = some t) : taskRecordLayout.part .ancestor v = some (.ofString t.text) := by
  have hpart := Layout.get_of_decode (fun _ f => by cases f <;> rfl) h .ancestor
  split at hpart
  · next w hw =>
    have hdecode : taskId.optional.decode w = .ok (some t) := hpart.trans (congrArg Except.ok ht)
    rw [hw, taskId_decode_eq_ok_iff.1 (Codec.decode_of_optional_decode hdecode)]
  · -- an absent part stands for no ancestor
    cases (Option.some.inj hpart).trans ht

end Record

end Wire

/-! ## Ways to a name -/

/-- The content of a text. -/
def Json.content? : Json → Option String
  | .text content => content
  | _ => none

/-- The value that a text spells. -/
def Json.ofText (s : String) : Json := (Document.ofText s.toList).value

/-- What is read from a text is read from the value that it spells. -/
theorem Wire.Codec.decode_ofText {α : Type} {c : Wire.Codec α} {s : String} {a : α}
    (h : c.decodeText s = .ok a) : c.decode (Json.ofText s) = .ok a :=
  (Wire.Codec.decodeText_eq_ok_iff.1 h).2

namespace JobKey

/-- Where the name of a job comes from. -/
inductive Source where
  /-- Three words. -/
  | words (role environment name : String)
  /-- The text of the name. -/
  | text (s : String)
  /-- The text of a document of the name. -/
  | document (s : String)
  /-- The text of a document of a configuration for the job. -/
  | config (s : String)
  /-- The text of a document of a record of one of its tasks. -/
  | record (s : String)

/-- The source gives the name. -/
def Source.Yields (k : JobKey) : Source → Prop
  | words role environment name => ofWords role environment name = .ok k
  | text s => parse s = .ok k
  | document s => Wire.jobKey.decodeText s = .ok k
  | config s => ∃ c, Wire.taskConfig.decodeText s = .ok c ∧ c.job = k
  | record s => ∃ r, Wire.taskRecord.decodeText s = .ok r ∧ r.config.job = k

/-- What stands in the source for the name. -/
def Source.given : Source → Option String
  | words role environment name => some (role ++ "/" ++ environment ++ "/" ++ name)
  | text s => some s
  | document s => (Json.ofText s).content?
  | config s => (Wire.taskConfigLayout.part .job (Json.ofText s)).bind Json.content?
  | record s =>
    ((Wire.taskRecordLayout.part .config (Json.ofText s)).bind
      (Wire.taskConfigLayout.part .job)).bind Json.content?

/-- The name that a source gives has the text that stands there for it. -/
theorem Source.given_of_yields {source : Source} {k : JobKey} (h : source.Yields k) :
    source.given = some k.text := by
  cases source with
  | words role environment name =>
    obtain ⟨rfl, rfl, rfl⟩ := ofWords_eq_ok_iff.1 h
    rfl
  | text s => exact congrArg some (parse_eq_ok_iff.1 h).symm
  | document s =>
    rw [given, Wire.jobKey_decode_eq_ok_iff.1 (Wire.Codec.decode_ofText h)]
    rfl
  | config s =>
    obtain ⟨c, hc, rfl⟩ := h
    rw [given, Wire.part_job_of_decode (Wire.Codec.decode_ofText hc)]
    rfl
  | record s =>
    obtain ⟨r, hr, rfl⟩ := h
    rw [given, Wire.part_config_of_decode (Wire.Codec.decode_ofText hr)]
    rfl

/-- Each of the words can stand in the name of a job. -/
structure IsValid (k : JobKey) : Prop where
  role : IsComponent k.role
  environment : IsComponent k.environment
  name : IsComponent k.name

/-- Names of jobs are valid. -/
theorem isValid (k : JobKey) : k.IsValid :=
  ⟨isComponent_iff.2 k.role_isWord, isComponent_iff.2 k.environment_isWord,
    isComponent_iff.2 k.name_isWord⟩

end JobKey

namespace TaskId

/-- Where the name of a task comes from. -/
inductive Source where
  /-- The text of the name. -/
  | text (s : String)
  /-- The text of a document of the name. -/
  | document (s : String)
  /-- The text of a document of a record of the task. -/
  | record (s : String)
  /-- The text of a document of a record of which the task is the ancestor. -/
  | ancestor (s : String)
  /-- An instance of a job and a fresh identifier. -/
  | generated (job : JobKey) (instanceId : UInt32) (uuid : Uuid)

/-- The source gives the name. -/
def Source.Yields (t : TaskId) : Source → Prop
  | text s => parse s = .ok t
  | document s => Wire.taskId.decodeText s = .ok t
  | record s => ∃ r, Wire.taskRecord.decodeText s = .ok r ∧ r.taskId = t
  | ancestor s => ∃ r, Wire.taskRecord.decodeText s = .ok r ∧ r.ancestor = some t
  | generated job instanceId uuid => generate job instanceId uuid = t

/-- The words of a job's name, the decimal number of an instance and the text of an identifier, with
hyphens between them. -/
def hyphenatedText (job : JobKey) (instanceId : UInt32) (u : String) : String :=
  job.role ++ "-" ++ job.environment ++ "-" ++ job.name ++ "-" ++ instanceId.toNat.repr ++ "-" ++ u

/-- What stands in the source for the name. -/
def Source.given : Source → Option String
  | text s => some s
  | document s => (Json.ofText s).content?
  | record s => (Wire.taskRecordLayout.part .taskId (Json.ofText s)).bind Json.content?
  | ancestor s => (Wire.taskRecordLayout.part .ancestor (Json.ofText s)).bind Json.content?
  | generated job instanceId uuid =>
    some (hyphenatedText job instanceId (String.ofList uuid.text))

/-- The name that a source gives has the text that stands there for it. -/
theorem Source.given_of_yields {source : Source} {t : TaskId} (h : source.Yields t) :
    source.given = some t.text := by
  cases source with
  | text s => exact congrArg some (parse_eq_ok_iff.1 h).symm
  | document s =>
    rw [given, Wire.taskId_decode_eq_ok_iff.1 (Wire.Codec.decode_ofText h)]
    rfl
  | record s =>
    obtain ⟨r, hr, rfl⟩ := h
    rw [given, Wire.part_taskId_of_decode (Wire.Codec.decode_ofText hr)]
    rfl
  | ancestor s =>
    obtain ⟨r, hr, ht⟩ := h
    rw [given, Wire.part_ancestor_of_decode (Wire.Codec.decode_ofText hr) ht]
    rfl
  | generated job instanceId uuid => exact congrArg (some ∘ TaskId.text) h

/-- The text can stand as the name of a task. -/
structure IsValid (t : TaskId) : Prop where
  /-- There is a text. -/
  ne_empty : t.text ≠ ""
  /-- It holds no white space. -/
  not_isBlank : ∀ c ∈ t.text.toList, Text.isBlank c = false

/-- Names of tasks are valid. -/
theorem isValid (t : TaskId) : t.IsValid := ⟨t.text_isWord.1, t.text_isWord.2⟩

/-- The text for an instance of a job is read as a name, whatever the case of the identifier's
digits. -/
theorem exists_parse_hyphenatedText (job : JobKey) (instanceId : UInt32) {u : String}
    (hu : Uuid.IsHyphenated Uuid.isHexDigitOfAnyCase u) :
    ∃ t, parse (hyphenatedText job instanceId u) = .ok t ∧
      t.text = hyphenatedText job instanceId u :=
  ⟨⟨_, isWord_hyphenated job instanceId hu.not_isBlank⟩, parse_eq_ok_iff.2 rfl, rfl⟩

/-- If the digits are of lower case, the text is that of a generated name, and is read as it. -/
theorem exists_parse_eq_generate (job : JobKey) (instanceId : UInt32) {u : String}
    (hu : Uuid.IsHyphenated Uuid.isHexDigit u) :
    ∃ uuid : Uuid, String.ofList uuid.text = u ∧
      parse (hyphenatedText job instanceId u) = .ok (generate job instanceId uuid) := by
  obtain ⟨uuid, rfl⟩ := Uuid.exists_text_iff.2 hu
  exact ⟨uuid, rfl, parse_eq_ok_iff.2 rfl⟩

end TaskId

/-! ## Validity -/

/-- However the name of a job or a task comes about, it is what was given for it, unchanged, and it
is valid.

* The name of a job, from whichever source, has the text that stands there for it, and its three
  words are not empty and hold neither slashes nor white space.
* The name of a task, from whichever source, has the text that stands there for it, and is not empty
  and holds no white space. If it is generated, this text is made of the job's words, the number of
  the instance and the text of an identifier, with hyphens between them.
* Such a text is read as a name with this text, also if the digits of the identifier are written in
  upper case.
* If they are written in lower case, as they are by the program, there is an identifier that they
  spell, and the text is read as the name that is generated with it. -/
theorem names_isValid :
    (∀ (source : JobKey.Source) (k : JobKey), source.Yields k →
        source.given = some k.text ∧ k.IsValid) ∧
      (∀ (source : TaskId.Source) (t : TaskId), source.Yields t →
        source.given = some t.text ∧ t.IsValid) ∧
      (∀ (k : JobKey) (instanceId : UInt32) (u : String),
        Uuid.IsHyphenated Uuid.isHexDigitOfAnyCase u →
          ∃ t, TaskId.parse (TaskId.hyphenatedText k instanceId u) = .ok t ∧
            t.text = TaskId.hyphenatedText k instanceId u) ∧
      ∀ (k : JobKey) (instanceId : UInt32) (u : String), Uuid.IsHyphenated Uuid.isHexDigit u →
        ∃ uuid : Uuid, String.ofList uuid.text = u ∧
          TaskId.parse (TaskId.hyphenatedText k instanceId u) =
            .ok (TaskId.generate k instanceId uuid) :=
  ⟨fun _ k h => ⟨JobKey.Source.given_of_yields h, k.isValid⟩,
    fun _ t h => ⟨TaskId.Source.given_of_yields h, t.isValid⟩,
    fun k instanceId _ hu => TaskId.exists_parse_hyphenatedText k instanceId hu,
    fun k instanceId _ hu => TaskId.exists_parse_eq_generate k instanceId hu⟩

/-- The written record of a task with an ancestor gives the names of its job, of the task and of the
ancestor, and the job has instances with identifiers in digits of either case. -/
theorem names_isValid_sample :
    (∃ s, (JobKey.Source.record s).Yields Sample.job ∧
        (JobKey.Source.record s).given = some "role/devel/job" ∧ Sample.job.IsValid ∧
        (TaskId.Source.record s).Yields ⟨"a", by decide⟩ ∧
        (TaskId.Source.record s).given = some "a" ∧
        (TaskId.Source.ancestor s).Yields ⟨"b", by decide⟩ ∧
        (TaskId.Source.ancestor s).given = some "b") ∧
      (∃ t, TaskId.parse "role-devel-job-3-01234567-89AB-CDEF-0123-456789abcdef" = .ok t ∧
        t.text = "role-devel-job-3-01234567-89AB-CDEF-0123-456789abcdef") ∧
      ∃ uuid : Uuid, String.ofList uuid.text = "01234567-89ab-cdef-0123-456789abcdef" ∧
        TaskId.parse "role-devel-job-3-01234567-89ab-cdef-0123-456789abcdef" =
          .ok (TaskId.generate Sample.job 3 uuid) := by
  let r : TaskRecord := (Sample.flappyTask ⟨"a", by decide⟩).withAncestor ⟨"b", by decide⟩
  have hread : Wire.taskRecord.decodeText (Wire.taskRecord.encodeText r) = .ok r :=
    (Wire.isFaithful_taskRecord.roundTrips r).2
  have hjob : (JobKey.Source.record (Wire.taskRecord.encodeText r)).Yields Sample.job :=
    ⟨r, hread, rfl⟩
  have htask : (TaskId.Source.record (Wire.taskRecord.encodeText r)).Yields ⟨"a", by decide⟩ :=
    ⟨r, hread, rfl⟩
  have hancestor :
      (TaskId.Source.ancestor (Wire.taskRecord.encodeText r)).Yields ⟨"b", by decide⟩ :=
    ⟨r, hread, rfl⟩
  have hupper : Uuid.IsHyphenated Uuid.isHexDigitOfAnyCase "01234567-89AB-CDEF-0123-456789abcdef" :=
    ⟨"0123456789ABCDEF0123456789abcdef".toList, by decide, List.all_eq_true.1 (by decide),
      by decide⟩
  have hlower : Uuid.IsHyphenated Uuid.isHexDigit "01234567-89ab-cdef-0123-456789abcdef" :=
    ⟨"0123456789abcdef0123456789abcdef".toList, by decide, List.all_eq_true.1 (by decide),
      by decide⟩
  obtain ⟨hjobs, htasks, hany, hfresh⟩ := names_isValid
  exact ⟨⟨_, hjob, (hjobs _ _ hjob).1, (hjobs _ _ hjob).2, htask, (htasks _ _ htask).1, hancestor,
    (htasks _ _ hancestor).1⟩, hany Sample.job 3 _ hupper, hfresh Sample.job 3 _ hlower⟩

end Scheduling
