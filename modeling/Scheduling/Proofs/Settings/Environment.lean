import Scheduling.Config
import Scheduling.Proofs.Decimal.Denotation

/-!
# Configurations from variables

The four fields are read one after the other, and each reads one variable: a field whose variable is
unset has its default, and another has the number that the variable's text denotes. So there is a
configuration exactly if every text denotes a number; if some do not, the first of them in the order
of the fields is reported, with the text as it stands and what is wrong with it (`ofLookup_reads`).

An environment holds bytes, which need not be a text. Those that are none count as unset, so a
variable that is set may be passed over in silence. This happens exactly if some variable holds such
bytes and no other holds a text that denotes no number (`heeds_iff`).
-/

namespace Scheduling

/-- The fields that are read before a field. -/
def ConfigField.earlier (field : ConfigField) : List ConfigField := all.takeWhile (· ≠ field)

/-- Of two fields one is read before the other. -/
theorem ConfigField.mem_earlier_or (field field' : ConfigField) :
    field = field' ∨ field ∈ field'.earlier ∨ field' ∈ field.earlier := by
  cases field <;> cases field' <;> decide

namespace Config

open Decimal (Denotes Exceeds HasFault)

variable {lookup : ConfigField → Option String} {field : ConfigField} {n : UInt64} {c : Config}
  {e : EnvError}

/-- A configuration is determined by its fields. -/
theorem ext_get {c c' : Config} (h : ∀ field, c.get field = c'.get field) : c = c' := by
  obtain ⟨t, d, i, m⟩ := c
  obtain ⟨t', d', i', m'⟩ := c'
  obtain rfl : t = t' := h .flappingThreshold
  obtain rfl : d = d' := h .maxStartupDelay
  obtain rfl : i = i' := h .backoffInitial
  obtain rfl : m = m' := h .backoffMax
  rfl

/-- A field has the number that the text of its variable denotes, or its default if there is no
text. -/
def Gives (lookup : ConfigField → Option String) (field : ConfigField) (n : UInt64) : Prop :=
  match lookup field with
  | none => n = field.default
  | some text => Denotes text n

/-- The variable of a field is set to a text that denotes no number. -/
def IsBad (lookup : ConfigField → Option String) (field : ConfigField) : Prop :=
  ∃ text, lookup field = some text ∧ ∀ n, ¬ Denotes text n

/-! ## One field -/

/-- The number that is read for a field is the one that its variable gives. -/
theorem readField_eq_ok_iff : readField lookup field = .ok n ↔ Gives lookup field n := by
  unfold readField Gives
  rcases lookup field with _ | text
  · simp [eq_comm]
  · dsimp only
    rw [Decimal.denotes_iff]
    rcases Decimal.readWhole (Text.trimBlanks text.toList) with fault | number <;> simp

/-- An error names the field, and has the text of its variable as it stands and what is wrong with
it. -/
theorem readField_eq_error_iff :
    readField lookup field = .error e ↔ e.field = field ∧ lookup field = some e.value ∧
      (∀ n, ¬ Denotes e.value n) ∧
        ∃ core, Text.Trims e.value.toList core ∧ HasFault core e.fault := by
  obtain ⟨named, value, fault⟩ := e
  rw [← Decimal.readWhole_trimBlanks_eq_error_iff]
  unfold readField
  rcases lookup field with _ | text
  · simp
  · dsimp only
    constructor
    · intro h
      split at h
      · cases h
      · next hread =>
        cases h
        exact ⟨rfl, rfl, hread⟩
    · rintro ⟨rfl, htext, hread⟩
      obtain rfl := Option.some.inj htext
      rw [hread]

/-- A field cannot be read exactly if its variable is bad. -/
theorem isBad_iff : IsBad lookup field ↔ ∃ e, readField lookup field = .error e := by
  constructor
  · rintro ⟨text, htext, hnone⟩
    rcases hread : readField lookup field with e | n
    · exact ⟨e, rfl⟩
    · have hn := readField_eq_ok_iff.1 hread
      rw [Gives, htext] at hn
      exact absurd hn (hnone n)
  · rintro ⟨e, he⟩
    obtain ⟨-, htext, hnone, -⟩ := readField_eq_error_iff.1 he
    exact ⟨e.value, htext, hnone⟩

/-- A field can be read exactly if its variable is not bad. -/
theorem not_isBad_iff : ¬ IsBad lookup field ↔ ∃ n, readField lookup field = .ok n := by
  rw [isBad_iff]
  rcases readField lookup field with e | n <;> simp

/-! ## All fields -/

variable (lookup) in
/-- Either every field is read, or the first that cannot be read has the error. -/
theorem ofLookup_cases :
    (∃ c, ofLookup lookup = .ok c ∧ ∀ field, readField lookup field = .ok (c.get field)) ∨
      ∃ e, ofLookup lookup = .error e ∧ readField lookup e.field = .error e ∧
        ∀ field ∈ e.field.earlier, ∃ n, readField lookup field = .ok n := by
  have hfirst : ∀ {field e}, readField lookup field = .error e → ofLookup lookup = .error e →
      (∀ f ∈ field.earlier, ∃ n, readField lookup f = .ok n) →
        ∃ e, ofLookup lookup = .error e ∧ readField lookup e.field = .error e ∧
          ∀ f ∈ e.field.earlier, ∃ n, readField lookup f = .ok n := by
    intro field e he hrun hearlier
    obtain rfl := (readField_eq_error_iff.1 he).1
    exact ⟨e, hrun, he, hearlier⟩
  -- the fields in order, each when those before it have been read
  rcases ht : readField lookup .flappingThreshold with e | threshold
  · refine .inr (hfirst ht (by rw [ofLookup, ht]; rfl) ?_)
    simp [ConfigField.earlier, ConfigField.all]
  rcases hs : readField lookup .maxStartupDelay with e | startup
  · refine .inr (hfirst hs (by rw [ofLookup, ht, hs]; rfl) ?_)
    simp [ConfigField.earlier, ConfigField.all, ht]
  rcases hi : readField lookup .backoffInitial with e | initial
  · refine .inr (hfirst hi (by rw [ofLookup, ht, hs, hi]; rfl) ?_)
    simp [ConfigField.earlier, ConfigField.all, ht, hs]
  rcases hm : readField lookup .backoffMax with e | max
  · refine .inr (hfirst hm (by rw [ofLookup, ht, hs, hi, hm]; rfl) ?_)
    simp [ConfigField.earlier, ConfigField.all, ht, hs, hi]
  refine .inl ⟨⟨threshold, startup, initial, max⟩, by rw [ofLookup, ht, hs, hi, hm]; rfl, ?_⟩
  rintro (_ | _)
  · exact ht
  · exact hs
  · exact hi
  · exact hm

/-- The configuration that is read has the number that is read for each field. -/
theorem ofLookup_eq_ok_iff :
    ofLookup lookup = .ok c ↔ ∀ field, readField lookup field = .ok (c.get field) := by
  rcases ofLookup_cases lookup with ⟨c', hrun, hread⟩ | ⟨e, hrun, hread, -⟩
  · rw [hrun]
    constructor
    · intro h
      obtain rfl := Except.ok.inj h
      exact hread
    · intro h
      have hget := fun field => Except.ok.inj ((hread field).symm.trans (h field))
      exact congrArg Except.ok (ext_get hget)
  · rw [hrun]
    refine iff_of_false (by simp) fun h => ?_
    cases hread.symm.trans (h e.field)

/-- The error is that of the first field that cannot be read. -/
theorem ofLookup_eq_error_iff :
    ofLookup lookup = .error e ↔ readField lookup e.field = .error e ∧
      ∀ field ∈ e.field.earlier, ∃ n, readField lookup field = .ok n := by
  rcases ofLookup_cases lookup with ⟨c, hrun, hread⟩ | ⟨e', hrun, hread, hearlier⟩
  · rw [hrun]
    refine iff_of_false (by simp) fun h => ?_
    cases h.1.symm.trans (hread e.field)
  · rw [hrun]
    constructor
    · intro h
      obtain rfl := Except.error.inj h
      exact ⟨hread, hearlier⟩
    · rintro ⟨hread', hearlier'⟩
      -- of two fields that cannot be read, one would be read before the other
      rcases ConfigField.mem_earlier_or e.field e'.field with hfield | hmem | hmem
      · rw [hfield] at hread'
        rw [Except.error.inj (hread.symm.trans hread')]
      · obtain ⟨n, hn⟩ := hearlier _ hmem
        cases hread'.symm.trans hn
      · obtain ⟨n, hn⟩ := hearlier' _ hmem
        cases hread.symm.trans hn

/-- The variable that an error names is bad. -/
theorem isBad_of_ofLookup_eq_error (h : ofLookup lookup = .error e) : IsBad lookup e.field :=
  isBad_iff.2 ⟨e, (ofLookup_eq_error_iff.1 h).1⟩

/-- There is an error exactly if some variable is bad. -/
theorem exists_error_iff :
    (∃ e, ofLookup lookup = .error e) ↔ ∃ field, IsBad lookup field := by
  constructor
  · rintro ⟨e, he⟩
    exact ⟨e.field, isBad_of_ofLookup_eq_error he⟩
  · rintro ⟨field, hbad⟩
    obtain ⟨e, he⟩ := isBad_iff.1 hbad
    rcases ofLookup_cases lookup with ⟨c, -, hread⟩ | ⟨e', hrun, -⟩
    · cases he.symm.trans (hread field)
    · exact ⟨e', hrun⟩

/-- The configuration that is read has what the variables give. -/
theorem ofLookup_eq_ok_iff_gives :
    ofLookup lookup = .ok c ↔ ∀ field, Gives lookup field (c.get field) := by
  rw [ofLookup_eq_ok_iff]
  exact forall_congr' fun field => readField_eq_ok_iff

/-- What is read from the texts of some variables.

* A configuration is read exactly if it has, for each field, the number that the text of its
  variable denotes, or the default if the variable is unset.
* There is an error exactly if some variable is bad: it is set to a text that denotes no number.
* The error is that of the first bad variable in the order of the fields. It has the text as it
  stands, and tells what is wrong with what is left of it between its white space: nothing is, or
  its first digits exceed the largest number, or else it has a character that is no digit, or none
  at all. -/
theorem ofLookup_reads (lookup : ConfigField → Option String) :
    (∀ c, ofLookup lookup = .ok c ↔ ∀ field, Gives lookup field (c.get field)) ∧
      ((∃ e, ofLookup lookup = .error e) ↔ ∃ field, IsBad lookup field) ∧
      ∀ e, ofLookup lookup = .error e ↔
        IsBad lookup e.field ∧ (∀ field ∈ e.field.earlier, ¬ IsBad lookup field) ∧
          lookup e.field = some e.value ∧
          ∃ core, Text.Trims e.value.toList core ∧
            (e.fault.message = "cannot parse integer from empty string" ↔ core = []) ∧
            (e.fault.message = "number too large to fit in target type" ↔ Exceeds core) ∧
            (e.fault.message = "invalid digit found in string" ↔
              core ≠ [] ∧ ¬ Exceeds core) := by
  refine ⟨fun c => ofLookup_eq_ok_iff_gives, exists_error_iff, fun e => ?_⟩
  simp only [ofLookup_eq_error_iff, not_isBad_iff, ← Decimal.hasFault_iff_message]
  constructor
  · rintro ⟨hread, hearlier⟩
    obtain ⟨-, htext, -, hfault⟩ := readField_eq_error_iff.1 hread
    exact ⟨isBad_iff.2 ⟨e, hread⟩, hearlier, htext, hfault⟩
  · rintro ⟨⟨text, htext', hnone⟩, hearlier, htext, hfault⟩
    obtain rfl := Option.some.inj (htext'.symm.trans htext)
    exact ⟨readField_eq_error_iff.2 ⟨rfl, htext, hnone, hfault⟩, hearlier⟩

/-! ## Bytes -/

variable {bytes : ConfigField → Option ByteArray}

/-- The texts that an environment holds. -/
def texts (bytes : ConfigField → Option ByteArray) (field : ConfigField) : Option String :=
  (bytes field).bind String.fromUTF8?

/-- An environment is read as its texts are. -/
theorem ofEnvironment_eq (bytes : ConfigField → Option ByteArray) :
    ofEnvironment bytes = ofLookup (texts bytes) := rfl

/-- Some bytes are a text that denotes the number. -/
def BytesDenote (b : ByteArray) (n : UInt64) : Prop :=
  ∃ text, String.fromUTF8? b = some text ∧ Denotes text n

/-- No variable of an environment that is set is passed over. -/
structure Heeds (bytes : ConfigField → Option ByteArray) : Prop where
  /-- A configuration that is read has the default of a field only if its variable is unset, and the
  number that its bytes denote if it is set. -/
  of_ok : ∀ c, ofEnvironment bytes = .ok c → ∀ field,
    match bytes field with
    | none => c.get field = field.default
    | some b => BytesDenote b (c.get field)
  /-- If some bytes denote no number, the error names a variable with such bytes. -/
  of_bad : (∃ field b, bytes field = some b ∧ ∀ n, ¬ BytesDenote b n) →
    ∃ e, ofEnvironment bytes = .error e ∧
      ∃ b, bytes e.field = some b ∧ ∀ n, ¬ BytesDenote b n

/-- Bytes that are a text denote what the text denotes. -/
theorem bytesDenote_iff {b : ByteArray} {text : String} (h : String.fromUTF8? b = some text) :
    BytesDenote b n ↔ Denotes text n := by
  simp [BytesDenote, h]

/-- A bad variable of an environment has bytes that are a text and denote no number. -/
theorem isBad_texts_iff :
    IsBad (texts bytes) field ↔ ∃ b text, bytes field = some b ∧
      String.fromUTF8? b = some text ∧ ∀ n, ¬ Denotes text n := by
  simp only [IsBad, texts, Option.bind_eq_some_iff]
  constructor
  · rintro ⟨text, ⟨b, hb, htext⟩, hnone⟩
    exact ⟨b, text, hb, htext, hnone⟩
  · rintro ⟨b, text, hb, htext, hnone⟩
    exact ⟨text, ⟨b, hb, htext⟩, hnone⟩

/-- If some variable of an environment is bad, the error names one whose bytes denote no number. -/
theorem exists_error_of_isBad (h : ∃ field, IsBad (texts bytes) field) :
    ∃ e, ofEnvironment bytes = .error e ∧
      ∃ b, bytes e.field = some b ∧ ∀ n, ¬ BytesDenote b n := by
  obtain ⟨e, he⟩ := exists_error_iff.2 h
  obtain ⟨b, text, hb, htext, hnone⟩ := isBad_texts_iff.1 (isBad_of_ofLookup_eq_error he)
  exact ⟨e, he, b, hb, fun n hn => hnone n ((bytesDenote_iff htext).1 hn)⟩

/-- What is read from the bytes of an environment, and when a variable is passed over.

* A configuration is read exactly if it has, for each field, the number that the text of its
  variable denotes, or the default if the variable is unset or its bytes are no text.
* An error names a variable whose bytes are a text that denotes no number.
* No variable that is set is passed over exactly if some bytes are such a text, so that there is an
  error, or all bytes are texts. -/
theorem heeds_iff (bytes : ConfigField → Option ByteArray) :
    (∀ c, ofEnvironment bytes = .ok c ↔ ∀ field, Gives (texts bytes) field (c.get field)) ∧
      (∀ e, ofEnvironment bytes = .error e → IsBad (texts bytes) e.field) ∧
      (Heeds bytes ↔ (∃ field, IsBad (texts bytes) field) ∨
        ∀ field b, bytes field = some b → ∃ text, String.fromUTF8? b = some text) := by
  have hok : ∀ c, ofEnvironment bytes = .ok c ↔
      ∀ field, Gives (texts bytes) field (c.get field) := fun c => ofLookup_eq_ok_iff_gives
  have herror : ∀ e, ofEnvironment bytes = .error e → IsBad (texts bytes) e.field := fun _ he =>
    isBad_of_ofLookup_eq_error he
  refine ⟨hok, herror, ?_, ?_⟩
  · intro hheeds
    by_contra hneither
    push Not at hneither
    obtain ⟨hgood, field, b, hb, hno⟩ := hneither
    -- bytes that are no text denote nothing, but are not what an error is about
    have hnone : ∀ n, ¬ BytesDenote b n := fun n ⟨text, htext, _⟩ => hno text htext
    obtain ⟨e, he, -⟩ := hheeds.of_bad ⟨field, b, hb, hnone⟩
    exact hgood e.field (herror e he)
  · intro h
    refine ⟨fun c hc field => ?_, fun hsome => exists_error_of_isBad ?_⟩
    · have hgives := (hok c).1 hc field
      have hgood : ¬ ∃ field, IsBad (texts bytes) field := fun hbad => by
        obtain ⟨e, he⟩ := exists_error_iff.2 hbad
        cases he.symm.trans hc
      unfold Gives texts at hgives
      rcases hb : bytes field with _ | b
      · rwa [hb] at hgives
      · obtain ⟨text, htext⟩ := h.resolve_left hgood field b hb
        rw [hb, Option.bind_some, htext] at hgives
        exact (bytesDenote_iff htext).2 hgives
    · obtain ⟨field, b, hb, hnone⟩ := hsome
      rcases h with hbad | htexts
      · exact hbad
      · obtain ⟨text, htext⟩ := htexts field b hb
        simp only [bytesDenote_iff htext] at hnone
        exact ⟨field, isBad_texts_iff.2 ⟨b, text, hb, htext, hnone⟩⟩

/-- A byte that is no text is passed over without harm if a variable after it is refused. -/
theorem heeds_iff_strayByteThenWord :
    let bytes : ConfigField → Option ByteArray := fun
      | .flappingThreshold => some ⟨#[255]⟩
      | .maxStartupDelay => some "x".toUTF8
      | _ => none
    let e : EnvError := ⟨.maxStartupDelay, "x", .badDigit⟩
    ofEnvironment bytes = .error e ∧ IsBad (texts bytes) e.field ∧ Heeds bytes := by
  intro bytes e
  have he : ofEnvironment bytes = .error e := by decide +kernel
  obtain ⟨-, herror, hheeds⟩ := heeds_iff bytes
  have hbad := herror e he
  exact ⟨he, hbad, hheeds.2 (.inl ⟨e.field, hbad⟩)⟩

/-- An environment in which one variable is set, to a byte that is no text. -/
def strayByte : ConfigField → Option ByteArray
  | .flappingThreshold => some ⟨#[255]⟩
  | _ => none

/-- A byte that is no text is passed over: the default stands for it. -/
theorem not_heeds_strayByte :
    ofEnvironment strayByte = .ok (ofFields ConfigField.default) ∧ ¬ Heeds strayByte := by
  have htexts : ∀ field, texts strayByte field = none := by
    rintro (_ | _)
    · decide +kernel
    all_goals rfl
  constructor
  · rw [ofEnvironment_eq, ofLookup_eq_ok_iff_gives]
    intro field
    rw [Gives, htexts]
    cases field <;> rfl
  · intro hheeds
    have hnone : ∀ n, ¬ BytesDenote ⟨#[255]⟩ n := fun n ⟨text, htext, _⟩ => by
      have := htext.symm.trans (htexts .flappingThreshold)
      cases this
    obtain ⟨e, he, -⟩ := hheeds.of_bad ⟨.flappingThreshold, _, rfl, hnone⟩
    obtain ⟨text, htext, -⟩ := isBad_of_ofLookup_eq_error he
    cases htext.symm.trans (htexts e.field)

end Config

end Scheduling
