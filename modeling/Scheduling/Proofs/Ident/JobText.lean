import Mathlib.Data.Set.Function
import Scheduling.Ident
import Scheduling.Proofs.Checks

/-!
# Texts of job names

The text of a job's name is its three words with slashes between them. Reading cuts a text at its
slashes and takes the three pieces as words. Since no word holds a slash, the pieces of a name's
text are its words (`JobKey.parse_text`), and since pieces joined again are the text
(`Text.joined_pieces`), a text that is read as a name is the text of that name
(`JobKey.parse_eq_ok_iff`). So names and the texts that are read correspond one to one
(`JobKey.bijOn_text_parse`).
-/

namespace Scheduling

/-- A text is read as the word that it is. -/
theorem readWord_eq_ok_iff {refused : Char → Bool} {s : String}
    {w : { w : String // IsWord refused w }} : readWord refused s = .ok w ↔ w.1 = s := by
  constructor
  · intro h
    unfold readWord at h
    split at h
    · cases h
    · split at h
      · cases h
      · obtain rfl := Except.ok.inj h
        rfl
  · rintro rfl
    exact readWord_eq_ok w.2

namespace JobKey

/-- A text that can stand as a word in the name of a job. -/
structure IsComponent (s : String) : Prop where
  /-- There is a text. -/
  ne_empty : s ≠ ""
  /-- It holds no slash. -/
  slash_not_mem : '/' ∉ s.toList
  /-- It holds no white space. -/
  not_isBlank : ∀ c ∈ s.toList, Text.isBlank c = false

/-- The texts that can stand as words are those without a refused character. -/
theorem isComponent_iff {s : String} : IsComponent s ↔ IsWord refused s := by
  constructor
  · intro h
    refine ⟨h.ne_empty, fun c hc => ?_⟩
    have hslash : c ≠ separator := fun heq => h.slash_not_mem (by rwa [heq] at hc)
    simp [refused, hslash, h.not_isBlank c hc]
  · intro h
    exact ⟨h.1, separator_not_mem h, TaskId.not_isBlank_of_isWord h⟩

/-- Three texts make the name whose words they are. -/
theorem ofWords_eq_ok_iff {role environment name : String} {k : JobKey} :
    ofWords role environment name = .ok k ↔
      k.role = role ∧ k.environment = environment ∧ k.name = name := by
  constructor
  · intro h
    obtain ⟨r, hrole, h⟩ := bind_eq_ok_iff.1 h
    obtain ⟨e, henvironment, h⟩ := bind_eq_ok_iff.1 h
    obtain ⟨n, hname, h⟩ := bind_eq_ok_iff.1 h
    obtain rfl := Except.ok.inj h
    exact ⟨readWord_eq_ok_iff.1 hrole, readWord_eq_ok_iff.1 henvironment,
      readWord_eq_ok_iff.1 hname⟩
  · rintro ⟨rfl, rfl, rfl⟩
    unfold ofWords
    rw [readWord_eq_ok k.role_isWord, readWord_eq_ok k.environment_isWord,
      readWord_eq_ok k.name_isWord]
    rfl

/-- A text is read as the name whose text it is. -/
theorem parse_eq_ok_iff {s : String} {k : JobKey} : parse s = .ok k ↔ k.text = s := by
  constructor
  · intro h
    unfold parse at h
    split at h
    · cases h
    · split at h
      · next role environment name hpieces =>
        obtain ⟨hrole, henvironment, hname⟩ := ofWords_eq_ok_iff.1 h
        -- the words are the pieces of the text, and the pieces joined again are the text
        have hjoined := Text.joined_pieces separator s.toList
        rw [hpieces] at hjoined
        rw [← String.toList_inj, ← hjoined, text, hrole, henvironment, hname]
        simp [Text.joined, separator]
      · cases h
  · rintro rfl
    exact parse_text k

/-- A text is read as the name of certain words exactly when it consists of them, and each can stand
as a word. -/
theorem exists_parse_words_iff {s role environment name : String} :
    (∃ k, parse s = .ok k ∧ k.role = role ∧ k.environment = environment ∧ k.name = name) ↔
      s = role ++ "/" ++ environment ++ "/" ++ name ∧
        IsComponent role ∧ IsComponent environment ∧ IsComponent name := by
  constructor
  · rintro ⟨k, hk, rfl, rfl, rfl⟩
    exact ⟨(parse_eq_ok_iff.1 hk).symm, isComponent_iff.2 k.role_isWord,
      isComponent_iff.2 k.environment_isWord, isComponent_iff.2 k.name_isWord⟩
  · rintro ⟨rfl, hrole, henvironment, hname⟩
    exact ⟨⟨role, environment, name, isComponent_iff.1 hrole, isComponent_iff.1 henvironment,
      isComponent_iff.1 hname⟩, parse_eq_ok_iff.2 rfl, rfl, rfl, rfl⟩

/-- Names with one text are one name. -/
theorem text_injective : Function.Injective text := fun _ k' h =>
  Except.ok.inj ((parse_eq_ok_iff.2 h).symm.trans (parse_text k'))

/-- Names of jobs and the texts that are read as names correspond one to one.

* A text is read as a name exactly when it consists of three words with slashes between them, none
  of them empty, and none with a slash or white space in it.
* The words of the name are these words and no others.
* What a text is read as is the name whose text it is.
* Each name is made of its words, and is what its text is read as.
* Hence every name has a text that is read, no two names have the same one, and every text that is
  read is the text of a name. -/
theorem bijOn_text_parse :
    (∀ s, (∃ k, parse s = .ok k) ↔ ∃ role environment name,
        s = role ++ "/" ++ environment ++ "/" ++ name ∧
          IsComponent role ∧ IsComponent environment ∧ IsComponent name) ∧
      (∀ s role environment name,
        (∃ k, parse s = .ok k ∧ k.role = role ∧ k.environment = environment ∧ k.name = name) ↔
          s = role ++ "/" ++ environment ++ "/" ++ name ∧
            IsComponent role ∧ IsComponent environment ∧ IsComponent name) ∧
      (∀ s k, parse s = .ok k ↔ k.text = s) ∧
      (∀ k : JobKey, ofWords k.role k.environment k.name = .ok k ∧ parse k.text = .ok k) ∧
      Set.BijOn text Set.univ {s | ∃ k, parse s = .ok k} := by
  refine ⟨fun s => ?_, fun _ _ _ _ => exists_parse_words_iff, fun _ _ => parse_eq_ok_iff,
    fun k => ⟨ofWords_eq_ok_iff.2 ⟨rfl, rfl, rfl⟩, parse_text k⟩, ?_⟩
  · constructor
    · rintro ⟨k, hk⟩
      exact ⟨k.role, k.environment, k.name, exists_parse_words_iff.1 ⟨k, hk, rfl, rfl, rfl⟩⟩
    · rintro ⟨role, environment, name, h⟩
      obtain ⟨k, hk, -⟩ := exists_parse_words_iff.2 h
      exact ⟨k, hk⟩
  · refine ⟨fun k _ => ⟨k, parse_text k⟩, text_injective.injOn, ?_⟩
    rintro s ⟨k, hk⟩
    exact ⟨k, Set.mem_univ k, parse_eq_ok_iff.1 hk⟩

end JobKey

end Scheduling
