import Mathlib.Data.List.Basic
import Scheduling.Proofs.Ident.JobText

/-!
# What is wrong with the name of a job

A name is made of three words, or read from the text in which slashes stand between them. Reading
counts the slashes first: unless there are two, the text has no three words, and which of its
characters are refused does not matter any more (`JobKey.parse_cases`). Words without slashes
therefore lead to the same name in both ways, and else to the same error, which is about the first
of them that cannot stand as a word. A word with a slash in it is refused in both ways, but for
different reasons (`JobKey.parse_agrees_ofWords`).
-/

namespace Scheduling

section Word

variable {refused : Char → Bool} {s : String} {x : IdError}

/-- A text that cannot stand as a word is empty, or the error has its first refused character. -/
theorem readWord_eq_error_iff :
    readWord refused s = .error x ↔ (s = "" ∧ x = .empty) ∨
      (s ≠ "" ∧ ∃ c, IsFirst (fun d => refused d = false) s.toList c ∧
        x = .invalidCharacter s c) := by
  simp only [← find?_eq_some_iff_isFirst]
  unfold readWord
  split
  · next hs => simp [hs, eq_comm]
  · next hs =>
    split
    · next c hc => simp [hs, hc, eq_comm]
    · next hc => simp [hs, hc]

/-- A text that cannot stand as a word is refused. -/
theorem exists_readWord_eq_error (h : ¬ IsWord refused s) : ∃ x, readWord refused s = .error x := by
  rcases hread : readWord refused s with x | w
  · exact ⟨x, rfl⟩
  · have hw : w.1 = s := readWord_eq_ok_iff.1 hread
    exact absurd (hw ▸ w.2) h

/-- What follows the reading of a word fails if the text cannot stand as a word, or after it. -/
theorem readWord_bind_eq_error_iff {β : Type} {f : { w // IsWord refused w } → Except IdError β} :
    readWord refused s >>= f = .error x ↔
      (¬ IsWord refused s ∧ readWord refused s = .error x) ∨
        ∃ h : IsWord refused s, f ⟨s, h⟩ = .error x := by
  by_cases hs : IsWord refused s
  · rw [readWord_eq_ok hs]
    show f ⟨s, hs⟩ = .error x ↔ _
    simp [hs]
  · obtain ⟨y, hy⟩ := exists_readWord_eq_error hs
    rw [hy]
    show (Except.error y : Except IdError β) = .error x ↔ _
    simp [hs]

end Word

namespace JobKey

/-! ## Three words -/

section Words

variable {role environment name : String} {x : IdError}

/-- A name is made of three texts unless one of them cannot stand as a word, and the error is about
the first that cannot. -/
theorem ofWords_eq_error_iff :
    ofWords role environment name = .error x ↔
      ∃ w, IsFirst (IsWord refused) [role, environment, name] w ∧
        readWord refused w = .error x := by
  unfold ofWords
  simp only [readWord_bind_eq_error_iff, exists_isFirst_cons_iff, not_isFirst_nil, false_and,
    exists_false, and_false, or_false, pure, Except.pure, reduceCtorEq, exists_prop]

/-- What is wrong with a text without slashes that cannot stand as a word: there is none, or it has
white space, of which the error has the first character. -/
def HasFault (s : String) (x : IdError) : Prop :=
  (s = "" ∧ x = .empty) ∨
    ∃ c, IsFirst (fun d => Text.isBlank d = false) s.toList c ∧ x = .invalidCharacter s c

/-- A text without slashes is refused for what is wrong with it. -/
theorem readWord_eq_error_iff_hasFault {s : String} (h : '/' ∉ s.toList) :
    readWord refused s = .error x ↔ HasFault s x := by
  have hrefused : ∀ d ∈ s.toList, refused d = false ↔ Text.isBlank d = false := fun d hd => by
    have hslash : d ≠ separator := fun heq => h (by rwa [heq] at hd)
    simp [refused, hslash]
  have hne : ∀ c, IsFirst (fun d => Text.isBlank d = false) s.toList c → s ≠ "" := by
    rintro c hc rfl
    exact not_isFirst_nil hc
  simp only [readWord_eq_error_iff, isFirst_congr hrefused, HasFault]
  refine or_congr_right ⟨fun h => h.2, ?_⟩
  rintro ⟨c, hc, hx⟩
  exact ⟨hne c hc, c, hc, hx⟩

/-- Texts without slashes make a name unless one of them cannot stand as a word, and the error tells
what is wrong with the first that cannot. -/
theorem ofWords_eq_error_iff_hasFault
    (h : ∀ w ∈ [role, environment, name], '/' ∉ w.toList) :
    ofWords role environment name = .error x ↔
      ∃ w, IsFirst IsComponent [role, environment, name] w ∧ HasFault w x := by
  rw [ofWords_eq_error_iff]
  refine exists_congr fun w => ?_
  rw [isFirst_congr fun v _ => isComponent_iff.symm]
  refine and_congr_right fun hw => readWord_eq_error_iff_hasFault (h w ?_)
  obtain ⟨before, after, hwords, -⟩ := hw
  simp [hwords]

/-- The error for three texts is not about their number. -/
theorem ofWords_ne_invalidFormat {t : String} :
    ofWords role environment name ≠ .error (.invalidFormat t) := by
  rw [ne_eq, ofWords_eq_error_iff]
  rintro ⟨w, -, h⟩
  simp [readWord_eq_error_iff] at h

end Words

/-! ## Texts -/

/-- Three texts with slashes between them have two slashes more than the texts. -/
theorem count_slash_joined (role environment name : String) :
    (role ++ "/" ++ environment ++ "/" ++ name).toList.count '/' =
      role.toList.count '/' + environment.toList.count '/' + name.toList.count '/' + 2 := by
  simp only [String.toList_append, List.count_append]
  have hslash : "/".toList.count '/' = 1 := rfl
  omega

/-- How a text is read: it is refused if there is none or if it has not two slashes, and else the
three texts between the slashes are taken as words. -/
theorem parse_cases (s : String) :
    (s = "" ∧ parse s = .error .empty) ∨
      (s ≠ "" ∧ s.toList.count '/' ≠ 2 ∧ parse s = .error (.invalidFormat s)) ∨
      ∃ role environment name, s = role ++ "/" ++ environment ++ "/" ++ name ∧
        (∀ w ∈ [role, environment, name], '/' ∉ w.toList) ∧
        parse s = ofWords role environment name := by
  by_cases hs : s = ""
  · exact .inl ⟨hs, by rw [hs]; rfl⟩
  have hlength := Text.length_pieces separator s.toList
  have hjoined := Text.joined_pieces separator s.toList
  have hno := Text.not_mem_of_mem_pieces separator s.toList
  by_cases hcount : s.toList.count '/' = 2
  · obtain ⟨role, environment, name, hpieces⟩ :=
      List.length_eq_three.1 (hlength.trans (congrArg (· + 1) hcount))
    rw [hpieces] at hjoined hno
    have htext : s = String.ofList role ++ "/" ++ String.ofList environment ++ "/"
        ++ String.ofList name := by
      rw [← String.toList_inj, ← hjoined]
      simp [Text.joined, separator]
    have hwords : ∀ w ∈ [String.ofList role, String.ofList environment, String.ofList name],
        '/' ∉ w.toList := by
      simpa [separator] using hno
    refine .inr (.inr ⟨_, _, _, htext, hwords, ?_⟩)
    unfold parse
    rw [if_neg hs, hpieces]
  · refine .inr (.inl ⟨hs, hcount, ?_⟩)
    unfold parse
    rw [if_neg hs]
    split
    · next hpieces =>
      rw [hpieces] at hlength
      exact absurd (Nat.succ.inj hlength).symm hcount
    · rfl

/-- A text is refused for its form exactly if there is one and it has not two slashes. -/
theorem parse_eq_invalidFormat_iff {s t : String} :
    parse s = .error (.invalidFormat t) ↔ t = s ∧ s ≠ "" ∧ s.toList.count '/' ≠ 2 := by
  obtain ⟨rfl, hparse⟩ | ⟨hs, hcount, hparse⟩ | ⟨role, environment, name, rfl, hwords, hparse⟩ :=
    parse_cases s
  · rw [hparse]
    simp
  · rw [hparse]
    simp [hs, hcount, eq_comm]
  · rw [hparse]
    refine iff_of_false ofWords_ne_invalidFormat ?_
    rintro ⟨-, -, hcount⟩
    have hzero : ∀ w ∈ [role, environment, name], w.toList.count '/' = 0 := fun w hw =>
      List.count_eq_zero.2 (hwords w hw)
    refine hcount ?_
    rw [count_slash_joined, hzero role (by simp), hzero environment (by simp),
      hzero name (by simp)]

/-- No error of reading a text names a slash as the refused character. -/
theorem parse_ne_invalidCharacter_slash {s v : String} :
    parse s ≠ .error (.invalidCharacter v '/') := by
  obtain ⟨-, hparse⟩ | ⟨-, -, hparse⟩ | ⟨role, environment, name, -, hwords, hparse⟩ :=
    parse_cases s
  · rw [hparse]
    simp
  · rw [hparse]
    simp
  · rw [hparse, ne_eq, ofWords_eq_error_iff_hasFault hwords]
    rintro ⟨w, -, ⟨-, hx⟩ | ⟨c, ⟨before, after, -, -, hc⟩, hx⟩⟩
    · cases hx
    · -- the character that is found is white space
      cases hx
      exact hc (by decide)

/-- Three words, and the text in which slashes stand between them.

* Either both make a name, and the same one, or both are refused.
* If one of the words has a slash, the text is refused for its form.
* If none has one, the text leads to what the words lead to. They are refused exactly if there is a
  first of them that cannot stand in a name, and the error tells what is wrong with that one.
* Of all texts, the empty one is refused as empty, and those are refused for their form that are not
  empty and have not two slashes.
* A text is never refused for a slash in one of its words. -/
theorem parse_agrees_ofWords :
    (∀ role environment name : String,
      let s := role ++ "/" ++ environment ++ "/" ++ name
      ((∃ k, ofWords role environment name = .ok k ∧ parse s = .ok k) ∨
          ∃ x y, ofWords role environment name = .error x ∧ parse s = .error y) ∧
        ((∃ w ∈ [role, environment, name], '/' ∈ w.toList) ∧ parse s = .error (.invalidFormat s) ∨
          (∀ w ∈ [role, environment, name], '/' ∉ w.toList) ∧
            parse s = ofWords role environment name ∧
            ∀ x, parse s = .error x ↔
              ∃ w, IsFirst IsComponent [role, environment, name] w ∧ HasFault w x)) ∧
      parse "" = .error .empty ∧
      (∀ s t, parse s = .error (.invalidFormat t) ↔ t = s ∧ s ≠ "" ∧ s.toList.count '/' ≠ 2) ∧
      ∀ s v, parse s ≠ .error (.invalidCharacter v '/') := by
  refine ⟨fun role environment name => ?_, rfl, fun _ _ => parse_eq_invalidFormat_iff,
    fun _ _ => parse_ne_invalidCharacter_slash⟩
  intro s
  by_cases hslash : ∃ w ∈ [role, environment, name], '/' ∈ w.toList
  · have hformat : parse s = .error (.invalidFormat s) := by
      refine parse_eq_invalidFormat_iff.2 ⟨rfl, fun hs => ?_, fun hcount => ?_⟩
      · have hnil : s.toList = [] := by rw [hs]; rfl
        simp [s] at hnil
      · rw [count_slash_joined] at hcount
        obtain ⟨w, hw, hmem⟩ := hslash
        have hpos : 0 < w.toList.count '/' := List.count_pos_iff.2 hmem
        simp only [List.mem_cons, List.not_mem_nil, or_false] at hw
        obtain rfl | rfl | rfl := hw <;> omega
    refine ⟨.inr ?_, .inl ⟨hslash, hformat⟩⟩
    rcases hwords : ofWords role environment name with x | k
    · exact ⟨x, _, rfl, hformat⟩
    · -- the words of a name hold no slash
      obtain ⟨rfl, rfl, rfl⟩ := ofWords_eq_ok_iff.1 hwords
      cases hformat.symm.trans (parse_text k)
  · have hno : ∀ w ∈ [role, environment, name], '/' ∉ w.toList := fun w hw hmem =>
      hslash ⟨w, hw, hmem⟩
    have hparse : parse s = ofWords role environment name :=
      parse_words (hno role (by simp)) (hno environment (by simp)) (hno name (by simp))
    refine ⟨?_, .inr ⟨hno, hparse, fun x => ?_⟩⟩
    · rw [hparse]
      rcases ofWords role environment name with x | k
      · exact .inr ⟨x, x, rfl, rfl⟩
      · exact .inl ⟨k, rfl, rfl⟩
    · rw [hparse]
      exact ofWords_eq_error_iff_hasFault hno

end JobKey

end Scheduling
