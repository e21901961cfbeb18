import Mathlib.Data.Nat.Digits.Lemmas
import Mathlib.Data.List.Basic
import Scheduling.Ident

/-!
# Hexadecimal texts

The text of an identifier is thirty-two hexadecimal digits with hyphens at their places. A number is
given by its digits, so every such text in lower case is the text of an identifier
(`Uuid.exists_text_iff`): what is known of the texts of all identifiers is known of all texts of
this form.
-/

namespace Scheduling

/-- A number shifted down to one of its digits ends with that digit. -/
theorem ofDigits_div_pow_mod {b : ℕ} {l : List ℕ} (hl : ∀ d ∈ l, d < b) {j : ℕ}
    (hj : j < l.length) : Nat.ofDigits b l / b ^ j % b = l[j] := by
  have hdigit : l[j] < b := hl _ (List.getElem_mem hj)
  rw [Nat.ofDigits_div_pow_eq_ofDigits_drop j (by omega) l hl, List.drop_eq_getElem_cons hj,
    Nat.ofDigits_cons, Nat.add_mul_mod_self_left, Nat.mod_eq_of_lt hdigit]

namespace Uuid

/-- A hexadecimal digit of either case. -/
def isHexDigitOfAnyCase (c : Char) : Bool := isHexDigit c || ('A' ≤ c && c ≤ 'F')

/-- Digits in groups of 8, 4, 4, 4 and 12 with hyphens between them. -/
def hyphenated (d : List Char) : List Char :=
  d.take 8 ++ '-' :: ((d.drop 8).take 4 ++ '-' :: ((d.drop 12).take 4 ++
    '-' :: ((d.drop 16).take 4 ++ '-' :: d.drop 20)))

/-- The text consists of thirty-two digits with hyphens at their places. -/
def IsHyphenated (isDigit : Char → Bool) (u : String) : Prop :=
  ∃ d : List Char, d.length = 32 ∧ (∀ c ∈ d, isDigit c = true) ∧ u.toList = hyphenated d

variable {c : Char} {d : List Char} {u : String}

/-- The characters of a hyphenated text are its digits and hyphens. -/
theorem mem_or_eq_of_mem_hyphenated (h : c ∈ hyphenated d) : c ∈ d ∨ c = '-' := by
  simp only [hyphenated, List.mem_append, List.mem_cons] at h
  rcases h with h | h | h | h | h | h | h | h | h
  · exact .inl (List.mem_of_mem_take h)
  · exact .inr h
  · exact .inl (List.mem_of_mem_drop (List.mem_of_mem_take h))
  · exact .inr h
  · exact .inl (List.mem_of_mem_drop (List.mem_of_mem_take h))
  · exact .inr h
  · exact .inl (List.mem_of_mem_drop (List.mem_of_mem_take h))
  · exact .inr h
  · exact .inl (List.mem_of_mem_drop h)

/-- The codes of the lower-case hexadecimal digits. -/
theorem toNat_of_isHexDigit (h : isHexDigit c = true) :
    (48 ≤ c.toNat ∧ c.toNat ≤ 57) ∨ (97 ≤ c.toNat ∧ c.toNat ≤ 102) := by
  simp only [isHexDigit, Char.isDigit, Bool.or_eq_true, Bool.and_eq_true, decide_eq_true_eq,
    Char.le_def, UInt32.le_iff_toNat_le] at h
  exact h

/-- Hexadecimal digits are no white space. -/
theorem not_isBlank_of_isHexDigitOfAnyCase (h : isHexDigitOfAnyCase c = true) :
    Text.isBlank c = false := by
  have hcode : 48 ≤ c.toNat ∧ c.toNat ≤ 102 := by
    rw [isHexDigitOfAnyCase, Bool.or_eq_true] at h
    rcases h with h | h
    · have := toNat_of_isHexDigit h
      omega
    · simp only [Bool.and_eq_true, decide_eq_true_eq, Char.le_def, UInt32.le_iff_toNat_le] at h
      have h1 : 65 ≤ c.toNat := h.1
      have h2 : c.toNat ≤ 70 := h.2
      omega
  simp [Text.isBlank, Text.inRanges, Text.blankRanges]
  omega

/-- A hyphenated text holds no white space. -/
theorem IsHyphenated.not_isBlank (h : IsHyphenated isHexDigitOfAnyCase u) :
    ∀ c ∈ u.toList, Text.isBlank c = false := by
  intro c hc
  obtain ⟨d, -, hd, htext⟩ := h
  rw [htext] at hc
  rcases mem_or_eq_of_mem_hyphenated hc with hc | rfl
  · exact not_isBlank_of_isHexDigitOfAnyCase (hd c hc)
  · decide

/-- The lower-case hexadecimal digits are the digits of the numbers below sixteen. -/
theorem isHexDigit_iff : isHexDigit c = true ↔ ∃ v : BitVec 4, hexDigit v = c := by
  constructor
  · intro h
    have hchar : Char.ofNat c.toNat = c := Char.ofNat_toNat c
    rcases toNat_of_isHexDigit h with ⟨hlow, hhigh⟩ | ⟨hlow, hhigh⟩
    · refine ⟨BitVec.ofNat 4 (c.toNat - 48), ?_⟩
      interval_cases c.toNat <;> exact hchar
    · refine ⟨BitVec.ofNat 4 (c.toNat - 87), ?_⟩
      interval_cases c.toNat <;> exact hchar
  · rintro ⟨v, rfl⟩
    revert v
    decide

/-- Thirty-two numbers below sixteen are the digits of an identifier. -/
theorem exists_digits_eq_map (vs : List (BitVec 4)) (hlength : vs.length = 32) :
    ∃ uuid : Uuid, uuid.digits = vs.map hexDigit := by
  let l : List ℕ := vs.reverse.map BitVec.toNat
  have hl : ∀ d ∈ l, d < 16 := by
    intro d hd
    obtain ⟨v, -, rfl⟩ := List.mem_map.1 hd
    exact v.isLt
  have hlLength : l.length = 32 := by simp [l, hlength]
  have hlt : Nat.ofDigits 16 l < 2 ^ 128 := by
    have h := Nat.ofDigits_lt_base_pow_length (by decide) hl
    rwa [hlLength] at h
  refine ⟨⟨BitVec.ofNat 128 (Nat.ofDigits 16 l)⟩, List.ext_getElem (by simp [digits, hlength]) ?_⟩
  intro i hi _
  have hi : i < 32 := by simpa [digits] using hi
  -- four bits are one digit, counted from the other end
  have hshift : 124 - 4 * i = 4 * (31 - i) := by omega
  have hdigit := ofDigits_div_pow_mod hl (j := 31 - i) (by omega)
  have hget : l[31 - i] = vs[i].toNat := by
    simp [l, hlength]
    congr
    omega
  rw [hget] at hdigit
  simp only [digits, List.getElem_map, List.getElem_range]
  congr 1
  apply BitVec.eq_of_toNat_eq
  rw [BitVec.extractLsb'_toNat, BitVec.toNat_ofNat, Nat.mod_eq_of_lt hlt, Nat.shiftRight_eq_div_pow,
    hshift, Nat.pow_mul]
  exact hdigit

/-- The texts of identifiers are the hyphenated texts of lower-case digits. -/
theorem exists_text_iff :
    (∃ uuid : Uuid, String.ofList uuid.text = u) ↔ IsHyphenated isHexDigit u := by
  constructor
  · rintro ⟨uuid, rfl⟩
    refine ⟨uuid.digits, by simp [digits], fun c hc => ?_, String.toList_ofList⟩
    obtain ⟨i, -, rfl⟩ := List.mem_map.1 hc
    exact isHexDigit_iff.2 ⟨_, rfl⟩
  · rintro ⟨d, hlength, hd, htext⟩
    -- the digits are those of numbers below sixteen, and such numbers make an identifier
    have hrange : d ∈ Set.range (List.map hexDigit) := by
      rw [Set.range_list_map]
      exact fun c hc => isHexDigit_iff.1 (hd c hc)
    obtain ⟨vs, rfl⟩ := hrange
    obtain ⟨uuid, huuid⟩ := exists_digits_eq_map vs (by simpa using hlength)
    refine ⟨uuid, ?_⟩
    rw [← String.toList_inj, String.toList_ofList, htext, ← huuid]
    rfl

end Uuid

end Scheduling
