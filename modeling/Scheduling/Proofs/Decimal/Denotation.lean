import Mathlib.Data.List.TakeWhile
import Mathlib.Tactic.Common
import Scheduling.Decimal.Whole
import Scheduling.Text.Blank

/-!
# The numbers that texts denote

A text denotes a whole number if, between white space, it is the number's digits, perhaps with zeros
and one plus sign before them. `Text.Trims` and `Decimal.IsNumeral` say this without a reader;
`Decimal.readWhole` finds just these numbers (`readWhole_eq_ok_iff`).

A text that denotes none is refused for one of three reasons, which exclude each other
(`readWhole_eq_error_iff`). Nothing is left of it between its white space; or its first digits
exceed the largest number, before anything else is wrong with it; or neither, and then it has a
character that is no digit, or no digits at all. The reader takes one character at a time, so all of
this is an induction over the digits with what those before them are worth.
-/

namespace Scheduling

/-! ## White space around a text -/

/-- Some characters without the white space at their two ends. -/
def Text.Trims (s core : List Char) : Prop :=
  ∃ before after, s = before ++ core ++ after ∧
    (∀ c ∈ before, isBlank c = true) ∧ (∀ c ∈ after, isBlank c = true) ∧
    (∀ c ∈ core.head?, isBlank c = false) ∧ ∀ c ∈ core.getLast?, isBlank c = false

namespace Text

/-- White space in front is dropped, up to the first character that is none. -/
theorem dropWhile_isBlank_append {before rest : List Char} (hb : ∀ c ∈ before, isBlank c = true)
    (hr : ∀ c ∈ rest.head?, isBlank c = false) : (before ++ rest).dropWhile isBlank = rest := by
  rw [List.dropWhile_append_of_pos hb]
  cases rest with
  | nil => rfl
  | cons c rest => simp [hr c (by simp)]

/-- What is left of white space that is dropped in front does not start with any. -/
theorem isBlank_head?_dropWhile (s : List Char) :
    ∀ c ∈ (s.dropWhile isBlank).head?, isBlank c = false := fun c hc => by
  have := List.head?_dropWhile_not isBlank s
  rw [Option.mem_def.1 hc] at this
  exact this

/-- Trimming leaves what stands between the white space at the two ends. -/
theorem trimBlanks_eq_iff {s core : List Char} : trimBlanks s = core ↔ Trims s core := by
  constructor
  · rintro rfl
    -- the white space that is dropped at either end is what is taken there
    refine ⟨s.takeWhile isBlank, ((s.dropWhile isBlank).reverse.takeWhile isBlank).reverse, ?_,
      fun c => List.mem_takeWhile_imp, fun c hc => List.mem_takeWhile_imp (List.mem_reverse.1 hc),
      ?_, ?_⟩
    · rw [trimBlanks, List.append_assoc, ← List.reverse_append, List.takeWhile_append_dropWhile,
        List.reverse_reverse, List.takeWhile_append_dropWhile]
    · intro c hc
      -- what is left at the end is a first part of what is left in front
      have hprefix : trimBlanks s <+: s.dropWhile isBlank := by
        rw [trimBlanks, ← List.reverse_suffix, List.reverse_reverse]
        exact List.dropWhile_suffix _
      obtain ⟨rest, hrest⟩ := hprefix
      refine isBlank_head?_dropWhile s c ?_
      rw [← hrest, List.head?_append, Option.mem_def.1 hc]
      rfl
    · intro c hc
      rw [trimBlanks, List.getLast?_reverse] at hc
      exact isBlank_head?_dropWhile _ c hc
  · rintro ⟨before, after, rfl, hbefore, hafter, hhead, hlast⟩
    have hrev : ∀ c ∈ after.reverse, isBlank c = true := fun c hc =>
      hafter c (List.mem_reverse.1 hc)
    have hback : (after.reverse ++ core.reverse).dropWhile isBlank = core.reverse :=
      dropWhile_isBlank_append hrev (by rwa [List.head?_reverse])
    rcases core with _ | ⟨c, rest⟩
    · have hall : ∀ c ∈ before ++ [] ++ after, isBlank c = true := by
        simpa [or_imp, forall_and] using ⟨hbefore, hafter⟩
      rw [trimBlanks, List.dropWhile_eq_nil_iff.2 hall]
      rfl
    · have hfront : (before ++ (c :: rest ++ after)).dropWhile isBlank = c :: rest ++ after :=
        dropWhile_isBlank_append hbefore hhead
      rw [trimBlanks, List.append_assoc, hfront, List.reverse_append, hback, List.reverse_reverse]

end Text

namespace Decimal

/-! ## Numerals -/

/-- Nothing, or one plus sign. -/
def IsSign (sign : List Char) : Prop := sign = [] ∨ sign = ['+']

/-- Some characters are the digits of a number, with any zeros in front, after a sign. -/
def IsNumeral (s : List Char) (n : ℕ) : Prop :=
  ∃ sign digits, s = sign ++ digits ∧ IsSign sign ∧ digits ≠ [] ∧
    (∀ c ∈ digits, c.isDigit = true) ∧ Nat.ofDigitChars 10 digits 0 = n

/-- The first digits of some characters, after a sign, exceed every number of 64 bits. -/
def Exceeds (s : List Char) : Prop :=
  ∃ sign digits rest, s = sign ++ digits ++ rest ∧ IsSign sign ∧
    (∀ c ∈ digits, c.isDigit = true) ∧ UInt64.size ≤ Nat.ofDigitChars 10 digits 0

/-- A text denotes a number of 64 bits: it is a numeral of it between white space. -/
def Denotes (text : String) (n : UInt64) : Prop :=
  ∃ core, Text.Trims text.toList core ∧ IsNumeral core n.toNat

/-- Some characters without a plus sign in front. -/
def withoutSign : List Char → List Char
  | '+' :: rest => rest
  | s => s

variable {s digits : List Char} {read n : ℕ}

/-- What follows a sign, if it starts with a digit, is what is left without one. -/
theorem withoutSign_eq_cons_iff {c : Char} (hc : c.isDigit = true) :
    withoutSign s = c :: digits ↔ ∃ sign, s = sign ++ c :: digits ∧ IsSign sign := by
  have hplus : c ≠ '+' := by
    rintro rfl
    exact absurd hc (by decide)
  constructor
  · intro h
    unfold withoutSign at h
    split at h
    · exact ⟨['+'], by rw [h]; rfl, .inr rfl⟩
    · exact ⟨[], h, .inl rfl⟩
  · rintro ⟨sign, rfl, rfl | rfl⟩
    · rw [withoutSign.eq_def]
      split
      · next h => exact absurd (List.cons.inj h).1 hplus
      · rfl
    · rfl

/-- A numeral is what is left of it without a sign: one digit or more. -/
theorem isNumeral_iff :
    IsNumeral s n ↔ withoutSign s ≠ [] ∧ (∀ c ∈ withoutSign s, c.isDigit = true) ∧
      Nat.ofDigitChars 10 (withoutSign s) 0 = n := by
  constructor
  · rintro ⟨sign, digits, hs, hsign, hne, hd, hn⟩
    obtain ⟨c, rest, rfl⟩ := List.exists_cons_of_ne_nil hne
    rw [(withoutSign_eq_cons_iff (hd c (by simp))).2 ⟨sign, hs, hsign⟩]
    exact ⟨hne, hd, hn⟩
  · rintro ⟨hne, hd, hn⟩
    obtain ⟨c, rest, hrest⟩ := List.exists_cons_of_ne_nil hne
    rw [hrest] at hd hn
    obtain ⟨sign, hs, hsign⟩ := (withoutSign_eq_cons_iff (hd c (by simp))).1 hrest
    exact ⟨sign, c :: rest, hs, hsign, List.cons_ne_nil c rest, hd, hn⟩

/-- Digits that exceed all numbers after a sign do so without it. -/
theorem exceeds_iff :
    Exceeds s ↔ ∃ digits rest, withoutSign s = digits ++ rest ∧
      (∀ c ∈ digits, c.isDigit = true) ∧ UInt64.size ≤ Nat.ofDigitChars 10 digits 0 := by
  -- no digits at all exceed nothing
  have hne : ∀ digits, UInt64.size ≤ Nat.ofDigitChars 10 digits 0 → digits ≠ [] := by
    rintro _ hle rfl
    exact absurd hle (by decide)
  constructor
  · rintro ⟨sign, digits, rest, hs, hsign, hd, hle⟩
    obtain ⟨c, digits, rfl⟩ := List.exists_cons_of_ne_nil (hne _ hle)
    rw [List.append_assoc] at hs
    exact ⟨c :: digits, rest, (withoutSign_eq_cons_iff (hd c (by simp))).2 ⟨sign, hs, hsign⟩, hd,
      hle⟩
  · rintro ⟨digits, rest, hs, hd, hle⟩
    obtain ⟨c, digits, rfl⟩ := List.exists_cons_of_ne_nil (hne _ hle)
    obtain ⟨sign, hs, hsign⟩ := (withoutSign_eq_cons_iff (hd c (by simp))).1 hs
    exact ⟨sign, c :: digits, rest, by rw [hs, List.append_assoc]; rfl, hsign, hd, hle⟩

/-! ## Reading digit by digit -/

/-- Digits are read if they are nothing else, and as their value, which must fit. -/
theorem readDigits_eq_ok_iff (h : read < UInt64.size) :
    readDigits read s = .ok n ↔
      (∀ c ∈ s, c.isDigit = true) ∧ Nat.ofDigitChars 10 s read = n ∧ n < UInt64.size := by
  constructor
  · intro hread
    induction s generalizing read with
    | nil =>
      obtain rfl := Except.ok.inj hread
      exact ⟨by simp, rfl, h⟩
    | cons c rest ih =>
      rw [readDigits] at hread
      split at hread
      · cases hread
      · next hc =>
        split at hread
        · cases hread
        · next hlt =>
          obtain ⟨hd, hn, hfits⟩ := ih (Nat.not_le.1 hlt) hread
          refine ⟨List.forall_mem_cons.2 ⟨eq_true_of_ne_false hc, hd⟩, ?_, hfits⟩
          rw [Nat.ofDigitChars_cons]
          exact hn
  · rintro ⟨hd, rfl, hlt⟩
    exact readDigits_eq_ok read hd hlt

/-- Reading breaks off as too large where the first digits exceed all numbers. -/
theorem readDigits_eq_tooLarge_iff (h : read < UInt64.size) :
    readDigits read s = .error .tooLarge ↔
      ∃ digits rest, s = digits ++ rest ∧ (∀ c ∈ digits, c.isDigit = true) ∧
        UInt64.size ≤ Nat.ofDigitChars 10 digits read := by
  induction s generalizing read with
  | nil =>
    refine iff_of_false (by simp [readDigits]) ?_
    rintro ⟨digits, rest, hs, -, hle⟩
    obtain ⟨rfl, -⟩ := List.append_eq_nil_iff.1 hs.symm
    exact absurd hle (Nat.not_le.2 h)
  | cons c rest ih =>
    rw [readDigits]
    split
    · next hc =>
      refine iff_of_false (by simp) ?_
      rintro ⟨_ | ⟨d, digits⟩, rest', hs, hd, hle⟩
      · exact absurd hle (Nat.not_le.2 h)
      · obtain rfl := (List.cons.inj hs).1
        exact absurd (hd c (by simp)) (by simp [hc])
    · next hc =>
      have hc' : c.isDigit = true := eq_true_of_ne_false hc
      split
      · next hle =>
        refine iff_of_true rfl ⟨[c], rest, rfl, by simpa using hc', ?_⟩
        rw [Nat.ofDigitChars_cons, Nat.ofDigitChars_nil]
        exact hle
      · next hlt =>
        rw [ih (Nat.not_le.1 hlt)]
        constructor
        · rintro ⟨digits, rest', rfl, hd, hle⟩
          refine ⟨c :: digits, rest', rfl, List.forall_mem_cons.2 ⟨hc', hd⟩, ?_⟩
          rw [Nat.ofDigitChars_cons]
          exact hle
        · rintro ⟨_ | ⟨d, digits⟩, rest', hs, hd, hle⟩
          · exact absurd hle (Nat.not_le.2 h)
          · obtain ⟨rfl, rfl⟩ := List.cons.inj hs
            rw [Nat.ofDigitChars_cons] at hle
            exact ⟨digits, rest', rfl, fun d hmem => hd d (List.mem_cons_of_mem c hmem), hle⟩

/-- Digits that are there are not reported as absent. -/
theorem readDigits_ne_empty : readDigits read s ≠ .error .empty := by
  fun_induction readDigits read s with
  | case1 => simp
  | case2 => simp
  | case3 => simp
  | case4 _ _ _ _ _ ih => exact ih

/-- Reading takes off a sign and reads the digits after it. -/
theorem readWhole_eq (s : List Char) :
    readWhole s =
      if s = [] then .error .empty
      else if withoutSign s = [] then .error .badDigit
      else UInt64.ofNat <$> readDigits 0 (withoutSign s) := by
  unfold readWhole withoutSign
  split <;> simp_all

/-- The number that is read is the one of which the text is a numeral. -/
theorem readWhole_eq_ok_iff {n : UInt64} : readWhole s = .ok n ↔ IsNumeral s n.toNat := by
  have hdigits := readDigits_eq_ok_iff (s := withoutSign s) (n := n.toNat) (by decide : 0 < _)
  have hnumber : UInt64.ofNat <$> readDigits 0 (withoutSign s) = .ok n ↔
      readDigits 0 (withoutSign s) = .ok n.toNat := by
    rcases hread : readDigits 0 (withoutSign s) with fault | m
    · simp
    · -- what was read fits, so that nothing is lost when it becomes a machine number
      obtain ⟨-, -, hlt⟩ := (readDigits_eq_ok_iff (by decide)).1 hread
      constructor
      · intro h
        rw [← Except.ok.inj h, UInt64.toNat_ofNat_of_lt' hlt]
      · intro h
        rw [Except.ok.inj h]
        exact congrArg Except.ok UInt64.ofNat_toNat
  rw [readWhole_eq, isNumeral_iff]
  by_cases hs : s = []
  · subst hs
    simp [withoutSign]
  · by_cases hw : withoutSign s = []
    · simp [hs, hw]
    · rw [if_neg hs, if_neg hw, hnumber, hdigits]
      simp [hw, n.toNat_lt_size]

/-- What is refused as empty is empty. -/
theorem readWhole_eq_empty_iff : readWhole s = .error .empty ↔ s = [] := by
  rw [readWhole_eq]
  by_cases hs : s = []
  · simp [hs]
  · by_cases hw : withoutSign s = []
    · simp [hs, hw]
    · rw [if_neg hs, if_neg hw]
      refine iff_of_false (fun h => ?_) hs
      rcases hread : readDigits 0 (withoutSign s) with fault | m
      · rw [hread] at h
        obtain rfl := Except.error.inj h
        exact readDigits_ne_empty hread
      · rw [hread] at h
        cases h

/-- What is refused as too large exceeds all numbers before anything else is wrong with it. -/
theorem readWhole_eq_tooLarge_iff : readWhole s = .error .tooLarge ↔ Exceeds s := by
  have hfault : ∀ x : Except WholeFault ℕ,
      UInt64.ofNat <$> x = .error .tooLarge ↔ x = .error .tooLarge := by
    rintro (fault | m) <;> simp
  rw [readWhole_eq, exceeds_iff, ← readDigits_eq_tooLarge_iff (by decide)]
  by_cases hs : s = []
  · subst hs
    simp [withoutSign, readDigits]
  · by_cases hw : withoutSign s = []
    · simp [hs, hw, readDigits]
    · rw [if_neg hs, if_neg hw, hfault]

/-- The fault of some characters that are no numeral. -/
def HasFault (s : List Char) : WholeFault → Prop
  | .empty => s = []
  | .tooLarge => Exceeds s
  | .badDigit => s ≠ [] ∧ ¬ Exceeds s

/-- What exceeds all numbers is not empty. -/
theorem Exceeds.ne_nil (h : Exceeds s) : s ≠ [] := by
  intro hs
  cases (readWhole_eq_tooLarge_iff.2 h).symm.trans (readWhole_eq_empty_iff.2 hs)

/-- Some characters have one fault. -/
theorem HasFault.unique {fault fault' : WholeFault} (h : HasFault s fault)
    (h' : HasFault s fault') : fault = fault' := by
  have hnil : Exceeds s → s ≠ [] := Exceeds.ne_nil
  cases fault <;> cases fault' <;> simp_all [HasFault]

/-- What is refused is refused for the fault that it has. -/
theorem hasFault_of_readWhole {fault : WholeFault} (h : readWhole s = .error fault) :
    HasFault s fault := by
  cases fault with
  | empty => exact readWhole_eq_empty_iff.1 h
  | tooLarge => exact readWhole_eq_tooLarge_iff.1 h
  | badDigit =>
    constructor
    · intro hs
      rw [readWhole_eq_empty_iff.2 hs] at h
      cases h
    · intro hlarge
      rw [readWhole_eq_tooLarge_iff.2 hlarge] at h
      cases h

/-- What is refused is no numeral, and it is refused for the fault that it has. -/
theorem readWhole_eq_error_iff {fault : WholeFault} :
    readWhole s = .error fault ↔ (∀ n : UInt64, ¬ IsNumeral s n.toNat) ∧ HasFault s fault := by
  simp only [← readWhole_eq_ok_iff]
  constructor
  · intro h
    refine ⟨fun n hn => ?_, hasFault_of_readWhole h⟩
    rw [h] at hn
    cases hn
  · rintro ⟨hnone, hfault⟩
    rcases hread : readWhole s with fault' | n
    · exact congrArg Except.error ((hasFault_of_readWhole hread).unique hfault)
    · exact absurd hread (hnone n)

/-- The wordings of the faults say which one it is. -/
theorem hasFault_iff_message {fault : WholeFault} :
    HasFault s fault ↔
      (fault.message = "cannot parse integer from empty string" ↔ s = []) ∧
        (fault.message = "number too large to fit in target type" ↔ Exceeds s) ∧
        (fault.message = "invalid digit found in string" ↔ s ≠ [] ∧ ¬ Exceeds s) := by
  have hnil : Exceeds s → s ≠ [] := Exceeds.ne_nil
  cases fault with
  | empty =>
    simp only [HasFault, WholeFault.message]
    grind
  | tooLarge =>
    simp only [HasFault, WholeFault.message]
    grind
  | badDigit =>
    simp only [HasFault, WholeFault.message]
    grind

/-! ## Texts -/

/-- A text denotes a number if that is what is read between its white space. -/
theorem denotes_iff {text : String} {n : UInt64} :
    Denotes text n ↔ readWhole (Text.trimBlanks text.toList) = .ok n := by
  rw [readWhole_eq_ok_iff]
  constructor
  · rintro ⟨core, hcore, hn⟩
    rwa [Text.trimBlanks_eq_iff.2 hcore]
  · intro hn
    exact ⟨_, Text.trimBlanks_eq_iff.1 rfl, hn⟩

/-- A text is refused if it denotes nothing, for the fault of what is left of it between its white
space. -/
theorem readWhole_trimBlanks_eq_error_iff {text : String} {fault : WholeFault} :
    readWhole (Text.trimBlanks text.toList) = .error fault ↔
      (∀ n, ¬ Denotes text n) ∧ ∃ core, Text.Trims text.toList core ∧ HasFault core fault := by
  simp only [denotes_iff, ← Text.trimBlanks_eq_iff, exists_eq_left', readWhole_eq_error_iff,
    readWhole_eq_ok_iff]

end Decimal

end Scheduling
