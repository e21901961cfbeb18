import Mathlib.Data.List.Basic
import Scheduling.Json.Numeral

/-!
# Numerals read back

A numeral that is well formed, with digits where there must be digits and no zero in front, may be
written in several ways: its exponent starts with a letter of either case, and may have a plus sign
(`HasText`). It is read off each of its texts, whatever follows, unless that would extend it
(`scan_append`). The numeral of an integer is well formed, and it stands for that integer as long as
64 bits hold it (`number_ofInt_of_nonneg`, `number_ofInt_of_neg`): the digits accumulate to their
value without passing the limit, which is `accumulate_of_lt`.
-/

namespace Scheduling.Numeral

/-! ## Splitting a numeral off -/

/-- Every character of a list is a digit. -/
def AreDigits (cs : List Char) : Prop := ∀ c ∈ cs, c.isDigit = true

/-- A numeral that can be written: its whole part has no leading zero, and its exponent has
digits. -/
structure IsWellFormed (n : Numeral) : Prop where
  whole_ne_nil : n.whole ≠ []
  whole_digits : AreDigits n.whole
  no_leading_zero : ¬ (n.whole.head? = some '0' ∧ 1 < n.whole.length)
  fraction_digits : AreDigits n.fraction
  exponent_ne_nil : ∀ e ∈ n.exponent, e.2 ≠ []
  exponent_digits : ∀ e ∈ n.exponent, AreDigits e.2

/-- The character would extend a numeral before it. -/
def continues (c : Char) : Bool := c.isDigit || c = '.' || c = 'e' || c = 'E'

/-- A text that no numeral before it extends into. -/
def Ends (rest : List Char) : Prop := ∀ c ∈ rest.head?, continues c = false

/-- Digits are split off up to the first character that is none. -/
theorem scanDigits_append {digits rest : List Char} (hd : AreDigits digits)
    (hr : ∀ c ∈ rest.head?, c.isDigit = false) :
    scanDigits (digits ++ rest) = (digits, rest) := by
  have hrest : rest.takeWhile Char.isDigit = [] ∧ rest.dropWhile Char.isDigit = rest := by
    cases rest with
    | nil => simp
    | cons c rest => simp [hr c (by simp)]
  rw [scanDigits, List.takeWhile_append_of_pos hd, List.dropWhile_append_of_pos hd, hrest.1,
    hrest.2, List.append_nil]

/-- What ends a numeral starts with no digit. -/
theorem Ends.head_not_isDigit {rest : List Char} (h : Ends rest) :
    ∀ c ∈ rest.head?, c.isDigit = false := fun c hc => by
  have := h c hc
  simp only [continues, Bool.or_eq_false_iff] at this
  exact this.1.1.1

/-- What ends a numeral starts no exponent. -/
theorem scanExponent_of_ends {rest : List Char} (h : Ends rest) :
    scanExponent rest = some (none, rest) := by
  cases rest with
  | nil => rfl
  | cons c rest =>
    have := h c rfl
    simp only [continues, Bool.or_eq_false_iff, decide_eq_false_iff_not] at this
    rw [scanExponent, if_neg (by simp [this])]

/-- A digit is no hyphen and no plus sign. -/
theorem ne_sign_of_isDigit {c : Char} (h : c.isDigit = true) : c ≠ '-' ∧ c ≠ '+' :=
  ⟨by rintro rfl; exact absurd h (by decide), by rintro rfl; exact absurd h (by decide)⟩

/-- Digits have no sign to split off. -/
theorem scanSign_of_digits {digits rest : List Char} (hne : digits ≠ []) (hd : AreDigits digits) :
    scanSign (digits ++ rest) = (false, digits ++ rest) := by
  obtain ⟨c, cs, rfl⟩ := List.exists_cons_of_ne_nil hne
  have := (ne_sign_of_isDigit (hd c (by simp))).1
  simp [scanSign, this]

/-- Digits after an exponent's letter have no sign to split off. -/
theorem scanExponentSign_of_digits {digits rest : List Char} (hne : digits ≠ [])
    (hd : AreDigits digits) :
    scanExponentSign (digits ++ rest) = (false, digits ++ rest) := by
  rw [scanExponentSign]
  · exact scanSign_of_digits hne hd
  · obtain ⟨c, cs, rfl⟩ := List.exists_cons_of_ne_nil hne
    have := (ne_sign_of_isDigit (hd c (by simp))).2
    simp [this]

/-- A text of an exponent: a letter, a sign, and digits. -/
def IsExponentText : Option (Bool × List Char) → List Char → Prop
  | none, cs => cs = []
  | some (negative, digits), cs => ∃ letter sign, cs = letter :: (sign ++ digits) ∧
      (letter = 'e' ∨ letter = 'E') ∧ if negative then sign = ['-'] else sign = [] ∨ sign = ['+']

/-- An exponent is split off each of its texts, before what ends a numeral. -/
theorem scanExponent_append {exponent : Option (Bool × List Char)} {cs rest : List Char}
    (h : IsExponentText exponent cs) (hne : ∀ e ∈ exponent, e.2 ≠ [])
    (hd : ∀ e ∈ exponent, AreDigits e.2) (hr : Ends rest) :
    scanExponent (cs ++ rest) = some (exponent, rest) := by
  match exponent with
  | none =>
    obtain rfl : cs = [] := h
    exact scanExponent_of_ends hr
  | some (negative, digits) =>
    obtain ⟨letter, sign, rfl, hletter, hsign⟩ := h
    have hne' : digits ≠ [] := hne _ rfl
    have hd' : AreDigits digits := hd _ rfl
    have hscan : scanExponentSign (sign ++ digits ++ rest) = (negative, digits ++ rest) := by
      rw [List.append_assoc]
      cases negative with
      | true =>
        obtain rfl : sign = ['-'] := by simpa using hsign
        rfl
      | false =>
        obtain rfl | rfl : sign = [] ∨ sign = ['+'] := by simpa using hsign
        · rw [List.nil_append]
          exact scanExponentSign_of_digits hne' hd'
        · rfl
    rw [List.cons_append, scanExponent, if_pos hletter]
    simp only [hscan, scanDigits_append hd' hr.head_not_isDigit, if_neg hne']

/-- The text of a fraction. -/
def fractionText (fraction : List Char) : List Char :=
  if fraction.isEmpty then [] else '.' :: fraction

/-- A fraction is split off before what starts with no digit and no point. -/
theorem scanFraction_append {fraction rest : List Char} (hd : AreDigits fraction)
    (hr : ∀ c ∈ rest.head?, c.isDigit = false ∧ c ≠ '.') :
    scanFraction (fractionText fraction ++ rest) = some (fraction, rest) := by
  cases fraction with
  | nil =>
    change scanFraction rest = _
    rw [scanFraction]
    rintro rest rfl
    exact (hr '.' rfl).2 rfl
  | cons c fraction =>
    have := scanDigits_append hd fun c hc => (hr c hc).1
    rw [fractionText, if_neg (by simp), List.cons_append, scanFraction, this, if_neg (by simp)]

/-- A text of a numeral. -/
structure HasText (n : Numeral) (cs : List Char) : Prop where
  wellFormed : n.IsWellFormed
  exists_exponent : ∃ exponent, IsExponentText n.exponent exponent ∧
    cs = (if n.negative then ['-'] else []) ++ (n.whole ++ (fractionText n.fraction ++ exponent))

/-- The text of a well-formed numeral is one of its texts. -/
theorem hasText_text {n : Numeral} (h : n.IsWellFormed) : n.HasText n.text := by
  obtain ⟨negative, whole, fraction, exponent⟩ := n
  refine ⟨h, _, ?_, by rw [text, List.append_assoc, List.append_assoc, fractionText]⟩
  match exponent with
  | none => rfl
  | some (true, digits) => exact ⟨'e', ['-'], rfl, .inl rfl, by simp⟩
  | some (false, digits) => exact ⟨'e', [], rfl, .inl rfl, by simp⟩

/-- A text of an exponent starts with no digit and no point, whatever ends the numeral. -/
theorem head_exponentText_append {exponent : Option (Bool × List Char)} {cs rest : List Char}
    (h : IsExponentText exponent cs) (hr : Ends rest) :
    ∀ c ∈ (cs ++ rest).head?, c.isDigit = false ∧ c ≠ '.' := by
  match exponent with
  | none =>
    obtain rfl : cs = [] := h
    intro c hc
    have := hr c hc
    simp only [continues, Bool.or_eq_false_iff, decide_eq_false_iff_not] at this
    exact ⟨this.1.1.1, this.1.1.2⟩
  | some (negative, digits) =>
    obtain ⟨letter, sign, rfl, hletter, -⟩ := h
    rintro c ⟨⟩
    obtain rfl | rfl := hletter <;> decide

/-- The text of a fraction and an exponent starts with no digit. -/
theorem head_fractionText_append (fraction : List Char) {rest : List Char}
    (hr : ∀ c ∈ rest.head?, c.isDigit = false) :
    ∀ c ∈ (fractionText fraction ++ rest).head?, c.isDigit = false := by
  cases fraction with
  | nil => exact hr
  | cons d fraction =>
    rintro c ⟨⟩
    decide

/-- A numeral is read off each of its texts, before anything that does not extend it. -/
theorem scan_append {n : Numeral} {cs rest : List Char} (h : n.HasText cs) (hr : Ends rest) :
    scan (cs ++ rest) = some (n, rest) := by
  obtain ⟨hn, exponent, he, rfl⟩ := h
  -- each part of the text ends where the next one starts: that of the exponent with a letter, that
  -- of the fraction with a point
  have hexp := head_exponentText_append he hr
  have hfrac := head_fractionText_append n.fraction fun c hc => (hexp c hc).1
  have hsign : scanSign ((if n.negative then ['-'] else []) ++
        (n.whole ++ (fractionText n.fraction ++ exponent)) ++ rest)
      = (n.negative, n.whole ++ (fractionText n.fraction ++ (exponent ++ rest))) := by
    simp only [List.append_assoc]
    cases n.negative with
    | true => rfl
    | false =>
      rw [if_neg Bool.false_ne_true, List.nil_append]
      exact scanSign_of_digits hn.whole_ne_nil hn.whole_digits
  simp only [scan, hsign]
  rw [scanDigits_append hn.whole_digits hfrac,
    if_neg (by simpa [hn.whole_ne_nil] using hn.no_leading_zero),
    scanFraction_append hn.fraction_digits hexp]
  simp only [Option.bind_some]
  rw [scanExponent_append he hn.exponent_ne_nil hn.exponent_digits hr]
  rfl

/-- A text of a numeral starts with a hyphen or a digit. -/
theorem HasText.exists_eq_cons {n : Numeral} {cs : List Char} (h : n.HasText cs) :
    ∃ c rest, cs = c :: rest ∧ (c = '-' ∨ c.isDigit = true) := by
  obtain ⟨hn, exponent, -, rfl⟩ := h
  cases n.negative with
  | true => exact ⟨'-', _, rfl, Or.inl rfl⟩
  | false =>
    obtain ⟨c, whole, hc⟩ := List.exists_cons_of_ne_nil hn.whole_ne_nil
    rw [hc]
    exact ⟨c, _, rfl, Or.inr (hn.whole_digits c (by simp [hc]))⟩

/-! ## Integers -/

/-- The digits of a natural number are digits. -/
theorem areDigits_natText (n : Nat) : AreDigits (Decimal.natText n) := fun _ hc =>
  Nat.isDigit_of_mem_toDigits (by decide) (by decide) hc

/-- The digits of a number above zero start with none. -/
theorem head_natText_ne_zero {n : Nat} (h : 0 < n) : (Decimal.natText n).head? ≠ some '0' := by
  unfold Decimal.natText
  -- the digits but the last are those of the tenth part, which is above zero as well
  induction n using Nat.strongRecOn with
  | ind n ih =>
    by_cases hn : n < 10
    · rw [Nat.toDigits_of_lt_base hn, List.head?_singleton, ne_eq, Option.some.injEq,
        Nat.digitChar_eq_zero]
      omega
    · rw [Nat.toDigits_of_base_le (by decide) (by omega),
        List.head?_append_of_ne_nil _ Nat.toDigits_ne_nil]
      exact ih (n / 10) (by omega) (by omega)

/-- Only zero itself is written with a zero in front. -/
theorem natText_no_leading_zero (n : Nat) :
    ¬ ((Decimal.natText n).head? = some '0' ∧ 1 < (Decimal.natText n).length) := by
  rintro ⟨hhead, hlen⟩
  rcases Nat.eq_zero_or_pos n with rfl | hn
  · exact absurd hlen (by decide)
  · exact head_natText_ne_zero hn hhead

/-- The numeral of an integer is well formed. -/
theorem isWellFormed_ofInt (n : Int) : (ofInt n).IsWellFormed where
  whole_ne_nil := Nat.toDigits_ne_nil
  whole_digits := areDigits_natText _
  no_leading_zero := natText_no_leading_zero _
  fraction_digits := by simp [ofInt, AreDigits]
  exponent_ne_nil := by simp [ofInt]
  exponent_digits := by simp [ofInt]

/-- Digits whose value 64 bits hold are all taken into the significand. -/
theorem accumulate_of_lt {digits : List Char} (significand : Nat)
    (h : Nat.ofDigitChars 10 digits significand < UInt64.size) :
    accumulate significand digits = (Nat.ofDigitChars 10 digits significand, 0) := by
  induction digits generalizing significand with
  | nil => rfl
  | cons c rest ih =>
    rw [Nat.ofDigitChars_cons] at h ⊢
    have := Decimal.le_ofDigitChars rest (10 * significand + Decimal.digitValue c)
    unfold Decimal.digitValue at this
    rw [accumulate, if_pos (by unfold Decimal.digitValue; omega)]
    exact ih _ h

/-- The digits of a natural number below `2^64` accumulate to it. -/
theorem accumulate_natText {n : Nat} (h : n < UInt64.size) :
    accumulate 0 (Decimal.natText n) = (n, 0) := by
  have hn : Nat.ofDigitChars 10 (Decimal.natText n) 0 = n := by simp [Decimal.natText]
  rw [accumulate_of_lt 0 (by rwa [hn]), hn]

/-- The numeral of an integer that is not negative stands for it below `2^64`. -/
theorem number_ofInt_of_nonneg {n : Nat} (h : n < UInt64.size) :
    (ofInt n).number = some (.natural (UInt64.ofNat n)) := by
  simp [number, ofInt, accumulate_natText h]

/-- The numeral of a negative integer stands for it down to `-2^63`. -/
theorem number_ofInt_of_neg {n : Int} (hneg : n < 0) (h : Int64.minValue.toInt ≤ n) :
    (ofInt n).number = some (.negative (Int64.ofInt n)) := by
  have hmin : Int64.minValue.toInt = -2 ^ 63 := by decide
  have hsize : UInt64.size = 2 ^ 64 := rfl
  have hacc := accumulate_natText (n := n.natAbs) (by omega)
  have hfits : 0 < n.natAbs ∧ 2 * n.natAbs ≤ UInt64.size := ⟨by omega, by omega⟩
  have habs : -(n.natAbs : Int) = n := by omega
  unfold number ofInt
  dsimp only
  rw [hacc]
  simp only [hneg, decide_true, List.isEmpty_nil, Option.isNone_none, and_self, if_true,
    Bool.not_true, Bool.false_eq_true, if_false, if_pos hfits, habs]

end Scheduling.Numeral
