import Mathlib.Data.List.Chain
import Mathlib.Data.List.Forall2
import Mathlib.Data.List.TakeWhile
import Scheduling.Json.Compact
import Scheduling.Json.Token
import Scheduling.Proofs.Json.Numerals

/-!
# Tokens read back

A token may be written in several ways: a numeral as `Numerals.lean` says, and a character of a
string as itself, by a letter after a backslash, or by the numbers of its code units
(`Piece.HasText`, `Token.HasText`). Each token is read off each of its texts (`Token.scan_append`),
and a text that spells tokens one after the other, with blanks before, between and after them, is
cut into just those tokens (`tokens_of_spaced`). Only one thing must hold for that: no numeral
stands directly after a numeral, since the digits of the two would run together; every other text of
a token ends where it ends, whatever follows.

Of all the texts of a token, its spelling is the one that is written. For a string, each character
is written as an escape, by its number or as itself (`hasText_escapeChar`). The characters written
by number are controls, so none of them is taken for half of a pair (`unite_writtenPiece`).
-/

namespace Scheduling.Json

/-! ## Strings -/

/-- The letters that stand for a character after a backslash, each with the character. -/
def escapes : List (Char × Char) :=
  [('"', '"'), ('\\', '\\'), ('/', '/'), ('b', '\x08'), ('f', '\x0c'), ('n', '\n'), ('r', '\r'),
   ('t', '\t')]

/-- A hexadecimal digit, in either case, and its value. -/
def IsHexDigit (c : Char) (n : ℕ) : Prop :=
  n < 16 ∧ (c = Nat.digitChar n ∨ c = (Nat.digitChar n).toUpper)

/-- A text of a part of a string. A character that is no quote, no backslash and no control stands
for itself. -/
inductive Piece.HasText : Piece → List Char → Prop where
  | plain {c : Char} : c ≠ '"' → c ≠ '\\' → ¬ c.toNat < 0x20 → HasText (.char c) [c]
  | letter {l c : Char} : (l, c) ∈ escapes → HasText (.char c) ['\\', l]
  | unit {a b c d : Char} {i j k l : ℕ} : IsHexDigit a i → IsHexDigit b j → IsHexDigit c k →
      IsHexDigit d l → HasText (.unit (((i * 16 + j) * 16 + k) * 16 + l)) ['\\', 'u', a, b, c, d]

/-- The value of a hexadecimal digit is found. -/
theorem hexValue?_of_isHexDigit {c : Char} {n : ℕ} (h : IsHexDigit c n) : hexValue? c = some n := by
  have hlower : ∀ n < 16, hexValue? (Nat.digitChar n) = some n := by decide
  have hupper : ∀ n < 16, hexValue? (Nat.digitChar n).toUpper = some n := by decide
  obtain ⟨hn, rfl | rfl⟩ := h
  · exact hlower n hn
  · exact hupper n hn

/-- A letter after a backslash stands for the character that is listed with it, and none is `u`. -/
theorem escapedChar?_of_mem {l c : Char} (h : (l, c) ∈ escapes) :
    escapedChar? l = some c ∧ l ≠ 'u' := by
  have hall : ∀ p ∈ escapes, escapedChar? p.1 = some p.2 ∧ p.1 ≠ 'u' := by decide
  exact hall (l, c) h

/-- A part of a string is split off each of its texts, before any rest of the string. -/
theorem scanPieces_append {p : Piece} {cs : List Char} (h : p.HasText cs) (rest : List Char) :
    scanPieces (cs ++ rest) = (scanPieces rest).map (Prod.map (p :: ·) id) := by
  cases h with
  | @plain c hquote hback hcontrol =>
    rw [List.cons_append, List.nil_append, scanPieces, if_neg hcontrol]
    · exact fun h => hquote h
    · exact fun _ _ _ _ _ h _ => hback h
    · exact fun _ _ h _ => hback h
  | letter hmem =>
    obtain ⟨hletter, hu⟩ := escapedChar?_of_mem hmem
    rw [List.cons_append, List.cons_append, List.nil_append, scanPieces, hletter]
    rintro - - - - - rfl -
    exact hu rfl
  | unit ha hb hc hd =>
    simp only [List.cons_append, List.nil_append, scanPieces, hexUnit?, hexValue?_of_isHexDigit ha,
      hexValue?_of_isHexDigit hb, hexValue?_of_isHexDigit hc, hexValue?_of_isHexDigit hd]
    rfl

/-- A string is read off a text of its parts, up to its closing quote. -/
theorem scanPieces_flatten {pieces : List Piece} {texts : List (List Char)}
    (h : List.Forall₂ Piece.HasText pieces texts) (rest : List Char) :
    scanPieces (texts.flatten ++ '"' :: rest) = some (pieces, rest) := by
  induction h with
  | nil => rfl
  | cons hp _ ih =>
    rw [List.flatten_cons, List.append_assoc, scanPieces_append hp, ih]
    rfl

/-- What a character is read as from the way it is written in a string. -/
def writtenPiece (c : Char) : Piece :=
  if escapeChar c = controlEscape c then .unit c.toNat else .char c

/-- A character is written by a letter after a backslash, by its number, or as itself. -/
theorem escapeChar_cases (c : Char) :
    (∃ letter, escapeChar c = ['\\', letter] ∧ (letter, c) ∈ escapes) ∨
      (escapeChar c = controlEscape c ∧ c.toNat < 0x20) ∨
      (escapeChar c = [c] ∧ c ≠ '"' ∧ c ≠ '\\' ∧ ¬ c.toNat < 0x20) := by
  unfold escapeChar
  iterate 7
    split
    · next h => exact Or.inl ⟨_, rfl, by rw [h]; decide⟩
  split
  · next h => exact Or.inr (Or.inl ⟨rfl, h⟩)
  · next hquote hback _ _ _ _ _ hcontrol =>
    exact Or.inr (Or.inr ⟨rfl, hquote, hback, hcontrol⟩)

/-- The way a character is written is a text of what it is read as. -/
theorem hasText_escapeChar (c : Char) : (writtenPiece c).HasText (escapeChar c) := by
  unfold writtenPiece
  obtain ⟨letter, hc, hletter⟩ | ⟨hc, hcontrol⟩ | ⟨hc, hquote, hback, hcontrol⟩ :=
    escapeChar_cases c
  · rw [hc, if_neg (by simp [controlEscape])]
    exact .letter hletter
  · rw [if_pos hc, hc, controlEscape]
    have hzero : IsHexDigit '0' 0 := ⟨by decide, .inl rfl⟩
    have hhigh : IsHexDigit (Nat.digitChar (c.toNat / 16)) (c.toNat / 16) := ⟨by omega, .inl rfl⟩
    have hlow : IsHexDigit (Nat.digitChar (c.toNat % 16)) (c.toNat % 16) := ⟨by omega, .inl rfl⟩
    have htext := Piece.HasText.unit hzero hzero hhigh hlow
    have hcode : ((0 * 16 + 0) * 16 + c.toNat / 16) * 16 + c.toNat % 16 = c.toNat := by omega
    rwa [hcode] at htext
  · rw [hc, if_neg (by simp [controlEscape])]
    exact .plain hquote hback hcontrol

/-- A character is what it is read as, since no control is half of a pair. -/
theorem unite_writtenPiece (c : Char) (pieces : List Piece) :
    unite (writtenPiece c :: pieces) = (unite pieces).map (c :: ·) := by
  unfold writtenPiece
  split
  · -- only a control is written by its number, and the halves of pairs are far above the controls
    next h =>
    have hcontrol : c.toNat < 0x20 := by
      obtain ⟨letter, hc, -⟩ | ⟨-, hc⟩ | ⟨hc, -⟩ := escapeChar_cases c
      · simp [h, controlEscape] at hc
      · exact hc
      · simp [h, controlEscape] at hc
    have hhigh : isHighUnit c.toNat = false := by simp [isHighUnit]; omega
    have hlow : isLowUnit c.toNat = false := by simp [isLowUnit]; omega
    rw [unite.eq_def]
    simp only [hhigh, hlow, Char.ofNat_toNat, Bool.false_eq_true, if_false]
    cases unite pieces <;> rfl
  · rw [unite]
    cases unite pieces <;> rfl

/-- The characters of a string come back from what they are read as. -/
theorem unite_map_writtenPiece (s : List Char) : unite (s.map writtenPiece) = some s := by
  induction s with
  | nil => rfl
  | cons c s ih => rw [List.map_cons, unite_writtenPiece, ih]; rfl

/-! ## Tokens -/

/-- The characters that a token is written with. -/
def Token.spelling : Token → List Char
  | .openList => ['[']
  | .closeList => [']']
  | .openRecord => ['{']
  | .closeRecord => ['}']
  | .colon => [':']
  | .comma => [',']
  | .null => ['n', 'u', 'l', 'l']
  | .bool true => ['t', 'r', 'u', 'e']
  | .bool false => ['f', 'a', 'l', 's', 'e']
  | .number n => n.text
  | .text s => compactContent s
  | .junk => []

/-- The token has a spelling that it can be read back from. -/
def Token.IsProper : Token → Prop
  | .number n => n.IsWellFormed
  | .text s => s.isSome = true
  | .junk => False
  | _ => True

/-- A text of a token. -/
def Token.HasText : Token → List Char → Prop
  | .number n, cs => n.HasText cs
  | .text content, cs => ∃ pieces texts, List.Forall₂ Piece.HasText pieces texts ∧
      cs = '"' :: texts.flatten ++ ['"'] ∧ content = (unite pieces).map String.ofList
  | .junk, _ => False
  | t, cs => cs = t.spelling

/-- The spelling of a proper token is one of its texts. -/
theorem Token.hasText_spelling {t : Token} (h : t.IsProper) : t.HasText t.spelling := by
  match t with
  | .openList | .closeList | .openRecord | .closeRecord | .colon | .comma | .null
  | .bool true | .bool false => rfl
  | .number n => exact Numeral.hasText_text h
  | .text (some s) =>
    have hpieces : List.Forall₂ Piece.HasText (s.toList.map writtenPiece)
        (s.toList.map escapeChar) := by
      rw [List.forall₂_map_left_iff, List.forall₂_map_right_iff]
      exact List.forall₂_same.2 fun c _ => hasText_escapeChar c
    refine ⟨_, _, hpieces, ?_, ?_⟩
    · simp [Token.spelling, compactContent, compactString, List.flatMap_def]
    · simp [unite_map_writtenPiece]
  | .text none => exact absurd h (by simp [Token.IsProper])
  | .junk => exact h.elim

/-- The token is a numeral. -/
def Token.isNumber : Token → Bool
  | .number _ => true
  | _ => false

/-- A text that starts with a hyphen or a digit starts with a numeral. -/
theorem Token.scan_numeral {c : Char} (h : c = '-' ∨ c.isDigit = true) (cs : List Char) :
    Token.scan (c :: cs)
      = (Numeral.scan (c :: cs)).map fun (numeral, rest) => (.number numeral, rest) := by
  rw [Token.scan.eq_def]
  split
  case h_11 => rfl
  all_goals
    next heq =>
    obtain ⟨rfl, -⟩ := List.cons.inj heq
    exact absurd h (by decide)

/-- A token is read off each of its texts. What follows may be anything, except that it must not
extend a numeral. -/
theorem Token.scan_append {t : Token} {cs rest : List Char} (h : t.HasText cs)
    (hr : t.isNumber = true → Numeral.Ends rest) : Token.scan (cs ++ rest) = some (t, rest) := by
  match t with
  | .openList | .closeList | .openRecord | .closeRecord | .colon | .comma | .null
  | .bool true | .bool false =>
    obtain rfl : cs = _ := h
    rfl
  | .number n =>
    obtain ⟨c, ds, rfl, hc⟩ := Numeral.HasText.exists_eq_cons h
    have hscan := Numeral.scan_append h (hr rfl)
    rw [List.cons_append] at hscan ⊢
    rw [Token.scan_numeral hc, hscan]
    rfl
  | .text content =>
    obtain ⟨pieces, texts, hpieces, rfl, rfl⟩ := h
    have htext : '"' :: texts.flatten ++ ['"'] ++ rest = '"' :: (texts.flatten ++ '"' :: rest) := by
      simp
    rw [htext, Token.scan, scanPieces_flatten hpieces]
    rfl
  | .junk => exact h.elim

/-- A text of a token starts with a character that is no blank, and that extends no numeral before
it unless the token is a numeral itself. -/
theorem Token.HasText.exists_eq_cons {t : Token} {cs : List Char} (h : t.HasText cs) :
    ∃ c rest, cs = c :: rest ∧ isSpace c = false ∧
      (t.isNumber = false → Numeral.continues c = false) := by
  match t with
  | .openList | .closeList | .openRecord | .closeRecord | .colon | .comma | .null
  | .bool true | .bool false =>
    obtain rfl : cs = _ := h
    exact ⟨_, _, rfl, by decide, by decide⟩
  | .number n =>
    obtain ⟨c, ds, rfl, hc⟩ := Numeral.HasText.exists_eq_cons h
    refine ⟨c, ds, rfl, ?_, nofun⟩
    -- a blank is no hyphen and no digit
    rw [isSpace]
    simp only [Bool.or_eq_false_iff, decide_eq_false_iff_not]
    refine ⟨⟨⟨?_, ?_⟩, ?_⟩, ?_⟩ <;> (rintro rfl; exact absurd hc (by decide))
  | .text content =>
    obtain ⟨pieces, texts, -, rfl, -⟩ := h
    exact ⟨'"', _, rfl, by decide, fun _ => by decide⟩
  | .junk => exact h.elim

/-! ## Texts of tokens -/

/-- Some characters are blanks. -/
def AreBlanks (cs : List Char) : Prop := ∀ c ∈ cs, isSpace c = true

/-- A text that spells tokens one after the other, with blanks before, between and after them. -/
inductive Spaced : List Token → List Char → Prop where
  | nil {blanks : List Char} : AreBlanks blanks → Spaced [] blanks
  | cons {t : Token} {ts : List Token} {blanks cs rest : List Char} : AreBlanks blanks →
      t.HasText cs → Spaced ts rest → Spaced (t :: ts) (blanks ++ (cs ++ rest))

/-- No numeral stands directly after a numeral. -/
abbrev AreApart (ts : List Token) : Prop :=
  ts.IsChain fun a b => ¬ (a.isNumber = true ∧ b.isNumber = true)

/-- A token comes off a text that starts with blanks and one of its texts. -/
theorem tokens_append {t : Token} {blanks cs rest : List Char} (hb : AreBlanks blanks)
    (h : t.HasText cs) (hr : t.isNumber = true → Numeral.Ends rest) :
    tokens (blanks ++ (cs ++ rest)) = t :: tokens rest := by
  obtain ⟨c, ds, rfl, hspace, -⟩ := h.exists_eq_cons
  have hscan : Token.scan (c :: (ds ++ rest)) = some (t, rest) := Token.scan_append h hr
  have hdrop : (blanks ++ (c :: ds ++ rest)).dropWhile isSpace = c :: (ds ++ rest) := by
    rw [List.dropWhile_append_of_pos hb, List.cons_append, List.dropWhile_cons, hspace,
      if_neg Bool.false_ne_true]
  rw [tokens]
  split
  · next heq => cases hdrop.symm.trans heq
  · next heq =>
    obtain ⟨rfl, rfl⟩ := List.cons.inj (hdrop.symm.trans heq)
    split
    · next hs =>
      cases hscan.symm.trans hs
      rfl
    · next hs => cases hscan.symm.trans hs

/-- Blanks have no tokens. -/
theorem tokens_of_areBlanks {blanks : List Char} (hb : AreBlanks blanks) : tokens blanks = [] := by
  rw [tokens]
  split
  · rfl
  · next heq =>
    have hdrop : blanks.dropWhile isSpace = [] := List.dropWhile_eq_nil_iff.2 hb
    cases hdrop.symm.trans heq

/-- After a numeral, tokens that do not start with a numeral do not extend it. -/
theorem Spaced.ends {ts : List Token} {cs : List Char} (h : Spaced ts cs)
    (hts : ∀ t ∈ ts.head?, t.isNumber = false) : Numeral.Ends cs := by
  have hblank : ∀ c, isSpace c = true → Numeral.continues c = false := by
    intro c hc
    simp only [isSpace, Bool.or_eq_true, decide_eq_true_eq] at hc
    obtain ((rfl | rfl) | rfl) | rfl := hc <;> decide
  cases h with
  | nil hb => exact fun c hc => hblank c (hb c (List.mem_of_mem_head? hc))
  | @cons t ts blanks ds rest hb ht _ =>
    obtain ⟨d, ds, rfl, -, hcontinues⟩ := ht.exists_eq_cons
    rintro c hc
    cases blanks with
    | nil =>
      cases hc
      exact hcontinues (hts t rfl)
    | cons b blanks =>
      cases hc
      exact hblank c (hb c (by simp))

/-- A text that spells tokens is cut into them, as long as no numeral stands directly after a
numeral. -/
theorem tokens_of_spaced {ts : List Token} {cs : List Char} (h : Spaced ts cs)
    (happart : AreApart ts) : tokens cs = ts := by
  induction h with
  | nil hb => exact tokens_of_areBlanks hb
  | @cons t ts blanks ds rest hb ht hrest ih =>
    have hends : t.isNumber = true → Numeral.Ends rest := by
      intro hnumber
      refine hrest.ends fun u hu => ?_
      cases ts with
      | nil => cases hu
      | cons v ts =>
        cases hu
        simpa [hnumber] using (List.isChain_cons_cons.1 happart).1
    rw [tokens_append hb ht hends, ih happart.of_cons]

/-- The spellings of proper tokens, with any blanks before each of them, spell the tokens. -/
theorem spaced_flatMap_spelling (blanks : Token → List Char) {ts : List Token}
    (hblanks : ∀ t ∈ ts, AreBlanks (blanks t)) (hproper : ∀ t ∈ ts, t.IsProper) :
    Spaced ts (ts.flatMap fun t => blanks t ++ t.spelling) := by
  induction ts with
  | nil => exact .nil (by simp [AreBlanks])
  | cons t ts ih =>
    rw [List.flatMap_cons, List.append_assoc]
    exact .cons (hblanks t (by simp)) (Token.hasText_spelling (hproper t (by simp)))
      (ih (fun u hu => hblanks u (by simp [hu])) fun u hu => hproper u (by simp [hu]))

end Scheduling.Json
