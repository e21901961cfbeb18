import Scheduling.Json.Numeral

/-!
# The tokens of a JSON text

A text is cut into marks, words, numerals and strings, with blanks between them left out. Characters
that form no token end the cutting with the token `junk`. The tokens are those of standard JSON, to
which `serde_json` keeps: four blanks, no comments, no trailing commas, and in a string no bare
controls, the eight short escapes, and code units by four hexadecimal digits, of which two halves of
one character must stand together.
-/

namespace Scheduling.Json

/-- A token of a JSON text. -/
inductive Token where
  | openList
  | closeList
  | openRecord
  | closeRecord
  | colon
  | comma
  | null
  | bool (value : Bool)
  | number (numeral : Numeral)
  /-- A string; it has no content if it spells one half of a character alone. -/
  | text (content : Option String)
  /-- Characters that form no token. -/
  | junk
  deriving DecidableEq, Repr

/-- The characters that may stand between tokens. -/
def isSpace (c : Char) : Bool := c = ' ' || c = '\t' || c = '\n' || c = '\r'

/-! ## Strings -/

/-- A part of a string: a character, or a code unit written by its number. -/
inductive Piece where
  | char (c : Char)
  | unit (code : Nat)
  deriving DecidableEq, Repr

/-- The value of a hexadecimal digit in either case. -/
def hexValue? (c : Char) : Option Nat :=
  if c.isDigit then some (c.toNat - '0'.toNat)
  else if 'a' ≤ c ∧ c ≤ 'f' then some (c.toNat - 'a'.toNat + 10)
  else if 'A' ≤ c ∧ c ≤ 'F' then some (c.toNat - 'A'.toNat + 10)
  else none

/-- The code unit written by four hexadecimal digits. -/
def hexUnit? (a b c d : Char) : Option Nat := do
  return (((← hexValue? a) * 16 + (← hexValue? b)) * 16 + (← hexValue? c)) * 16 + (← hexValue? d)

/-- The character that a letter after a backslash stands for. -/
def escapedChar? (c : Char) : Option Char :=
  if c = '"' ∨ c = '\\' ∨ c = '/' then some c
  else if c = 'b' then some '\x08'
  else if c = 'f' then some '\x0c'
  else if c = 'n' then some '\n'
  else if c = 'r' then some '\r'
  else if c = 't' then some '\t'
  else none

/-- Splits the rest of a string, up to its closing quote, off a text. -/
def scanPieces : List Char → Option (List Piece × List Char)
  | [] => none
  | '"' :: rest => some ([], rest)
  | '\\' :: 'u' :: a :: b :: c :: d :: rest =>
    match hexUnit? a b c d with
    | some code => (scanPieces rest).map (Prod.map (.unit code :: ·) id)
    | none => none
  | '\\' :: e :: rest =>
    match escapedChar? e with
    | some c => (scanPieces rest).map (Prod.map (.char c :: ·) id)
    | none => none
  | c :: rest =>
    if c.toNat < 0x20 then none else (scanPieces rest).map (Prod.map (.char c :: ·) id)

/-- A code unit that starts a pair. -/
def isHighUnit (code : Nat) : Bool := 0xD800 ≤ code && code < 0xDC00

/-- A code unit that ends a pair. -/
def isLowUnit (code : Nat) : Bool := 0xDC00 ≤ code && code < 0xE000

/-- The characters of a string, if no half of a pair stands alone in it. -/
def unite : List Piece → Option (List Char)
  | [] => some []
  | .char c :: rest => return c :: (← unite rest)
  | .unit code :: rest =>
    if isHighUnit code then
      match rest with
      | .unit low :: rest =>
        if isLowUnit low then
          return Char.ofNat (0x10000 + (code - 0xD800) * 0x400 + (low - 0xDC00)) :: (← unite rest)
        else none
      | _ => none
    else if isLowUnit code then none
    else return Char.ofNat code :: (← unite rest)

/-! ## Tokens -/

/-- Splits a token off a text that starts with none of the characters `isSpace` holds for. -/
def Token.scan : List Char → Option (Token × List Char)
  | '[' :: rest => some (.openList, rest)
  | ']' :: rest => some (.closeList, rest)
  | '{' :: rest => some (.openRecord, rest)
  | '}' :: rest => some (.closeRecord, rest)
  | ':' :: rest => some (.colon, rest)
  | ',' :: rest => some (.comma, rest)
  | 'n' :: 'u' :: 'l' :: 'l' :: rest => some (.null, rest)
  | 't' :: 'r' :: 'u' :: 'e' :: rest => some (.bool true, rest)
  | 'f' :: 'a' :: 'l' :: 's' :: 'e' :: rest => some (.bool false, rest)
  | '"' :: rest =>
    (scanPieces rest).map fun (pieces, rest) => (.text ((unite pieces).map String.ofList), rest)
  | cs => (Numeral.scan cs).map fun (numeral, rest) => (.number numeral, rest)

/-- What follows a string is shorter than what started inside it. -/
theorem length_scanPieces {cs rest : List Char} {pieces : List Piece}
    (h : scanPieces cs = some (pieces, rest)) : rest.length < cs.length := by
  fun_induction scanPieces cs generalizing pieces rest <;>
    simp only [reduceCtorEq, Option.some.injEq, Prod.mk.injEq, Option.map_eq_some_iff,
      Prod.map, Prod.exists, id] at h
  · simp [h.2]
  all_goals
    rename_i ih
    obtain ⟨ps, r, hr, -, rfl⟩ := h
    have := ih hr
    simp only [List.length_cons]
    omega

/-- What follows a token is shorter than what it was split off. -/
theorem Token.length_scan_lt {cs rest : List Char} {t : Token}
    (h : Token.scan cs = some (t, rest)) : rest.length < cs.length := by
  unfold Token.scan at h
  split at h
  case h_10 =>
    simp only [Option.map_eq_some_iff, Prod.exists, Prod.mk.injEq] at h
    obtain ⟨pieces, rest, hr, -, rfl⟩ := h
    have := length_scanPieces hr
    simp only [List.length_cons]
    omega
  case h_11 =>
    simp only [Option.map_eq_some_iff, Prod.exists, Prod.mk.injEq] at h
    obtain ⟨numeral, rest, hr, -, rfl⟩ := h
    exact Numeral.length_scan_lt hr
  all_goals
    simp only [Option.some.injEq, Prod.mk.injEq] at h
    obtain ⟨-, rfl⟩ := h
    simp only [List.length_cons]
    omega

/-- The tokens of a text. -/
def tokens (cs : List Char) : List Token :=
  match _h : cs.dropWhile isSpace with
  | [] => []
  | c :: rest =>
    match _hs : Token.scan (c :: rest) with
    | some (t, rest) => t :: tokens rest
    | none => [.junk]
termination_by cs.length
decreasing_by
  have h1 := Token.length_scan_lt _hs
  have h2 := (List.dropWhile_suffix (l := cs) isSpace).length_le
  rw [_h] at h2
  omega

end Scheduling.Json
