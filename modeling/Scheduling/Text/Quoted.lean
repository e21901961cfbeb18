import Scheduling.Text.Invisible

/-!
# Quoted text

A text between quotes, as messages show it: the quote and the backslash are escaped, tab, newline,
carriage return and NUL have a letter, any other character without a glyph of its own is written by
its number, and everything else stands for itself. `quoteChar` uses single quotes, `quoteText`
double ones, and each escapes only its own. This is the debug format of characters and texts.
-/

namespace Scheduling.Text

/-- A character by its number, in lower-case hexadecimal without leading zeros. -/
def numbered (c : Char) : List Char :=
  ['\\', 'u', '\x7b'] ++ Nat.toDigits 16 c.toNat ++ ['\x7d']

/-- A character as it stands between two `quote`s. -/
def escaped (quote c : Char) : List Char :=
  if c = quote ∨ c = '\\' then ['\\', c]
  else if c = '\x00' then ['\\', '0']
  else if c = '\t' then ['\\', 't']
  else if c = '\n' then ['\\', 'n']
  else if c = '\r' then ['\\', 'r']
  else if isInvisible c then numbered c
  else [c]

/-- A text between two `quote`s. -/
def quoted (quote : Char) (s : List Char) : List Char :=
  quote :: s.flatMap (escaped quote) ++ [quote]

/-- A character in single quotes. -/
def quoteChar (c : Char) : String := String.ofList (quoted '\'' [c])

/-- A text in double quotes. -/
def quoteText (s : String) : String := String.ofList (quoted '"' s.toList)

end Scheduling.Text
