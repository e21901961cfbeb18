import Scheduling.Json.Tree

/-!
# The compact text of a JSON value

A value without any blanks, its fields in their order, and in strings no more escapes than needed:
the quote, the backslash and the controls. This is what `to_string` of `serde_json` writes.
-/

namespace Scheduling.Json

/-- A character below U+0020 by its number, in four hexadecimal digits. -/
def controlEscape (c : Char) : List Char :=
  ['\\', 'u', '0', '0', Nat.digitChar (c.toNat / 16), Nat.digitChar (c.toNat % 16)]

/-- A character as it stands in a string. -/
def escapeChar (c : Char) : List Char :=
  if c = '"' then ['\\', '"']
  else if c = '\\' then ['\\', '\\']
  else if c = '\x08' then ['\\', 'b']
  else if c = '\x0c' then ['\\', 'f']
  else if c = '\n' then ['\\', 'n']
  else if c = '\r' then ['\\', 'r']
  else if c = '\t' then ['\\', 't']
  else if c.toNat < 0x20 then controlEscape c
  else [c]

/-- A string in quotes. -/
def compactString (s : List Char) : List Char := '"' :: s.flatMap escapeChar ++ ['"']

/-- A text in quotes, empty if it has no content. -/
def compactContent (content : Option String) : List Char :=
  compactString ((content.map String.toList).getD [])

mutual

/-- The compact text of a value. A broken part has no text. -/
def compact : Json → List Char
  | .null => ['n', 'u', 'l', 'l']
  | .bool true => ['t', 'r', 'u', 'e']
  | .bool false => ['f', 'a', 'l', 's', 'e']
  | .number n => n.text
  | .text s => compactContent s
  | .list items => '[' :: compactItems items ++ [']']
  | .record fields => '{' :: compactFields fields ++ ['}']
  | .broken => []

/-- Items with commas between them. -/
def compactItems : List Json → List Char
  | [] => []
  | [item] => compact item
  | item :: rest => compact item ++ ',' :: compactItems rest

/-- Fields with commas between them. -/
def compactFields : List (Option String × Json) → List Char
  | [] => []
  | [(key, value)] => compactContent key ++ ':' :: compact value
  | (key, value) :: rest => compactContent key ++ ':' :: compact value ++ ',' :: compactFields rest

end

/-- The compact text of a value. -/
def compactText (v : Json) : String := String.ofList v.compact

end Scheduling.Json
