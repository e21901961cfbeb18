import Scheduling.Json.Numeral

/-!
# JSON trees

The value that a JSON text spells, or as much of it as the text spells: where a text goes wrong the
tree has a part `broken`, and everything before it is there. A reader of a tree that stops at the
first thing it cannot accept therefore reports what is wrong first in the text, be it the text's
form or its meaning. So does `from_str` of `serde_json`, which builds no tree and reads a value off
the text from left to right.
-/

namespace Scheduling

/-- A JSON value. -/
inductive Json where
  | null
  | bool (value : Bool)
  | number (numeral : Numeral)
  /-- A text; it has no content if it spells one half of a character alone. -/
  | text (content : Option String)
  | list (items : List Json)
  /-- Fields in the order of the text. A key has no content if it spells one half of a character
  alone; nor has it where the text goes wrong, and the value is broken there. -/
  | record (fields : List (Option String × Json))
  /-- The text goes wrong here. -/
  | broken

namespace Json

/-- The text of a string. -/
def ofString (s : String) : Json := .text (some s)

/-- The numeral of an integer. -/
def ofInt (n : Int) : Json := .number (.ofInt n)

mutual

/-- The value is spelt out to its end. -/
def isWhole : Json → Bool
  | .list items => areWhole items
  | .record fields => fieldsAreWhole fields
  | .broken => false
  | _ => true

/-- The values of a list are spelt out. -/
def areWhole : List Json → Bool
  | [] => true
  | item :: rest => isWhole item && areWhole rest

/-- The values of a record are spelt out. -/
def fieldsAreWhole : List (Option String × Json) → Bool
  | [] => true
  | (_, value) :: rest => isWhole value && fieldsAreWhole rest

end

end Json

end Scheduling
