import Scheduling.Json.Token
import Scheduling.Json.Tree

/-!
# Reading a JSON text

A reading goes through the tokens of a text one by one and keeps what it has read: the lists and
records that are open, and the place in the innermost of them. `Reading.tree` is the tree of what
has been read at any moment, with a broken part where the reading stands, so a text that goes wrong
has a tree as well. `Document.ofText` is the tree of a whole text; after its value only blanks may
follow, as `from_str` of `serde_json` asks.
-/

namespace Scheduling.Json

/-- A list or record that is open around the place of a reading. -/
inductive Frame where
  /-- A list, with its items so far in reverse. -/
  | list (items : List Json)
  /-- A record, with its fields so far in reverse, and the key whose value is being read. -/
  | field (fields : List (Option String × Json)) (key : Option String)

/-- The place of a reading in the innermost open list or record. -/
inductive Place where
  /-- A value must follow. -/
  | value
  /-- A list has been opened: a value or its end must follow. -/
  | firstItem
  /-- A record has been opened: a key or its end must follow. -/
  | firstKey
  /-- A comma has been read in a record: a key must follow. -/
  | key (fields : List (Option String × Json))
  /-- A key has been read: a colon must follow. -/
  | colon (fields : List (Option String × Json)) (key : Option String)
  /-- A value has been read. -/
  | done (value : Json)

/-- How far a text has been read. -/
structure Reading where
  place : Place
  frames : List Frame

namespace Reading

/-- Nothing has been read. -/
def start : Reading := ⟨.value, []⟩

/-- The value that a token spells alone. -/
def scalar? : Token → Option Json
  | .null => some .null
  | .bool b => some (.bool b)
  | .number n => some (.number n)
  | .text s => some (.text s)
  | _ => none

/-- Reads the first token of a value. -/
def stepValue (frames : List Frame) : Token → Option Reading
  | .openList => some ⟨.firstItem, frames⟩
  | .openRecord => some ⟨.firstKey, frames⟩
  | t => (scalar? t).map fun v => ⟨.done v, frames⟩

/-- Reads a key. -/
def stepKey (fields : List (Option String × Json)) (frames : List Frame) : Token → Option Reading
  | .text s => some ⟨.colon fields s, frames⟩
  | _ => none

/-- Reads what follows a value. -/
def stepDone (value : Json) : List Frame → Token → Option Reading
  | .list items :: frames, .comma => some ⟨.value, .list (value :: items) :: frames⟩
  | .list items :: frames, .closeList => some ⟨.done (.list (value :: items).reverse), frames⟩
  | .field fields key :: frames, .comma => some ⟨.key ((key, value) :: fields), frames⟩
  | .field fields key :: frames, .closeRecord =>
    some ⟨.done (.record ((key, value) :: fields).reverse), frames⟩
  | _, _ => none

/-- Reads one token, if it can stand at the place of the reading. -/
def step (r : Reading) (t : Token) : Option Reading :=
  match r.place with
  | .value => stepValue r.frames t
  | .firstItem =>
    match t with
    | .closeList => some ⟨.done (.list []), r.frames⟩
    | t => stepValue (.list [] :: r.frames) t
  | .firstKey =>
    match t with
    | .closeRecord => some ⟨.done (.record []), r.frames⟩
    | t => stepKey [] r.frames t
  | .key fields => stepKey fields r.frames t
  | .colon fields key =>
    match t with
    | .colon => some ⟨.value, .field fields key :: r.frames⟩
    | _ => none
  | .done value => stepDone value r.frames t

/-- Reads tokens up to the first that cannot stand where it does, and returns the tokens from there
on. -/
def run (r : Reading) : List Token → Reading × List Token
  | [] => (r, [])
  | t :: rest =>
    match r.step t with
    | some r => r.run rest
    | none => (r, t :: rest)

/-- Closes the open lists and records around a value, each after a broken part. -/
def close (value : Json) : List Frame → Json
  | [] => value
  | .list items :: frames => close (.list (.broken :: value :: items).reverse) frames
  | .field fields key :: frames =>
    close (.record ((none, .broken) :: (key, value) :: fields).reverse) frames

/-- The tree of what has been read. -/
def tree (r : Reading) : Json :=
  match r.place with
  | .value => close .broken r.frames
  | .firstItem => close (.list [.broken]) r.frames
  | .firstKey => close (.record [(none, .broken)]) r.frames
  | .key fields => close (.record ((none, .broken) :: fields).reverse) r.frames
  | .colon fields key => close (.record ((key, .broken) :: fields).reverse) r.frames
  | .done value => close value r.frames

/-- One value has been read, to its end. -/
def isDone (r : Reading) : Bool :=
  match r.place, r.frames with
  | .done _, [] => true
  | _, _ => false

end Reading

/-- What a text spells. -/
structure Document where
  /-- The value at the start of the text. -/
  value : Json
  /-- The text ends with the value. -/
  isComplete : Bool

/-- What a text spells. -/
def Document.ofText (cs : List Char) : Document :=
  let (reading, rest) := Reading.start.run (tokens cs)
  ⟨reading.tree, reading.isDone && rest.isEmpty⟩

end Scheduling.Json
