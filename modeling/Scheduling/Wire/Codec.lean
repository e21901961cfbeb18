import Scheduling.Json.Compact
import Scheduling.Json.Reading
import Scheduling.SortedSet
import Scheduling.Wire.Problem

/-!
# Codecs

A codec writes the values of a type as JSON and reads them back; a codec is lawful if it reads what
it writes. Here are the codecs of plain values, of lists, of sets and of values that may be absent,
as `serde` documents them for the standard types: integers in their range only, sets as sequences in
which a repetition does no harm, `null` for an absent value, and a variant without content by its
name, or by a map from its name to `null`.
-/

namespace Scheduling.Wire

/-- A way to write and read the values of a type. -/
structure Codec (α : Type) where
  encode : α → Json
  decode : Json → Except DecodeError α

namespace Codec

variable {α : Type}

/-- What is written is read back. -/
def IsLawful (c : Codec α) : Prop := ∀ a, c.decode (c.encode a) = .ok a

/-- Reads the value that a text spells, and nothing after it (`from_str`). -/
def decodeText (c : Codec α) (text : String) : Except DecodeError α := do
  let document := Json.Document.ofText text.toList
  let a ← c.decode document.value
  if document.isComplete then return a else throw .malformed

/-- The compact text of a value (`to_string`). -/
def encodeText (c : Codec α) (a : α) : String := (c.encode a).compactText

/-! ## Plain values -/

/-- Strings. -/
def string : Codec String where
  encode := Json.ofString
  decode
    | .text (some s) => .ok s
    | v => .error (mismatch .string v)

/-- Truth values. -/
def boolean : Codec Bool where
  encode := .bool
  decode
    | .bool b => .ok b
    | v => .error (mismatch .boolean v)

/-- Reads an integer that `convert` accepts. -/
def decodeInteger (wanted : Wanted) (convert : Int → Option α) (v : Json) : Except DecodeError α :=
  let check (n : Int) : Except DecodeError α :=
    match convert n with
    | some a => .ok a
    | none => .error (.outOfRange n wanted)
  match v with
  | .number numeral =>
    match numeral.number with
    | some (.natural n) => check n.toNat
    | some (.negative n) => check n.toInt
    | _ => .error (mismatch wanted v)
  | _ => .error (mismatch wanted v)

/-- Unsigned 32-bit integers. -/
def unsigned32 : Codec UInt32 where
  encode n := .ofInt n.toNat
  decode := decodeInteger .unsigned32 fun n =>
    if 0 ≤ n ∧ n.toNat < UInt32.size then some (UInt32.ofNat n.toNat) else none

/-- Unsigned 64-bit integers. -/
def unsigned64 : Codec UInt64 where
  encode n := .ofInt n.toNat
  decode := decodeInteger .unsigned64 fun n =>
    if 0 ≤ n ∧ n.toNat < UInt64.size then some (UInt64.ofNat n.toNat) else none

/-- Signed 64-bit integers. -/
def signed64 : Codec Int64 where
  encode n := .ofInt n.toInt
  decode := decodeInteger .signed64 fun n =>
    if Int64.minValue.toInt ≤ n ∧ n ≤ Int64.maxValue.toInt then some (Int64.ofInt n) else none

/-! ## Compound values -/

/-- Lists. -/
def list (c : Codec α) : Codec (List α) where
  encode xs := .list (xs.map c.encode)
  decode
    | .list items => items.mapM c.decode
    | v => .error (mismatch .sequence v)

/-- Sets of strings, as the lists of their members; a member may be repeated in a document. -/
def stringSet : Codec (SortedSet String) where
  encode s := string.list.encode s.toList
  decode v := SortedSet.ofList <$> string.list.decode v

/-- Values that may be absent, which `null` says. -/
def optional (c : Codec α) : Codec (Option α) where
  encode
    | some a => c.encode a
    | none => .null
  decode
    | .null => .ok none
    | v => some <$> c.decode v

/-- Values that are strings of a certain form, for a type that is written by `collect_str` and read
by its `parse`. -/
def named (write : α → String) (parse : String → Except IdError α) : Codec α where
  encode a := Json.ofString (write a)
  decode v := do
    match parse (← string.decode v) with
    | .ok a => return a
    | .error cause => throw (.badName cause)

/-! ## Values that have names -/

/-- Looks a value up by its name. -/
def lookupVariant (all : List α) (name : α → String) (s : String) : Except DecodeError α :=
  match all.find? fun a => name a = s with
  | some a => .ok a
  | none => .error (.unknownVariant s (all.map name))

/-- Values that are written by name. A document may also hold a record whose one field has the name
and holds `null`. -/
def variant (all : List α) (name : α → String) : Codec α where
  encode a := Json.ofString (name a)
  decode
    | .text (some s) => lookupVariant all name s
    | .record ((some s, content) :: rest) => do
      let a ← lookupVariant all name s
      match content with
      | .null => if rest.isEmpty then return a else throw .malformed
      | v => throw (mismatch .unit v)
    | _ => .error .malformed

end Codec

end Scheduling.Wire
