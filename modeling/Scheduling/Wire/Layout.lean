import Scheduling.Wire.Codec

/-!
# Record layouts

The layout of a record type: its fields in the order in which it declares them, each with a name, a
codec, and perhaps a value that stands for it when it is left out. A document may hold a record as
the record of its fields, in any order and with others between them, or as the list of their values
in the declared order. Reading stops at the first thing that is wrong.

This is what `serde` documents of a type that derives `Serialize` and `Deserialize`: fields that are
not known are skipped, one that occurs twice is an error, and so is one that is missing, unless it
has a `default` (`Layout.fallback`). A list may leave out fields with a `default` at its end.
`skip_serializing_if` is `Layout.isOmitted`.
-/

namespace Scheduling.Wire

/-- How a record type is written and read. -/
structure Layout (α : Type) where
  /-- The name of the type in messages. -/
  title : String
  /-- The fields of the type. -/
  Field : Type
  /-- Fields can be told apart. -/
  [decEq : DecidableEq Field]
  /-- The fields in the order in which they are declared. -/
  fields : List Field
  mem_fields : ∀ f, f ∈ fields
  name : Field → String
  /-- No two fields have one name. -/
  nodup_names : (fields.map name).Nodup
  /-- The type of a field's value. -/
  Slot : Field → Type
  codec : (f : Field) → Codec (Slot f)
  /-- The value of a field that a document leaves out, if it may. -/
  fallback : (f : Field) → Option (Slot f)
  /-- The value is left out of what is written. -/
  isOmitted : (f : Field) → Slot f → Bool
  /-- The value of a field. -/
  get : α → (f : Field) → Slot f
  /-- The record with given values of its fields. -/
  build : ((f : Field) → Slot f) → α

namespace Layout

variable {α : Type} (l : Layout α)

instance : DecidableEq l.Field := l.decEq

/-- The values of the fields that have been read. -/
abbrev Draft : Type := (f : l.Field) → Option (l.Slot f)

/-- No field has been read. -/
def emptyDraft : l.Draft := fun _ => none

variable {l} in
/-- The draft with a value for one more field. -/
def Draft.put (d : l.Draft) (f : l.Field) (v : l.Slot f) : l.Draft := fun g =>
  if h : f = g then some (h ▸ v) else d g

/-- The field of a name. -/
def field? (name : String) : Option l.Field := l.fields.find? fun f => l.name f = name

/-- Reads the fields of a record into a draft. A field must not occur twice; the values of other
fields need only be spelt out. -/
def readFields (d : l.Draft) : List (Option String × Json) → Except DecodeError l.Draft
  | [] => .ok d
  | (some name, value) :: rest =>
    match l.field? name with
    | some f =>
      if (d f).isSome then .error (.duplicateField name)
      else do
        let v ← (l.codec f).decode value
        readFields (d.put f v) rest
    | none => if value.isWhole then readFields d rest else .error .malformed
  | _ => .error .malformed

/-- Reads the items of a list into a draft, where `position` items have been read and `fields` are
the fields to come. -/
def readItems (position : Nat) (d : l.Draft) :
    List l.Field → List Json → Except DecodeError l.Draft
  | [], [] => .ok d
  | [], _ :: _ => .error .malformed
  | f :: fields, [] =>
    if (l.fallback f).isSome then readItems (position + 1) d fields []
    else .error (.tooShort position l.title l.fields.length)
  | f :: fields, item :: items => do
    let v ← (l.codec f).decode item
    readItems (position + 1) (d.put f v) fields items

/-- The record of a draft; the first field without a value is missing. -/
def finish (d : l.Draft) : Except DecodeError α :=
  match h : l.fields.find? fun f => ((d f).or (l.fallback f)).isNone with
  | some f => .error (.missingField (l.name f))
  | none => .ok <| l.build fun f => ((d f).or (l.fallback f)).get <|
      Option.isSome_iff_ne_none.2 fun hn =>
        List.find?_eq_none.1 h f (l.mem_fields f) (Option.isNone_iff_eq_none.2 hn)

/-- Reads a record. -/
def decode : Json → Except DecodeError α
  | .record fields => l.readFields l.emptyDraft fields >>= l.finish
  | .list items => l.readItems 0 l.emptyDraft l.fields items >>= l.finish
  | v => .error (mismatch (.record l.title) v)

/-- Writes a record, as the record of its fields. -/
def encode (a : α) : Json :=
  .record <| (l.fields.filter fun f => !l.isOmitted f (l.get a f)).map fun f =>
    (some (l.name f), (l.codec f).encode (l.get a f))

/-- The codec of a record type. -/
def toCodec : Codec α := ⟨l.encode, l.decode⟩

end Layout

end Scheduling.Wire
