import Scheduling.Decimal.Shortest
import Scheduling.Ident
import Scheduling.Json.Tree

/-!
# What can be wrong with a document

A text may be no JSON, or its value may not be one of the type that is wanted. `Found` is what a
value shows of itself when another was wanted, `Wanted` what was, and `DecodeError.message` puts
them into words. A malformed text has no message of its own. The errors and their wordings are those
that `serde` documents for the constructors of its trait `Error`, from `invalid_type` to
`duplicate_field`, with what `serde_json` makes of an unexpected `null`; `badName` is the `custom`
error with which a name that does not parse is refused. Positions in the text are left out.
-/

namespace Scheduling.Wire

/-- What a value shows of itself when another was wanted. -/
inductive Found where
  | null
  | boolean (value : Bool)
  | integer (value : Int)
  | real (value : Float)
  | text (content : String)
  | sequence
  | map

/-- Floating-point numbers are written out from `10 ^ -5` up to below `10 ^ 16`. -/
def realStyle : Decimal.PointStyle := ⟨-5, 15⟩

/-- The wording of what was found. -/
def Found.message : Found → String
  | .null => "null"
  | .boolean true => "boolean \x60true\x60"
  | .boolean false => "boolean \x60false\x60"
  | .integer value => "integer \x60" ++ String.ofList (Decimal.intText value) ++ "\x60"
  | .real value => "floating point \x60" ++ String.ofList (realStyle.writeFloat value) ++ "\x60"
  | .text content => "string " ++ Text.quoteText content
  | .sequence => "sequence"
  | .map => "map"

/-- What was wanted in the place of a value. -/
inductive Wanted where
  | string
  | sequence
  | boolean
  | unsigned32
  | unsigned64
  | signed64
  | unit
  /-- A record with the given title. -/
  | record (title : String)
  deriving DecidableEq, Repr

/-- The wording of what was wanted. -/
def Wanted.message : Wanted → String
  | .string => "a string"
  | .sequence => "a sequence"
  | .boolean => "a boolean"
  | .unsigned32 => "u32"
  | .unsigned64 => "u64"
  | .signed64 => "i64"
  | .unit => "unit"
  | .record title => "struct " ++ title

/-- What is wrong with a document. -/
inductive DecodeError where
  /-- The text is no JSON, or holds more than it may. -/
  | malformed
  /-- A value of another type was wanted. -/
  | wrongType (found : Found) (wanted : Wanted)
  /-- An integer is out of the range that was wanted. -/
  | outOfRange (value : Int) (wanted : Wanted)
  /-- A list of `length` items stands for a record of `size` fields. -/
  | tooShort (length : Nat) (title : String) (size : Nat)
  | missingField (name : String)
  | duplicateField (name : String)
  /-- A name is none of those that are known. -/
  | unknownVariant (name : String) (known : List String)
  /-- A text is no name of a job or task. -/
  | badName (cause : IdError)

/-- A name in backquotes. -/
def backquoted (name : String) : String := "\x60" ++ name ++ "\x60"

/-- The names that were expected. -/
def expectedNames : List String → String
  | [] => "there are no variants"
  | [name] => "expected " ++ backquoted name
  | [first, second] => "expected " ++ backquoted first ++ " or " ++ backquoted second
  | names => "expected one of " ++ String.intercalate ", " (names.map backquoted)

/-- The wording of an error, unless the text is malformed. -/
def DecodeError.message : DecodeError → Option String
  | .malformed => none
  | .wrongType found wanted =>
    some ("invalid type: " ++ found.message ++ ", expected " ++ wanted.message)
  | .outOfRange value wanted =>
    some ("invalid value: " ++ (Found.integer value).message ++ ", expected " ++ wanted.message)
  | .tooShort length title size =>
    some ("invalid length " ++ length.repr ++ ", expected " ++ (Wanted.record title).message
      ++ " with " ++ size.repr ++ if size = 1 then " element" else " elements")
  | .missingField name => some ("missing field " ++ backquoted name)
  | .duplicateField name => some ("duplicate field " ++ backquoted name)
  | .unknownVariant name known =>
    some ("unknown variant " ++ backquoted name ++ ", " ++ expectedNames known)
  | .badName cause => some cause.message

/-- The error for a value when another was wanted. What a list or record holds does not matter, but
the spelling of any other value does. -/
def mismatch (wanted : Wanted) : Json → DecodeError
  | .null => .wrongType .null wanted
  | .bool value => .wrongType (.boolean value) wanted
  | .number numeral =>
    match numeral.number with
    | some (.natural n) => .wrongType (.integer n.toNat) wanted
    | some (.negative n) => .wrongType (.integer n.toInt) wanted
    | some (.real x) => .wrongType (.real x) wanted
    | none => .malformed
  | .text (some content) => .wrongType (.text content) wanted
  | .text none => .malformed
  | .list _ => .wrongType .sequence wanted
  | .record _ => .wrongType .map wanted
  | .broken => .malformed

end Scheduling.Wire
