/-!
# Universally unique identifiers

A 128-bit identifier and its text, thirty-two lower-case hexadecimal digits in groups of 8, 4, 4, 4
and 12 with hyphens between them: what the `uuid` library documents of the text of a `Uuid`.

Names of tasks are generated from an identifier that is given (`TaskId.generate`), since `new_v4`
draws it at random. `Uuid.ofRandom` and `Uuid.isRandomText` are for programs that show a generated
name: the one writes version 4 over bits that they have drawn, the other tells the text of such an
identifier.
-/

namespace Scheduling

/-- A 128-bit identifier. -/
structure Uuid where
  bits : BitVec 128
  deriving DecidableEq

namespace Uuid

/-- Random bits with version 4 and the standard variant written over them (`new_v4`). -/
def ofRandom (high low : UInt64) : Uuid :=
  let timeHigh : BitVec 12 := high.toBitVec.extractLsb' 0 12
  let clock : BitVec 62 := low.toBitVec.extractLsb' 0 62
  ⟨high.toBitVec.extractLsb' 16 48 ++ 4#4 ++ timeHigh ++ 2#2 ++ clock⟩

/-- The digit of a number below sixteen. -/
def hexDigit (d : BitVec 4) : Char := Nat.digitChar d.toNat

/-- The thirty-two digits, without hyphens. -/
def digits (u : Uuid) : List Char :=
  (List.range 32).map fun i => hexDigit (u.bits.extractLsb' (124 - 4 * i) 4)

/-- The text: the digits in groups of 8, 4, 4, 4 and 12. -/
def text (u : Uuid) : List Char :=
  let d := u.digits
  d.take 8 ++ '-' :: ((d.drop 8).take 4 ++ '-' :: ((d.drop 12).take 4 ++
    '-' :: ((d.drop 16).take 4 ++ '-' :: d.drop 20)))

/-- A lower-case hexadecimal digit. -/
def isHexDigit (c : Char) : Bool := c.isDigit || ('a' ≤ c && c ≤ 'f')

/-- A text is the text of a random identifier: its hyphens stand at their places, it has version 4
and the standard variant. -/
def isRandomText (s : List Char) : Bool :=
  s.length == 36 &&
    s.zipIdx.all fun (c, i) =>
      if i = 8 ∨ i = 13 ∨ i = 18 ∨ i = 23 then c == '-'
      else if i = 14 then c == '4'
      else if i = 19 then c == '8' || c == '9' || c == 'a' || c == 'b'
      else isHexDigit c

end Uuid

end Scheduling
