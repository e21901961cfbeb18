/-!
# Whole numbers in decimal

Writing integers, and reading a whole number below `2^64` from its digits. A numeral may start with
one plus sign; it is read digit by digit, and the first thing that is wrong with it is the fault
reported, as `parse` of the standard library reads a `u64`.
-/

namespace Scheduling.Decimal

/-- The digits of a natural number. -/
def natText (n : Nat) : List Char := Nat.toDigits 10 n

/-- The digits of an integer, after a hyphen if it is negative. -/
def intText : Int → List Char
  | .ofNat n => natText n
  | .negSucc n => '-' :: natText (n + 1)

/-- What is wrong with a numeral. -/
inductive WholeFault where
  /-- There is nothing to read. -/
  | empty
  /-- A character is no digit, or a sign stands alone. -/
  | badDigit
  /-- The digits read so far exceed the largest number. -/
  | tooLarge
  deriving DecidableEq, Repr

/-- The wording of a fault. -/
def WholeFault.message : WholeFault → String
  | .empty => "cannot parse integer from empty string"
  | .badDigit => "invalid digit found in string"
  | .tooLarge => "number too large to fit in target type"

/-- The value of a decimal digit. -/
def digitValue (c : Char) : Nat := c.toNat - '0'.toNat

/-- Reads digits after a part of value `read`, which they extend. -/
def readDigits (read : Nat) : List Char → Except WholeFault Nat
  | [] => .ok read
  | c :: rest =>
    if c.isDigit = false then .error .badDigit
    else if UInt64.size ≤ 10 * read + digitValue c then .error .tooLarge
    else readDigits (10 * read + digitValue c) rest

/-- Reads a whole number below `2^64`; one plus sign may stand before its digits. -/
def readWhole : List Char → Except WholeFault UInt64
  | [] => .error .empty
  | ['+'] => .error .badDigit
  | '+' :: digits => UInt64.ofNat <$> readDigits 0 digits
  | digits => UInt64.ofNat <$> readDigits 0 digits

/-- Digits after a number never make it smaller. -/
theorem le_ofDigitChars (digits : List Char) (read : Nat) :
    read ≤ Nat.ofDigitChars 10 digits read := by
  rw [Nat.ofDigitChars_eq_ofDigitChars_zero]
  have := Nat.le_mul_of_pos_left read (Nat.pow_pos (n := digits.length) (by decide : 0 < 10))
  omega

/-- Digits whose value fits are read as that value. -/
theorem readDigits_eq_ok {digits : List Char} (read : Nat) (hd : ∀ c ∈ digits, c.isDigit = true)
    (hlt : Nat.ofDigitChars 10 digits read < UInt64.size) :
    readDigits read digits = .ok (Nat.ofDigitChars 10 digits read) := by
  induction digits generalizing read with
  | nil => simp [readDigits]
  | cons c rest ih =>
    rw [Nat.ofDigitChars_cons] at hlt ⊢
    have hle := le_ofDigitChars rest (10 * read + digitValue c)
    unfold digitValue at hle
    rw [readDigits, if_neg (by simp [hd c (by simp)]), if_neg (by unfold digitValue; omega)]
    exact ih _ (fun d h => hd d (by simp [h])) hlt

end Scheduling.Decimal
