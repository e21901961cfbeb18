import Scheduling.Decimal.Whole

/-!
# Numerals

A numeral of a JSON text by its parts, how it is read off a text, and the number it stands for. A
whole number stands for itself while 64 bits hold it, and for a floating-point number otherwise, as
does any numeral with a fraction or an exponent. The significant digits are those that fit 64 bits:
whole digits beyond them only raise the exponent, and digits of the fraction beyond them are
dropped. This is how `serde_json` reads a number unless it is built to keep every digit: a `u64` or
an `i64` where it fits, and otherwise an `f64` that may be off in its last place.
-/

namespace Scheduling

/-- A numeral as it is written. -/
structure Numeral where
  negative : Bool
  /-- The digits before the point. -/
  whole : List Char
  /-- The digits after the point; none if there is no point. -/
  fraction : List Char
  /-- The exponent: whether it is negative, and its digits. -/
  exponent : Option (Bool × List Char)
  deriving DecidableEq, Repr

/-- The number that a numeral stands for. -/
inductive Number where
  /-- A whole number that is not negative. -/
  | natural (n : UInt64)
  /-- A whole number below zero. -/
  | negative (n : Int64)
  /-- Any other number. -/
  | real (x : Float)

namespace Numeral

/-- The numeral of an integer. -/
def ofInt (n : Int) : Numeral := ⟨n < 0, Decimal.natText n.natAbs, [], none⟩

/-- The text of a numeral. -/
def text (n : Numeral) : List Char :=
  (if n.negative then ['-'] else []) ++ n.whole
    ++ (if n.fraction.isEmpty then [] else '.' :: n.fraction)
    ++ match n.exponent with
      | none => []
      | some (negative, digits) => 'e' :: (if negative then '-' :: digits else digits)

/-! ## Reading off a text -/

/-- Splits a sign off a text. -/
def scanSign : List Char → Bool × List Char
  | '-' :: rest => (true, rest)
  | cs => (false, cs)

/-- Splits the digits off a text. -/
def scanDigits (cs : List Char) : List Char × List Char :=
  (cs.takeWhile Char.isDigit, cs.dropWhile Char.isDigit)

/-- Splits a fraction off a text; a point needs a digit after it. -/
def scanFraction : List Char → Option (List Char × List Char)
  | '.' :: rest => if (scanDigits rest).1 = [] then none else some (scanDigits rest)
  | cs => some ([], cs)

/-- Splits the sign of an exponent off a text. -/
def scanExponentSign : List Char → Bool × List Char
  | '+' :: rest => (false, rest)
  | cs => scanSign cs

/-- Splits an exponent off a text; it needs a digit. -/
def scanExponent : List Char → Option (Option (Bool × List Char) × List Char)
  | [] => some (none, [])
  | c :: rest =>
    if c = 'e' ∨ c = 'E' then
      let sign := scanExponentSign rest
      let digits := scanDigits sign.2
      if digits.1 = [] then none else some (some (sign.1, digits.1), digits.2)
    else some (none, c :: rest)

/-- Splits a numeral off a text; its whole part has no leading zero. -/
def scan (cs : List Char) : Option (Numeral × List Char) :=
  let sign := scanSign cs
  let whole := scanDigits sign.2
  if whole.1 = [] ∨ (whole.1.head? = some '0' ∧ 1 < whole.1.length) then none
  else
    (scanFraction whole.2).bind fun fraction =>
      (scanExponent fraction.2).map fun exponent =>
        (⟨sign.1, whole.1, fraction.1, exponent.1⟩, exponent.2)

/-- Splitting a sign off takes at most itself. -/
theorem length_scanSign_le (cs : List Char) : (scanSign cs).2.length ≤ cs.length := by
  unfold scanSign; split <;> simp

/-- Splitting digits off takes exactly them. -/
theorem length_scanDigits (cs : List Char) :
    (scanDigits cs).1.length + (scanDigits cs).2.length = cs.length := by
  rw [← List.length_append, scanDigits, List.takeWhile_append_dropWhile]

/-- Splitting a fraction off leaves no more than there was. -/
theorem length_scanFraction_le {cs : List Char} {r : List Char × List Char}
    (h : scanFraction cs = some r) : r.2.length ≤ cs.length := by
  unfold scanFraction at h
  split at h
  · next rest =>
    split at h
    · cases h
    · have := length_scanDigits rest
      cases h
      simp only [List.length_cons]
      omega
  · cases h; exact Nat.le_refl _

/-- Splitting an exponent off leaves no more than there was. -/
theorem length_scanExponent_le {cs : List Char} {r : Option (Bool × List Char) × List Char}
    (h : scanExponent cs = some r) : r.2.length ≤ cs.length := by
  unfold scanExponent at h
  split at h
  · cases h; exact Nat.le_refl _
  · next c rest =>
    split at h
    · have hs : (scanExponentSign rest).2.length ≤ rest.length := by
        unfold scanExponentSign
        split
        · simp
        · exact length_scanSign_le _
      have hd := length_scanDigits (scanExponentSign rest).2
      dsimp only at h
      split at h
      · cases h
      · cases h
        simp only [List.length_cons]
        omega
    · cases h; exact Nat.le_refl _

/-- Splitting a numeral off leaves less than there was. -/
theorem length_scan_lt {cs : List Char} {r : Numeral × List Char} (h : scan cs = some r) :
    r.2.length < cs.length := by
  unfold scan at h
  dsimp only at h
  split at h
  · cases h
  · next hw =>
    simp only [Option.bind_eq_some_iff, Option.map_eq_some_iff] at h
    obtain ⟨f, hf, e, he, rfl⟩ := h
    have h1 := length_scanSign_le cs
    have h2 := length_scanDigits (scanSign cs).2
    have h3 := length_scanFraction_le hf
    have h4 := length_scanExponent_le he
    have h5 := List.length_pos_iff.2 fun hnil => hw (Or.inl hnil)
    dsimp only
    omega

/-! ## The number it stands for -/

/-- Extends a significand by digits as long as 64 bits hold it, and counts the digits left out. -/
def accumulate (significand : Nat) : List Char → Nat × Nat
  | [] => (significand, 0)
  | c :: rest =>
    let extended := 10 * significand + Decimal.digitValue c
    if extended < UInt64.size then accumulate extended rest else (significand, rest.length + 1)

/-- The power of ten with a natural exponent, as the nearest floating-point number. -/
def powerOfTen (k : Nat) : Float := Float.ofScientific 1 false k

/-- The number `x * 10 ^ e`, by one multiplication or division, after divisions by `10 ^ 308` while
`e` is below -308. There is none if it exceeds the finite numbers. -/
def scale (x : Float) (e : Int) : Option Float :=
  if e.natAbs ≤ 308 then
    if 0 ≤ e then
      let y := x * powerOfTen e.natAbs
      if y.isInf then none else some y
    else some (x / powerOfTen e.natAbs)
  else if x == 0 then some x
  else if 0 ≤ e then none
  else scale (x / powerOfTen 308) (e + 308)
termination_by e.natAbs
decreasing_by omega

/-- The largest exponent that is still computed with. -/
def maxExponent : Nat := 2147483647

/-- The magnitude of a numeral with a significand and an exponent of its own. -/
def magnitude (significand : Nat) (shift : Int) (exponent : Option (Bool × List Char)) :
    Option Float :=
  let x := (UInt64.ofNat significand).toFloat
  match exponent with
  | none => scale x shift
  | some (negative, digits) =>
    let e := Nat.ofDigitChars 10 digits 0
    if e ≤ maxExponent then scale x (if negative then shift - e else shift + e)
    else if negative ∨ significand = 0 then some 0
    else none

/-- The number a numeral stands for, if it is not too large. -/
def number (n : Numeral) : Option Number :=
  let (significand, left) := accumulate 0 n.whole
  if left = 0 ∧ n.fraction.isEmpty ∧ n.exponent.isNone then
    if !n.negative then some (.natural (UInt64.ofNat significand))
    else if 0 < significand ∧ 2 * significand ≤ UInt64.size then
      some (.negative (Int64.ofInt (-significand)))
    else some (.real (-(UInt64.ofNat significand).toFloat))
  else
    let (significand, dropped) := accumulate significand n.fraction
    let shift : Int := left - (n.fraction.length - dropped : Nat)
    (magnitude significand shift n.exponent).map fun x => .real (if n.negative then -x else x)

end Numeral

end Scheduling
