import Scheduling.Decimal.Whole

/-!
# The shortest decimal that reads back

A positive floating-point number is `m * 2 ^ q`; the reals that round to it form an interval around
it, its ends included when `m` is even. The shortest decimal of the number is the one on the
coarsest grid of powers of ten that meets the interval, the nearest of them to the number if that
grid meets it twice. `PointStyle` says which decimals are written out and which with an exponent.
Messages about documents show floating-point numbers in this way.
-/

namespace Scheduling.Decimal

/-- The positive number `m * 2 ^ q`, and whether its gap to the number below is half of that to the
number above. -/
structure Binary where
  m : Nat
  q : Int
  narrowBelow : Bool
  deriving DecidableEq, Repr

/-- The decimal `digits * 10 ^ exponent`. -/
structure Scaled where
  digits : Nat
  exponent : Int
  deriving DecidableEq, Repr

/-- The factors `unit` and `den` for which `m * 2 ^ q / 10 ^ k` is `4 * m * unit / den`. -/
def Binary.scale (b : Binary) (k : Int) : Nat × Nat :=
  (Nat.pow 2 b.q.toNat * Nat.pow 10 (-k).toNat, 4 * Nat.pow 2 (-b.q).toNat * Nat.pow 10 k.toNat)

/-- The point of the grid of multiples of `10 ^ k` that lies nearest to the number, among those that
round to it, if there is one. -/
def Binary.onGrid? (b : Binary) (k : Int) : Option Scaled :=
  let (unit, den) := b.scale k
  let value := 4 * b.m * unit
  let low := (4 * b.m - if b.narrowBelow then 1 else 2) * unit
  let high := (4 * b.m + 2) * unit
  let rounds (n : Nat) : Bool :=
    if b.m % 2 = 0 then low ≤ n * den && n * den ≤ high else low < n * den && n * den < high
  let below := value / den
  let above := below + 1
  if rounds below then
    -- on a tie the even point is taken
    let nearer := value - below * den < above * den - value
      || (value - below * den == above * den - value && below % 2 == 0)
    if rounds above && !nearer then some ⟨above, k⟩ else some ⟨below, k⟩
  else if rounds above then some ⟨above, k⟩
  else none

/-- The shortest decimal of a number, searched from the coarsest grid on. -/
def Binary.shortest (b : Binary) : Scaled :=
  ((List.range 700).findSome? fun i : Nat => b.onGrid? (310 - i)).getD ⟨0, 0⟩

/-- The bit, two to the power 52, that the significand of a normal number has and does not store. -/
def implicitBit : Nat := 4503599627370496

/-- The magnitude of a floating-point number with the given bits, if it is finite and not zero. -/
def Binary.ofBits? (bits : UInt64) : Option Binary :=
  let e := (bits >>> 52).toNat % 2048
  let f := bits.toNat % implicitBit
  if e = 2047 then none
  else if e = 0 then if f = 0 then none else some ⟨f, -1074, false⟩
  else some ⟨implicitBit + f, e - 1075, f = 0 && e != 1⟩

/-- Which decimals are written without an exponent: those whose first digit stands for a power of
ten between two bounds. -/
structure PointStyle where
  least : Int
  greatest : Int

/-- The text of a decimal. A number written out has at least one digit after its point; the exponent
of one that is not has a sign and no leading zeros. -/
def PointStyle.write (style : PointStyle) (d : Scaled) : List Char :=
  let digits := natText d.digits
  let first := d.exponent + digits.length - 1
  if style.least ≤ first ∧ first ≤ style.greatest then
    if 0 ≤ d.exponent then digits ++ List.replicate d.exponent.toNat '0' ++ ['.', '0']
    else if 0 ≤ first then digits.take (first.toNat + 1) ++ '.' :: digits.drop (first.toNat + 1)
    else '0' :: '.' :: List.replicate (-first - 1).toNat '0' ++ digits
  else
    digits.take 1 ++ (if digits.length = 1 then [] else '.' :: digits.drop 1) ++ 'e'
      :: (if first < 0 then '-' else '+') :: natText first.natAbs

/-- The text of a finite floating-point number. -/
def PointStyle.writeFloat (style : PointStyle) (x : Float) : List Char :=
  let bits := x.toBits
  let sign := if bits >>> 63 = 0 then [] else ['-']
  sign ++ match Binary.ofBits? bits with
    | some b => style.write b.shortest
    | none => ['0', '.', '0']

end Scheduling.Decimal
