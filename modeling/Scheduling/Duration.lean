/-!
# Lengths of time

A length of time to the nanosecond, its conversions from and to whole milliseconds, and its text: an
exact decimal number of the largest of the units s, ms, µs and ns that is not above it. `toMillis`
mirrors `duration_ms` of `berth-reschedule`; the rest follows the documented behaviour of the
standard type `Duration`.
-/

namespace Scheduling

/-- A length of time. -/
structure Duration where
  /-- Whole seconds. -/
  secs : UInt64
  /-- The nanoseconds beyond them. -/
  nanos : Nat
  /-- The nanoseconds do not make a second. -/
  nanos_lt : nanos < 1000000000
  deriving DecidableEq

namespace Duration

/-- No time. -/
def zero : Duration := ⟨0, 0, by decide⟩

/-- The length of time in nanoseconds. -/
def toNanos (d : Duration) : Nat := d.secs.toNat * 1000000000 + d.nanos

/-- Whole milliseconds as a length of time (`from_millis`). -/
def ofMillis (millis : UInt64) : Duration :=
  ⟨millis / 1000, millis.toNat % 1000 * 1000000, by omega⟩

/-- The whole milliseconds of a length of time, or the largest 64-bit number if they exceed it
(`duration_ms`). -/
def toMillis (d : Duration) : UInt64 :=
  UInt64.ofNat (min (d.secs.toNat * 1000 + d.nanos / 1000000) (UInt64.size - 1))

/-- There is no time at all (`is_zero`). -/
def isZero (d : Duration) : Bool := d.secs == 0 && d.nanos == 0

/-- A number with `part`, a number of `places` digits, after its point; the part's final zeros are
left out, and the point too if nothing follows it. -/
def decimal (whole part places : Nat) : String :=
  let digits := Nat.toDigits 10 part
  let padded := List.replicate (places - digits.length) '0' ++ digits
  let kept := (padded.reverse.dropWhile (· == '0')).reverse
  whole.repr ++ if kept.isEmpty then "" else "." ++ String.ofList kept

/-- The text of a length of time, in its largest unit. -/
def text (d : Duration) : String :=
  if 0 < d.secs then decimal d.secs.toNat d.nanos 9 ++ "s"
  else if 1000000 ≤ d.nanos then decimal (d.nanos / 1000000) (d.nanos % 1000000) 6 ++ "ms"
  else if 1000 ≤ d.nanos then decimal (d.nanos / 1000) (d.nanos % 1000) 3 ++ "µs"
  else d.nanos.repr ++ "ns"

/-- A length of time is zero exactly when it has no nanosecond. -/
theorem isZero_iff (d : Duration) : d.isZero = true ↔ d.toNanos = 0 := by
  simp only [isZero, toNanos, Bool.and_eq_true, beq_iff_eq, ← UInt64.toNat_inj, UInt64.toNat_zero]
  omega

/-- The whole milliseconds are a millionth of the nanoseconds, as far as 64 bits hold them. -/
theorem toNat_toMillis (d : Duration) :
    d.toMillis.toNat = min (d.toNanos / 1000000) (UInt64.size - 1) := by
  simp only [toMillis, toNanos, UInt64.toNat_ofNat', UInt64.size]
  omega

/-- A shorter time has no more milliseconds. -/
theorem toNat_toMillis_le {d e : Duration} (h : d.toNanos ≤ e.toNanos) :
    d.toMillis.toNat ≤ e.toMillis.toNat := by
  rw [toNat_toMillis, toNat_toMillis]
  omega

/-- Whole milliseconds come back from the length of time they make. -/
theorem toMillis_ofMillis (millis : UInt64) : (ofMillis millis).toMillis = millis := by
  have h := millis.toNat_lt
  rw [← UInt64.toNat_inj]
  simp only [toMillis, ofMillis, UInt64.toNat_div, UInt64.toNat_ofNat', UInt64.reduceToNat,
    UInt64.size]
  omega

/-- Whole milliseconds make a length of time of so many millions of nanoseconds. -/
theorem toNanos_ofMillis (millis : UInt64) :
    (ofMillis millis).toNanos = millis.toNat * 1000000 := by
  simp only [toNanos, ofMillis, UInt64.toNat_div, UInt64.reduceToNat]
  omega

/-- Whole milliseconds make some time unless there are none. -/
theorem isZero_ofMillis_iff {millis : UInt64} : (ofMillis millis).isZero = false ↔ 0 < millis := by
  rw [← Bool.not_eq_true, isZero_iff, toNanos_ofMillis, UInt64.lt_iff_toNat_lt, UInt64.toNat_zero]
  omega

end Duration

end Scheduling
