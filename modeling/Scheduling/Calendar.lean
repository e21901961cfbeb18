/-!
# Dates and times of day

A conversion of milliseconds since 1970 to moments of UTC, for programs that show what
`TaskEvent.timestamp` gives. `timestamp` takes the conversion as a parameter, since `chrono`'s
`from_timestamp_millis`, which it calls, is a library of its own. So no other module builds on this
one, and nothing is proved of it.

The calendar is the Gregorian one, extended to all years, with a year 0 between the years -1 and 1.
Days are counted from the first of March of year 0, so that a leap day ends its year, its four years
and its cycle of four hundred years; the date follows by dividing the count by the lengths of these
spans.
-/

namespace Scheduling.Calendar

/-- A day of the calendar. -/
structure Date where
  year : Int
  month : Nat
  day : Nat
  deriving DecidableEq, Repr

/-- A time of day, to the millisecond. -/
structure Clock where
  hour : Nat
  minute : Nat
  second : Nat
  millisecond : Nat
  deriving DecidableEq, Repr

/-- A moment of UTC, to the millisecond. -/
structure Moment where
  date : Date
  clock : Clock
  deriving DecidableEq, Repr

/-- The milliseconds of a day. -/
def millisPerDay : Nat := 86400000

/-- The days from the first of March of year 0 to the first of January of 1970. -/
def daysToEpoch : Int := 719468

/-- The year, counted from March, and the day in it, from zero, that is `count` days after the first
of March of year 0. -/
def marchYearAndDay (count : Int) : Int × Nat :=
  let cycle := count / 146097
  let dayOfCycle := (count % 146097).toNat
  -- the last century of a cycle and the last year of four are a day longer than the others
  let century := min (dayOfCycle / 36524) 3
  let dayOfCentury := dayOfCycle - 36524 * century
  let quad := dayOfCentury / 1461
  let dayOfQuad := dayOfCentury % 1461
  let yearOfQuad := min (dayOfQuad / 365) 3
  (400 * cycle + (100 * century + 4 * quad + yearOfQuad : Nat), dayOfQuad - 365 * yearOfQuad)

/-- The date of a day, from zero, of a year that is counted from March. -/
def Date.ofMarchDay (marchYear : Int) (dayOfYear : Nat) : Date :=
  -- five months from March or August on have 153 days
  let monthFromMarch := (5 * dayOfYear + 2) / 153
  let day := dayOfYear - (153 * monthFromMarch + 2) / 5 + 1
  if monthFromMarch < 10 then ⟨marchYear, monthFromMarch + 3, day⟩
  else ⟨marchYear + 1, monthFromMarch - 9, day⟩

/-- The date `days` days after the first of January of 1970. -/
def Date.ofDays (days : Int) : Date :=
  let (marchYear, dayOfYear) := marchYearAndDay (days + daysToEpoch)
  Date.ofMarchDay marchYear dayOfYear

/-- The time of day `millis` milliseconds after midnight. -/
def Clock.ofMillis (millis : Nat) : Clock :=
  ⟨millis / 3600000, millis / 60000 % 60, millis / 1000 % 60, millis % 1000⟩

/-- The years that `chrono` documents as those it can represent. -/
def yearInRange (year : Int) : Bool := -262143 ≤ year && year ≤ 262142

/-- The moment `millis` milliseconds after the start of 1970. -/
def Moment.ofMillis (millis : Int) : Moment :=
  ⟨Date.ofDays (millis / millisPerDay), Clock.ofMillis (millis % millisPerDay).toNat⟩

/-- The moment `millis` milliseconds after the start of 1970, if its year can be represented. -/
def Moment.ofEpochMillis (millis : Int64) : Option Moment :=
  let moment := Moment.ofMillis millis.toInt
  if yearInRange moment.date.year then some moment else none

end Scheduling.Calendar
