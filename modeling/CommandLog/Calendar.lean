/-!
# Instants and dates

An instant is a number of seconds since the start of 1970, in universal time and without leap
seconds, with a fraction in nanoseconds. A leap second is the second `59` of a minute with a
fraction of a full second or more.

* `CommandLog.Date` – a day of the proleptic Gregorian calendar, and
  `CommandLog.Date.ofDayNumber`, which finds it from the number of days since the start of 1970;
* `CommandLog.Instant` – an instant, and `CommandLog.Instant.ofUnix?`, which refuses instants
  outside the years `-262143` to `262142` and fractions that are none.

The date is computed in years that start in March: a leap day is then the last day of its year,
and both the length of the months before a month and the length of the years before a year are
linear up to a quotient.
-/

namespace CommandLog

/-- A day of the proleptic Gregorian calendar. -/
structure Date where
  /-- The year; the year before year one is zero. -/
  year : Int
  /-- The month, from one. -/
  month : Nat
  /-- The day of the month, from one. -/
  day : Nat
deriving DecidableEq, Repr

namespace Date

/-- Days in four hundred years. -/
def eraDays : Int := 146097

/-- **The date of a day**, counted from the first day of 1970. Days are counted from the first of
March of year zero here, in eras of four hundred years. -/
def ofDayNumber (n : Int) : Date :=
  let shifted := n + 719468
  let era := shifted.fdiv eraDays
  let dayOfEra := (shifted - era * eraDays).toNat
  let yearOfEra :=
    (dayOfEra - dayOfEra / 1460 + dayOfEra / 36524 - dayOfEra / 146096) / 365
  let dayOfYear := dayOfEra - (365 * yearOfEra + yearOfEra / 4 - yearOfEra / 100)
  let monthFromMarch := (5 * dayOfYear + 2) / 153
  let month := if monthFromMarch < 10 then monthFromMarch + 3 else monthFromMarch - 9
  { year := era * 400 + yearOfEra + (if month ≤ 2 then 1 else 0)
    month
    day := dayOfYear - (153 * monthFromMarch + 2) / 5 + 1 }

/-- The day of the week of a day counted from the first day of 1970, Sunday being zero. -/
def weekday (n : Int) : Nat :=
  ((n + 4).fmod 7).toNat

end Date

/-- A point in time. -/
structure Instant where
  /-- Seconds since the start of 1970. -/
  seconds : Int
  /-- The fraction of the second, in nanoseconds; a full second or more for a leap second. -/
  nanos : Nat
deriving DecidableEq, Repr, Inhabited

namespace Instant

/-- Nanoseconds in a second. -/
def nanosPerSecond : Nat := 1000000000

/-- Seconds in a day. -/
def secondsPerDay : Int := 86400

/-- The day of an instant, counted from the first day of 1970. -/
def dayNumber (i : Instant) : Int :=
  i.seconds.fdiv secondsPerDay

/-- The second of the day. -/
def secondOfDay (i : Instant) : Nat :=
  (i.seconds - i.dayNumber * secondsPerDay).toNat

/-- The date of an instant. -/
def date (i : Instant) : Date :=
  Date.ofDayNumber i.dayNumber

/-- The hour. -/
def hour (i : Instant) : Nat :=
  i.secondOfDay / 3600

/-- The minute of the hour. -/
def minute (i : Instant) : Nat :=
  i.secondOfDay / 60 % 60

/-- The second of the minute, `60` in a leap second. -/
def second (i : Instant) : Nat :=
  i.secondOfDay % 60 + i.nanos / nanosPerSecond

/-- **The instant of a number of seconds and nanoseconds**, if there is one. Only the last second
of a minute may have a fraction of a full second or more, and only of less than two. -/
def ofUnix? (seconds : Int) (nanos : Nat) : Option Instant :=
  let i : Instant := { seconds, nanos }
  let year := i.date.year
  let fraction :=
    nanos < nanosPerSecond ∨ (i.secondOfDay % 60 = 59 ∧ nanos < 2 * nanosPerSecond)
  if -262143 ≤ year ∧ year ≤ 262142 ∧ fraction then some i else none

/-- The instant some milliseconds after the start of 1970. -/
def ofMillis (ms : Nat) : Instant where
  seconds := ms / 1000
  nanos := ms % 1000 * 1000000

end Instant

end CommandLog
