import CommandLog.Bytes
import CommandLog.Calendar

/-!
# Timestamp entries

An annotator stores the time as a command of its own, for instance
`timestamp:Tue, 02 Jan 2024 03:04:05 +0000` and a terminator. The text is in English whatever the
surroundings, the time is universal time, and days, hours, minutes and seconds have two digits.
A year outside the four-digit ones is written with its sign.

`CommandLog.Timestamp.entry` is the whole entry, `CommandLog.Timestamp.render` the time in it.
`CommandLog.Timestamp.renderPlain` is a shorter text in numbers only. A `CommandLog.Timestamp` is
the entry of some instant, and nothing else.
-/

namespace CommandLog

namespace Timestamp

/-- The format of the time, in the notation of `strftime`. -/
def format : String := "%a, %d %b %Y %T %z"

/-- Names of the days of the week, from Sunday. -/
def weekdays : List String := ["Sun", "Mon", "Tue", "Wed", "Thu", "Fri", "Sat"]

/-- Names of the months. -/
def months : List String :=
  ["Jan", "Feb", "Mar", "Apr", "May", "Jun", "Jul", "Aug", "Sep", "Oct", "Nov", "Dec"]

/-- A number with leading zeros up to a width. -/
def padded (width n : Nat) : String :=
  let digits := Nat.toDigits 10 n
  String.ofList (List.replicate (width - digits.length) '0' ++ digits)

/-- A year in at least four digits, with a sign when it needs more or is negative. -/
def year (y : Int) : String :=
  if y < 0 then "-" ++ padded 4 y.natAbs
  else if y < 10000 then padded 4 y.natAbs
  else "+" ++ padded 4 y.natAbs

/-- **The time as text.** -/
def render (i : Instant) : String :=
  let date := i.date
  (weekdays[Date.weekday i.dayNumber]?).getD "" ++ ", " ++ padded 2 date.day ++ " " ++
    (months[date.month - 1]?).getD "" ++ " " ++ year date.year ++ " " ++
    padded 2 i.hour ++ ":" ++ padded 2 i.minute ++ ":" ++ padded 2 i.second ++ " +0000"

/-- A fraction of a second in as few of three, six and nine places as it takes, with its point;
nothing for a whole second. -/
def fraction (nanos : Nat) : String :=
  if nanos = 0 then ""
  else if nanos % 1000000 = 0 then "." ++ padded 3 (nanos / 1000000)
  else if nanos % 1000 = 0 then "." ++ padded 6 (nanos / 1000)
  else "." ++ padded 9 nanos

/-- The time in numbers, for instance `2024-01-02T03:04:05.250+00:00`. -/
def renderPlain (i : Instant) : String :=
  let date := i.date
  year date.year ++ "-" ++ padded 2 date.month ++ "-" ++ padded 2 date.day ++ "T" ++
    padded 2 i.hour ++ ":" ++ padded 2 i.minute ++ ":" ++ padded 2 i.second ++
    fraction (i.nanos % Instant.nanosPerSecond) ++ "+00:00"

/-- **The timestamp entry of an instant.** -/
def entry (i : Instant) : Bytes :=
  Bytes.ofString ("timestamp:" ++ render i ++ "\n")

end Timestamp

/-- **A timestamp**: the entry of some instant. -/
structure Timestamp where
  /-- The entry as bytes. -/
  bytes : Bytes
  /-- It is the entry of an instant. -/
  made : ∃ i, bytes = Timestamp.entry i
deriving DecidableEq, Repr

/-- The timestamp of an instant. -/
def Timestamp.ofInstant (i : Instant) : Timestamp where
  bytes := entry i
  made := ⟨i, rfl⟩

end CommandLog
