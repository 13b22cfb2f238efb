import ScriptHealth.Fault
import ScriptHealth.Number.Plain

/-!
# Timestamps

A report carries the moment of its making in universal time, cut to milliseconds.

## Main definitions

* `Date.toDays`, `Date.ofDays` number the days of the calendar
* `LocalMoment.instant` is a moment in universal time
* `LocalMoment.timestamp` writes it; `utcTimestamp` takes the offset in seconds
-/

namespace ScriptHealth

namespace Date

open scoped Number.Plain

/-- The days of the years before `year`. -/
def daysBeforeYear (year : Nat) : Nat :=
  let y := year - 1
  y * 365 + y / 4 - y / 100 + y / 400

/-- The days of the months before `month` in a year. -/
def daysBeforeMonth (year month : Nat) : Nat :=
  ((List.range (month - 1)).map fun m => daysInMonth year (m + 1)).sum

/-- The number of a day; the first of January of year 1 is day 0. -/
def toDays (d : Date) : Nat := daysBeforeYear d.year + daysBeforeMonth d.year d.month + (d.day - 1)

/-- The year of a day: the last one of which the first day is not later. -/
def yearOfDay (n : Nat) : Nat :=
  let guess := n / 366 + 1
  -- the guess is never late, and early by at most one year for every 366 years
  let rec advance : Nat → Nat → Nat
    | 0, y => y
    | k + 1, y => if daysBeforeYear (y + 1) ≤ n then advance k (y + 1) else y
  advance (n / 365 + 1) guess

/-- The month and day of the `n`th day of a year, counted from 0. -/
def monthDay (year n : Nat) : Nat × Nat :=
  let rec go : Nat → Nat → Nat → Nat × Nat
    | 0, month, n => (month, n + 1)
    | k + 1, month, n =>
      let len := daysInMonth year month
      if n < len then (month, n + 1) else go k (month + 1) (n - len)
  go 11 1 n

/-- The date of a numbered day. -/
def ofDays (n : Nat) : Date :=
  let year := yearOfDay n
  let (month, day) := monthDay year (n - daysBeforeYear year)
  ⟨year, month, day⟩

end Date

/-- The number of days of the years 1 to 9999. -/
def calendarDays : Nat := 3652059

/-- The microseconds of a day. -/
def dayLength : Nat := 86400000000

/-- The microseconds since the start of the day. -/
def TimeOfDay.toMicros (t : TimeOfDay) : Nat :=
  ((t.hour * 60 + t.minute) * 60 + t.second) * 1000000 + t.microsecond

/-- The time of day after a number of microseconds. -/
def TimeOfDay.ofMicros (n : Nat) : TimeOfDay :=
  ⟨n / 3600000000, n / 60000000 % 60, n / 1000000 % 60, n % 1000000⟩

/-- A moment on a local clock, with the microseconds by which the clock is ahead of universal time. -/
structure LocalMoment where
  date : Date
  time : TimeOfDay
  offset : Int
  deriving DecidableEq, Repr

/-- The microseconds of a local moment in universal time, counted from the start of year 1. -/
def LocalMoment.instant (m : LocalMoment) : Int :=
  (m.date.toDays * dayLength + m.time.toMicros : Nat) - m.offset

/-- The text of a moment in universal time, cut to milliseconds. -/
def zuluText (d : Date) (t : TimeOfDay) : String :=
  d.text ++ "T" ++ padded 2 t.hour ++ ":" ++ padded 2 t.minute ++ ":" ++ padded 2 t.second ++ "." ++
    padded 3 (t.microsecond / 1000) ++ "Z"

/-- The timestamp of a local moment. -/
def LocalMoment.timestamp (m : LocalMoment) : Except Fault String :=
  if m.instant < 0 ∨ (calendarDays * dayLength : Nat) ≤ m.instant then
    .error (.outOfRange "date value out of range")
  else
    let micros := m.instant.toNat
    .ok (zuluText (Date.ofDays (micros / dayLength)) (TimeOfDay.ofMicros (micros % dayLength)))

/-- The timestamp of a local moment with its offset in seconds. -/
def utcTimestamp (d : Date) (t : TimeOfDay) (offsetSeconds : Int) : Except Fault String :=
  LocalMoment.timestamp ⟨d, t, offsetSeconds * 1000000⟩

/-- The microseconds from the start of year 1 to the start of 1970. -/
def epochStart : Nat := (⟨1970, 1, 1⟩ : Date).toDays * dayLength

/-- The timestamp of a moment that is given in milliseconds since the start of 1970. -/
def timestampOfMillis (n : Nat) : String :=
  let micros := epochStart + n * 1000
  zuluText (Date.ofDays (micros / dayLength)) (TimeOfDay.ofMicros (micros % dayLength))

end ScriptHealth
