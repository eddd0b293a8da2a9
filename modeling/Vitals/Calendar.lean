/-
  Instants in milliseconds since the start of 1970, and their dates in UTC.

  * `Calendar.representable`: the instants that have a date here, up to the year 262142.
  * `CivilTime.ofMillis`: the date and time of an instant.
  * `CivilTime.display`, `CivilTime.rfc3339`: two ways to write it.
-/
import Vitals.Decimal.Rounding

namespace Vitals

/-- A date and a time of day in UTC. -/
structure CivilTime where
  year : Nat
  month : Nat
  day : Nat
  hour : Nat
  minute : Nat
  second : Nat
  milli : Nat
  deriving DecidableEq, Repr

namespace Calendar

/-- The last instant with a date: the end of the year 262142. -/
def lastMillis : Nat := 8210266876799999

/-- Whether an instant has a date. -/
def representable (millis : Nat) : Bool := millis ≤ lastMillis

/-- The year, month and day of a day counted from the start of 1970. Years are counted from March,
so that the day that comes every fourth year is the last of its year, and in cycles of 400 years. -/
def dateOfDay (day : Nat) : Nat × Nat × Nat :=
  let z := day + 719468
  let cycle := z / 146097
  let dayOfCycle := z % 146097
  let yearOfCycle :=
    (dayOfCycle - dayOfCycle / 1460 + dayOfCycle / 36524 - dayOfCycle / 146096) / 365
  let dayOfYear := dayOfCycle - (365 * yearOfCycle + yearOfCycle / 4 - yearOfCycle / 100)
  let monthFromMarch := (5 * dayOfYear + 2) / 153
  let dayOfMonth := dayOfYear - (153 * monthFromMarch + 2) / 5 + 1
  let month := if monthFromMarch < 10 then monthFromMarch + 3 else monthFromMarch - 9
  let year := yearOfCycle + cycle * 400 + (if month ≤ 2 then 1 else 0)
  (year, month, dayOfMonth)

end Calendar

namespace CivilTime

/-- The date and time of an instant. -/
def ofMillis (millis : Nat) : CivilTime :=
  let seconds := millis / 1000
  let (year, month, day) := Calendar.dateOfDay (seconds / 86400)
  { year, month, day
    hour := seconds / 3600 % 24
    minute := seconds / 60 % 60
    second := seconds % 60
    milli := millis % 1000 }

/-- A year has four digits; later ones are written with a sign. -/
def yearText (t : CivilTime) : String :=
  if t.year ≤ 9999 then Decimal.padded 4 t.year else s!"+{t.year}"

/-- The date alone. -/
def dateText (t : CivilTime) : String :=
  s!"{t.yearText}-{Decimal.padded 2 t.month}-{Decimal.padded 2 t.day}"

/-- The time of day to the second. -/
def clockText (t : CivilTime) : String :=
  s!"{Decimal.padded 2 t.hour}:{Decimal.padded 2 t.minute}:{Decimal.padded 2 t.second}"

/-- As people read it. -/
def display (t : CivilTime) : String := s!"{t.dateText} {t.clockText}"

/-- As data has it; milliseconds are written when there are any. -/
def rfc3339 (t : CivilTime) : String :=
  let fraction := if t.milli = 0 then "" else "." ++ Decimal.padded 3 t.milli
  s!"{t.dateText}T{t.clockText}{fraction}Z"

end CivilTime

end Vitals
