/-
  How reports write instants, sizes and durations.

  * `Report.instant`: an instant in milliseconds as a date and time.
  * `Report.byteSize`: a number of bytes in the largest of four units that does not exceed it.
  * `Report.micros`: a duration in microseconds.
-/
import Vitals.Calendar
import Vitals.Decimal.Text

namespace Vitals.Report

/-- An instant in milliseconds as a date and time; one without a date as the number it is. -/
def instant (millis : UInt64) : String :=
  if Calendar.representable millis.toNat then (CivilTime.ofMillis millis.toNat).display
  else toString millis.toNat

/-- A unit of size. -/
inductive SizeUnit where
  | byte | kibibyte | mebibyte | gibibyte
  deriving DecidableEq, Repr

namespace SizeUnit

/-- The symbol of a unit. -/
def symbol : SizeUnit → String
  | byte => "B" | kibibyte => "KiB" | mebibyte => "MiB" | gibibyte => "GiB"

/-- The units above bytes, in order. -/
def above : List SizeUnit := [kibibyte, mebibyte, gibibyte]

end SizeUnit

/-- An amount of a unit. -/
structure Size where
  amount : Binary64
  unit : SizeUnit
  deriving DecidableEq, Repr

/-- Goes on to larger units, each 1024 of the one before, while there are 1024 of the present one.
-/
def Size.scale (s : Size) : List SizeUnit → Size
  | [] => s
  | u :: us => if s.amount.below 1024 then s else scale ⟨s.amount.div (.ofNat 1024), u⟩ us

/-- A number of bytes in the unit that suits it. -/
def Size.ofBytes (bytes : UInt64) : Size :=
  Size.scale ⟨.ofNat bytes.toNat, .byte⟩ SizeUnit.above

/-- A number of bytes: whole bytes, or one place after the point of a larger unit. -/
def byteSize (bytes : UInt64) : String :=
  let s := Size.ofBytes bytes
  match s.unit with
  | .byte => s!"{bytes.toNat} {s.unit.symbol}"
  | _ => s!"{Decimal.fixed 1 s.amount} {s.unit.symbol}"

/-- A duration in microseconds. -/
def micros (n : UInt64) : String := s!"{n.toNat}µs"

end Vitals.Report
