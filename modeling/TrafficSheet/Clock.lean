import TrafficSheet.Decimal.Text
import TrafficSheet.Platform

/-!
# Points in time

A timestamp counts whole seconds since the start of 1970 and, apart from them, microseconds. Dates
are those of the Gregorian calendar carried on in both directions. A time is shown as that of the
place, if its year in universal time is from -262143 to 262142; outside of them it has no text.

Of the times of packets a range is kept. The earliest time is the first one seen that was set;
until then the last one seen. The latest time is replaced only by a time of which both the seconds
and the microseconds are larger.

What is not formalized: leap seconds, and the rules by which the time of a place is known. The
zone is given.
-/

namespace TrafficSheet

/-- A capture time: seconds since the start of 1970, and microseconds. -/
structure Timestamp where
  /-- Whole seconds. -/
  seconds : Int
  /-- Microseconds, kept apart from the seconds. -/
  micros : Int
  deriving DecidableEq

namespace Timestamp

/-- The time of a clock that was never set. -/
def unset : Timestamp := ⟨0, 0⟩

/-- A zero second marks a time that was never set, whatever its microseconds. -/
def isUnset (t : Timestamp) : Bool := t.seconds == 0

/-- The time `seconds` and `nanos` after the start of 1970. Seconds are a word of 64 bits
with a sign; less than a microsecond is cut off. -/
def ofElapsed (seconds nanos : Nat) : Timestamp where
  seconds := Int.bmod ((seconds + nanos / 1000000000 : Nat) : Int) 0x10000000000000000
  micros := (nanos % 1000000000 / 1000 : Nat)

end Timestamp

/-! ### The calendar -/

/-- A day of the calendar. -/
structure CivilDate where
  /-- The year; the year before 1 is 0. -/
  year : Int
  /-- The month, January being 1. -/
  month : Nat
  /-- The day of the month. -/
  day : Nat
  deriving DecidableEq

namespace CivilDate

/-- The date of the day that many days after the first of January 1970.

Days are counted from the first of March of a year divisible by 400, so that the leap day
is the last of its year, and the months from March to January have 153 days in every five. -/
def ofDayNumber (days : Int) : CivilDate :=
  let shifted := days + 719468
  let era := shifted / 146097
  let dayOfEra := (shifted % 146097).toNat
  let yearOfEra := (dayOfEra - dayOfEra / 1460 + dayOfEra / 36524 - dayOfEra / 146096) / 365
  let dayOfYear := dayOfEra - (365 * yearOfEra + yearOfEra / 4 - yearOfEra / 100)
  let monthFromMarch := (5 * dayOfYear + 2) / 153
  let day := dayOfYear - (153 * monthFromMarch + 2) / 5 + 1
  let month := if monthFromMarch < 10 then monthFromMarch + 3 else monthFromMarch - 9
  { year := yearOfEra + era * 400 + (if month ≤ 2 then 1 else 0), month, day }

/-- Years of four digits are written plainly, later ones with a plus sign, and negative
ones with a minus sign and at least four digits. -/
def yearText (year : Int) : String :=
  if year < 0 then "-" ++ Decimal.zeroPadded 4 year.natAbs
  else if year ≤ 9999 then Decimal.zeroPadded 4 year.toNat
  else "+" ++ toString year

/-- The text `YYYY-MM-DD`. -/
def text (d : CivilDate) : String :=
  yearText d.year ++ "-" ++ Decimal.zeroPadded 2 d.month ++ "-" ++ Decimal.zeroPadded 2 d.day

end CivilDate

namespace Clock

/-- The date of a second, if its year is within the calendar's bounds. -/
def date? (seconds : Int) : Option CivilDate :=
  let date := CivilDate.ofDayNumber (seconds / 86400)
  if -262143 ≤ date.year ∧ date.year ≤ 262142 then some date else none

/-- The text `HH:MM:SS` of a second within its day. -/
def timeOfDay (seconds : Int) : String :=
  let inDay := (seconds % 86400).toNat
  Decimal.zeroPadded 2 (inDay / 3600) ++ ":" ++ Decimal.zeroPadded 2 (inDay / 60 % 60) ++ ":"
    ++ Decimal.zeroPadded 2 (inDay % 60)

/-- The text `YYYY-MM-DD HH:MM:SS` of a second at a place, or four dashes outside the calendar. -/
def dateTimeText (zone : Zone) (seconds : Int) : String :=
  let shown := seconds + zone.ahead seconds
  match date? seconds with
  | some _ => (CivilDate.ofDayNumber (shown / 86400)).text ++ " " ++ timeOfDay shown
  | none => "----"

/-- The label of a second on a time axis, empty outside the calendar. -/
def axisLabel (zone : Zone) (seconds : Int) : String :=
  match date? seconds with
  | some _ => timeOfDay (seconds + zone.ahead seconds)
  | none => ""

end Clock

/-- The date and time of a timestamp at a place; microseconds are not shown. -/
def Timestamp.text (zone : Zone) (t : Timestamp) : String := Clock.dateTimeText zone t.seconds

/-! ### The range of capture times -/

/-- The first and the last of some times. -/
structure TimeRange where
  /-- The earliest time. -/
  earliest : Timestamp
  /-- The latest time. -/
  latest : Timestamp
  deriving DecidableEq

/-- Whether a time exceeds another in seconds and in microseconds. -/
def Timestamp.Exceeds (t other : Timestamp) : Prop :=
  other.seconds < t.seconds ∧ other.micros < t.micros

instance (t other : Timestamp) : Decidable (t.Exceeds other) :=
  inferInstanceAs (Decidable (_ ∧ _))

namespace TimeRange

/-- The range of no times. -/
def empty : TimeRange := ⟨.unset, .unset⟩

/-- The range with one more time. -/
def extend (r : TimeRange) (t : Timestamp) : TimeRange where
  earliest := if r.earliest.isUnset then t else r.earliest
  latest := if t.Exceeds r.latest then t else r.latest

end TimeRange

end TrafficSheet
