import Folio.Calendar.Day
import Folio.Number.Notation
/-!
# Moments

A moment is an instant together with the offset of the clock that shows it.  The instant is counted in seconds from the
start of 1970 in universal time, without leap seconds; a leap second is the second before it with a thousand
million nanoseconds more.  Moments lie in a fixed range of years.
-/
namespace Folio.Calendar

structure Moment where
  seconds : Int
  nanos : Nat
  offset : Int
deriving DecidableEq, Repr

def firstYear : Int := -262143

def lastYear : Int := 262142

/-- Days that a moment may lie on. -/
def isSupportedDay (number : Int) : Bool :=
  (Date.mk firstYear 1 1).dayNumber ≤ number && number ≤ (Date.mk lastYear 12 31).dayNumber

def daySeconds : Int := 86400

def nanosPerSecond : Nat := 1000000000

/-- A time of day; the second is 60 in a leap second. -/
structure Clock where
  hour : Nat
  minute : Nat
  second : Nat
  nanos : Nat
deriving DecidableEq, Repr

def Clock.isValid (c : Clock) : Bool := c.hour < 24 && c.minute < 60 && c.second ≤ 60 && c.nanos < nanosPerSecond

namespace Moment

/-- The start of 1970. -/
def epoch : Moment := ⟨0, 0, 0⟩

/-- The moment some milliseconds after the start of 1970, unless it is out of range. -/
def ofMillis (ms : Int) : Option Moment :=
  let seconds := ms / 1000
  if isSupportedDay (seconds / daySeconds) then some ⟨seconds, (ms % 1000).toNat * 1000000, 0⟩ else none

/-- The moment at which a clock with the given offset shows a date and time. -/
def ofClock (date : Date) (clock : Clock) (offset : Int) : Moment :=
  let leap := clock.second == 60
  let second := if leap then 59 else clock.second
  ⟨date.dayNumber * daySeconds + (clock.hour * 3600 + clock.minute * 60 + second : Nat) - offset,
    clock.nanos + (if leap then nanosPerSecond else 0), offset⟩

/-- The same instant on a clock of universal time. -/
def toUniversal (m : Moment) : Moment := { m with offset := 0 }

/-! ## What the clock shows -/

def localSeconds (m : Moment) : Int := m.seconds + m.offset

def dayNumber (m : Moment) : Int := m.localSeconds / daySeconds

def date (m : Moment) : Date := dateOf m.dayNumber

def secondOfDay (m : Moment) : Nat := (m.localSeconds % daySeconds).toNat

def hour (m : Moment) : Nat := m.secondOfDay / 3600

def minute (m : Moment) : Nat := m.secondOfDay / 60 % 60

/-- The second of the minute, 59 in a leap second. -/
def second (m : Moment) : Nat := m.secondOfDay % 60

/-- The second of the minute, 60 in a leap second. -/
def fullSecond (m : Moment) : Nat := m.second + m.nanos / nanosPerSecond

/-- Nanoseconds of the second, of a leap second too. -/
def fraction (m : Moment) : Nat := m.nanos % nanosPerSecond

def weekday (m : Moment) : Nat := Calendar.weekday m.dayNumber

def isAfternoon (m : Moment) : Bool := m.hour ≥ 12

/-- The hour on a dial of twelve. -/
def dialHour (m : Moment) : Nat := if m.hour % 12 = 0 then 12 else m.hour % 12

/-! ## RFC 3339 -/

def twoDigits (n : Nat) : String := Number.padded 2 n

/-- A year of four digits as it is, any other with its sign. -/
def yearText (year : Int) : String :=
  if 0 ≤ year ∧ year ≤ 9999 then Number.padded 4 year
  else if year < 0 then Number.padded 5 year
  else "+" ++ Number.padded 4 year

/-- As many digits as are needed, in groups of three. -/
def fractionText (nanos : Nat) : String :=
  if nanos = 0 then ""
  else if nanos % 1000000 = 0 then "." ++ Number.padded 3 (nanos / 1000000 : Nat)
  else if nanos % 1000 = 0 then "." ++ Number.padded 6 (nanos / 1000 : Nat)
  else "." ++ Number.padded 9 nanos

/-- Hours and minutes of an offset with its sign; seconds are rounded to the minute. -/
def offsetText (separator : String) (offset : Int) : String :=
  let minutes := (offset.natAbs + 30) / 60
  (if offset < 0 then "-" else "+") ++ twoDigits (minutes / 60) ++ separator ++ twoDigits (minutes % 60)

def dateTimeText (m : Moment) : String :=
  let d := m.date
  yearText d.year ++ "-" ++ twoDigits d.month ++ "-" ++ twoDigits d.day ++ "T" ++ twoDigits m.hour ++ ":"
    ++ twoDigits m.minute ++ ":" ++ twoDigits m.fullSecond ++ fractionText m.fraction

/-- RFC 3339 with a numeric offset. -/
def rfc3339 (m : Moment) : String := m.dateTimeText ++ offsetText ":" m.offset

/-- RFC 3339 with a `Z` for universal time. -/
def rfc3339Zulu (m : Moment) : String := m.dateTimeText ++ if m.offset = 0 then "Z" else offsetText ":" m.offset

end Moment
end Folio.Calendar
