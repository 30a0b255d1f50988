/-!
# Days of the Gregorian calendar

Days are numbered from 1970-01-01, day zero, and the calendar goes on in both directions without end.  `dayNumber` gives the
number of a date and `dateOf` the date of a number.  Years are counted astronomically: the year before the first
is the year zero.
-/
namespace Folio.Calendar

structure Date where
  year : Int
  month : Nat
  day : Nat
deriving DecidableEq, Repr

def isLeap (year : Int) : Bool := year % 4 == 0 && (year % 100 != 0 || year % 400 == 0)

def daysInMonth (year : Int) : Nat → Nat
  | 2 => if isLeap year then 29 else 28
  | 4 | 6 | 9 | 11 => 30
  | _ => 31

/-- Days of a common year before the first of a month. -/
def daysBefore : Nat → Nat
  | 0 | 1 => 0 | 2 => 31 | 3 => 59 | 4 => 90 | 5 => 120 | 6 => 151 | 7 => 181 | 8 => 212 | 9 => 243 | 10 => 273
  | 11 => 304 | _ => 334

def daysBeforeMonth (year : Int) (month : Nat) : Nat :=
  daysBefore month + if isLeap year && month > 2 then 1 else 0

/-- Days from the first day of the year one to the first day of a year. -/
def daysBeforeYear (year : Int) : Int :=
  let y := year - 1
  365 * y + y / 4 - y / 100 + y / 400

/-- The first day of the year one is this many days before day zero. -/
def epochDays : Int := 719162

def Date.isValid (d : Date) : Bool :=
  1 ≤ d.month && d.month ≤ 12 && 1 ≤ d.day && d.day ≤ daysInMonth d.year d.month

/-- The place of a date in its year, from one. -/
def Date.ordinal (d : Date) : Nat := daysBeforeMonth d.year d.month + d.day

def Date.dayNumber (d : Date) : Int := daysBeforeYear d.year + d.ordinal - 1 - epochDays

/-- The year that a day lies in, for days counted from the first day of the year one: an estimate by the mean length
of a year is off by one at most. -/
def yearOfDay (n : Int) : Int :=
  let y := 400 * n / 146097 + 1
  if n < daysBeforeYear y then y - 1 else if daysBeforeYear (y + 1) ≤ n then y + 1 else y

/-- The last month that starts on or before a day of its year, counted from zero. -/
def monthOfOrdinal (year : Int) (n : Nat) : Nat → Nat
  | 0 => 1
  | m + 1 => if daysBeforeMonth year (m + 1) ≤ n then m + 1 else monthOfOrdinal year n m

def dateOf (number : Int) : Date :=
  let n := number + epochDays
  let year := yearOfDay n
  let rest := (n - daysBeforeYear year).toNat
  let month := monthOfOrdinal year rest 12
  ⟨year, month, rest - daysBeforeMonth year month + 1⟩

/-! ## Weeks -/

/-- The place of a day in its week, from Monday, which is zero. -/
def weekday (number : Int) : Nat := ((number + 3) % 7).toNat

/-- The year and week that a day lies in when weeks start on Monday and belong to the year of their Thursday. -/
def isoWeek (d : Date) : Int × Nat :=
  let thursday := d.dayNumber - weekday d.dayNumber + 3
  let year := (dateOf thursday).year
  (year, ((dateOf thursday).ordinal - 1) / 7 + 1)

/-- The number of a week when the days before the first `start` of a year lie in week zero; `start` counts from
Monday. -/
def weekFrom (start : Nat) (d : Date) : Nat :=
  (d.ordinal + 6 - (weekday d.dayNumber + 7 - start) % 7) / 7

def dayNames : List String := ["Monday", "Tuesday", "Wednesday", "Thursday", "Friday", "Saturday", "Sunday"]

def monthNames : List String :=
  ["January", "February", "March", "April", "May", "June", "July", "August", "September", "October", "November",
    "December"]

def dayName (weekday : Nat) : String := (dayNames[weekday]?).getD ""

def monthName (month : Nat) : String := (monthNames[month - 1]?).getD ""

/-- The first three letters of a name. -/
def short (name : String) : String := String.ofList (name.toList.take 3)

end Folio.Calendar
