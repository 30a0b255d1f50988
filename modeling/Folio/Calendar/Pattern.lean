import Folio.Calendar.Reading
/-!
# Patterns of percent directives

In a pattern a percent sign starts a directive, which stands for a part of a date; everything else stands for itself.  A
number may be told how to fill its places (`Fill`).  A directive that does not exist spoils the whole pattern.
-/
namespace Folio.Calendar

/-- How a number fills its places. -/
inductive Fill where
  | zeros
  | spaces
  | bare
deriving DecidableEq, Repr

/-- A directive that writes a number. -/
inductive Numeric where
  | year | century | yearOfCentury | isoYear | isoYearOfCentury | quarter | month | day | sundayWeek | mondayWeek | isoWeek
  | daysFromSunday | daysFromMonday | ordinal | hour | dialHour | minute | second | nanos | timestamp
deriving DecidableEq, Repr

/-- A part of a pattern. -/
inductive Directive where
  | number (n : Numeric) (fill : Fill)
  | shortDay | longDay | shortMonth | longMonth
  | halfDay (capital : Bool)
  | fraction
  | fixedFraction (digits : Nat) (point : Bool)
  | zoneName
  | offset (colon : Bool)
  | offsetSeconds
  | offsetHours
  | rfc3339
  | literal (c : Char)
deriving DecidableEq, Repr

def blankFilled (width : Nat) (n : Int) : String :=
  let text := toString n
  String.ofList (List.replicate (width - text.length) ' ') ++ text

def fillText (fill : Fill) (width : Nat) (n : Int) : String :=
  match fill with
  | .zeros => Number.padded width n
  | .spaces => blankFilled width n
  | .bare => toString n

/-- A year outside four digits has its sign. -/
def fillYear (fill : Fill) (year : Int) : String :=
  if 0 ≤ year ∧ year < 10000 then fillText fill 4 year
  else
    let signed := (if year < 0 then "" else "+") ++ toString year
    match fill with
    | .zeros => if year < 0 then Number.padded 5 year else "+" ++ Number.padded 4 year
    | .spaces => String.ofList (List.replicate (5 - signed.length) ' ') ++ signed
    | .bare => signed

def Numeric.text (m : Moment) (fill : Fill) : Numeric → String
  | .year => fillYear fill m.date.year
  | .century => fillText fill 2 (m.date.year / 100)
  | .yearOfCentury => fillText fill 2 (m.date.year % 100)
  | .isoYear => fillYear fill (Calendar.isoWeek m.date).1
  | .isoYearOfCentury => fillText fill 2 ((Calendar.isoWeek m.date).1 % 100)
  | .quarter => toString ((m.date.month - 1) / 3 + 1)
  | .month => fillText fill 2 m.date.month
  | .day => fillText fill 2 m.date.day
  | .sundayWeek => fillText fill 2 (weekFrom 6 m.date)
  | .mondayWeek => fillText fill 2 (weekFrom 0 m.date)
  | .isoWeek => fillText fill 2 (Calendar.isoWeek m.date).2
  | .daysFromSunday => toString ((m.weekday + 1) % 7)
  | .daysFromMonday => toString (m.weekday + 1)
  | .ordinal => fillText fill 3 m.date.ordinal
  | .hour => fillText fill 2 m.hour
  | .dialHour => fillText fill 2 m.dialHour
  | .minute => fillText fill 2 m.minute
  | .second => fillText fill 2 m.fullSecond
  | .nanos => fillText fill 9 m.fraction
  | .timestamp => fillText fill 9 m.seconds

/-- Hours, minutes and seconds of an offset. -/
def secondOffset (offset : Int) : String :=
  let n := offset.natAbs
  (if offset < 0 then "-" else "+") ++ Number.padded 2 (n / 3600 : Nat) ++ ":" ++ Number.padded 2 (n / 60 % 60 : Nat)
    ++ ":" ++ Number.padded 2 (n % 60 : Nat)

def Directive.text (m : Moment) : Directive → String
  | .number n fill => n.text m fill
  | .shortDay => short (dayName m.weekday)
  | .longDay => dayName m.weekday
  | .shortMonth => short (monthName m.date.month)
  | .longMonth => monthName m.date.month
  | .halfDay capital =>
    if m.isAfternoon then (if capital then "PM" else "pm") else if capital then "AM" else "am"
  | .fraction => Moment.fractionText m.fraction
  | .fixedFraction digits point =>
    (if point then "." else "") ++ Number.padded digits (m.fraction / Nat.pow 10 (9 - digits) : Nat)
  | .zoneName => Moment.offsetText ":" m.offset
  | .offset colon => Moment.offsetText (if colon then ":" else "") m.offset
  | .offsetSeconds => secondOffset m.offset
  | .offsetHours =>
    (if m.offset < 0 then "-" else "+") ++ Number.padded 2 (m.offset.natAbs / 3600 : Nat)
  | .rfc3339 => m.rfc3339
  | .literal c => String.singleton c

/-! ## Reading a pattern -/

def zeroFilled (n : Numeric) : List Directive := [.number n .zeros]

def clockDirectives : List Directive :=
  zeroFilled .hour ++ [.literal ':'] ++ zeroFilled .minute ++ [.literal ':'] ++ zeroFilled .second

/-- Directives of one letter, some of which stand for several. -/
def letterDirectives : Char → Option (List Directive)
  | 'A' => some [.longDay]
  | 'B' => some [.longMonth]
  | 'C' => some (zeroFilled .century)
  | 'D' | 'x' =>
    some (zeroFilled .month ++ [.literal '/'] ++ zeroFilled .day ++ [.literal '/'] ++ zeroFilled .yearOfCentury)
  | 'F' => some (zeroFilled .year ++ [.literal '-'] ++ zeroFilled .month ++ [.literal '-'] ++ zeroFilled .day)
  | 'G' => some (zeroFilled .isoYear)
  | 'H' => some (zeroFilled .hour)
  | 'I' => some (zeroFilled .dialHour)
  | 'M' => some (zeroFilled .minute)
  | 'P' => some [.halfDay false]
  | 'R' => some (zeroFilled .hour ++ [.literal ':'] ++ zeroFilled .minute)
  | 'S' => some (zeroFilled .second)
  | 'T' | 'X' => some clockDirectives
  | 'U' => some (zeroFilled .sundayWeek)
  | 'V' => some (zeroFilled .isoWeek)
  | 'W' => some (zeroFilled .mondayWeek)
  | 'Y' => some (zeroFilled .year)
  | 'Z' => some [.zoneName]
  | 'a' => some [.shortDay]
  | 'b' | 'h' => some [.shortMonth]
  | 'c' =>
    some ([.shortDay, .literal ' ', .shortMonth, .literal ' ', .number .day .spaces, .literal ' '] ++ clockDirectives
      ++ [.literal ' '] ++ zeroFilled .year)
  | 'd' => some (zeroFilled .day)
  | 'e' => some [.number .day .spaces]
  | 'f' => some (zeroFilled .nanos)
  | 'g' => some (zeroFilled .isoYearOfCentury)
  | 'j' => some (zeroFilled .ordinal)
  | 'k' => some [.number .hour .spaces]
  | 'l' => some [.number .dialHour .spaces]
  | 'm' => some (zeroFilled .month)
  | 'n' => some [.literal '\n']
  | 'p' => some [.halfDay true]
  | 'q' => some [.number .quarter .bare]
  | 'r' =>
    some (zeroFilled .dialHour ++ [.literal ':'] ++ zeroFilled .minute ++ [.literal ':'] ++ zeroFilled .second
      ++ [.literal ' ', .halfDay true])
  | 's' => some [.number .timestamp .bare]
  | 't' => some [.literal '\t']
  | 'u' => some [.number .daysFromMonday .bare]
  | 'v' => some [.number .day .spaces, .literal '-', .shortMonth, .literal '-', .number .year .zeros]
  | 'w' => some [.number .daysFromSunday .bare]
  | 'y' => some (zeroFilled .yearOfCentury)
  | 'z' => some [.offset false]
  | '+' => some [.rfc3339]
  | '%' => some [.literal '%']
  | _ => none

/-- How many digits of the second a digit asks for. -/
def fractionDigits : Char → Option Nat
  | '3' => some 3
  | '6' => some 6
  | '9' => some 9
  | _ => none

/-- The directives of what follows a percent sign, and the rest. -/
def directive : List Char → Option (List Directive × List Char)
  | ':' :: ':' :: ':' :: 'z' :: cs => some ([.offsetHours], cs)
  | ':' :: ':' :: 'z' :: cs => some ([.offsetSeconds], cs)
  | ':' :: 'z' :: cs => some ([.offset true], cs)
  | '.' :: 'f' :: cs => some ([.fraction], cs)
  | '.' :: d :: 'f' :: cs => (fractionDigits d).map fun n => ([.fixedFraction n true], cs)
  | c :: cs =>
    match fractionDigits c, cs with
    | some n, 'f' :: cs => some ([.fixedFraction n false], cs)
    | some _, _ => none
    | none, cs => (letterDirectives c).map (·, cs)
  | [] => none

def fillOf : Char → Option Fill
  | '-' => some .bare
  | '0' => some .zeros
  | '_' => some .spaces
  | _ => none

/-- A directive with a fill, which only a single number takes. -/
def filledDirective (cs : List Char) : Option (List Directive × List Char) :=
  match cs with
  | [] => none
  | c :: rest =>
    match fillOf c with
    | none => directive (c :: rest)
    | some fill =>
      match directive rest with
      | some ([.number n _], rest) => some ([.number n fill], rest)
      | _ => none

/-- The directives of a pattern; none if one of them does not exist.  Each takes at least one character. -/
def directives : Nat → List Char → Option (List Directive)
  | _, [] => some []
  | 0, _ => none
  | fuel + 1, '%' :: cs =>
    (filledDirective cs).bind fun (ds, cs) => (directives fuel cs).map (ds ++ ·)
  | fuel + 1, c :: cs => (directives fuel cs).map (.literal c :: ·)

def applyPattern (m : Moment) (pattern : List Char) : Option String :=
  (directives pattern.length pattern).map fun ds => String.join (ds.map (Directive.text m))

end Folio.Calendar
