import Folio.Calendar.Pattern
/-!
# Date masks

A mask is a text in which runs of certain letters stand for parts of a date.  It is read from left to right, and at each
place the longest token counts (`Token.longest?`); a quoted stretch stands for itself, and whatever is no token stands for
itself too.
-/
namespace Folio.Calendar

/-- A token of a mask, or a character that is none. -/
inductive Token where
  | day (width : Nat)
  | month (width : Nat)
  | shortYear
  | longYear
  | dialHour (padded : Bool)
  | hour (padded : Bool)
  | minute (padded : Bool)
  | second (padded : Bool)
  | millis
  | centis
  | halfDay (long capital : Bool)
  | offset (colon : Bool)
  | ordinalSuffix
  | zone
  | isoWeekday
  | isoWeek (padded : Bool)
  | literal (text : List Char)
deriving DecidableEq, Repr

/-- How often the character at the front is repeated, up to a bound. -/
def run (c : Char) (most : Nat) (cs : List Char) : Nat := ((cs.take most).takeWhile (· == c)).length

/-- The token of `n` equal letters, if these letters make one. -/
def Token.ofRun (c : Char) (n : Nat) : Option Token :=
  match c with
  | 'd' => if 1 ≤ n ∧ n ≤ 4 then some (.day n) else none
  | 'm' => if 1 ≤ n ∧ n ≤ 4 then some (.month n) else none
  | 'y' => if n = 4 then some .longYear else if n = 2 then some .shortYear else none
  | 'H' => two fun p => .hour p
  | 'h' => two fun p => .dialHour p
  | 'M' => two fun p => .minute p
  | 's' => two fun p => .second p
  | 'T' => two fun p => .halfDay p true
  | 't' => two fun p => .halfDay p false
  | 'W' => two fun p => .isoWeek p
  | 'l' => one .millis
  | 'L' => one .centis
  | 'o' => one (.offset false)
  | 'p' => one (.offset true)
  | 'S' => one .ordinalSuffix
  | 'Z' => one .zone
  | 'N' => one .isoWeekday
  | _ => none
where
  one (t : Token) : Option Token := if n = 1 then some t else none
  two (t : Bool → Token) : Option Token := if n = 1 then some (t false) else if n = 2 then some (t true) else none

/-- The longest token that the letters at the front make, at most `n` of them, and its length. -/
def Token.longest? (c : Char) : Nat → Option (Token × Nat)
  | 0 => none
  | n + 1 =>
    match Token.ofRun c (n + 1) with
    | some t => some (t, n + 1)
    | none => longest? c n

/-- The token at the front of a mask and how many characters it has, one at least. -/
def Token.front (c : Char) (cs : List Char) : Token × Nat :=
  if (c = '\'' ∨ c = '"') ∧ cs.contains c then
    let inside := cs.takeWhile (· != c)
    (.literal inside, inside.length + 2)
  else (Token.longest? c (run c 4 (c :: cs))).getD (.literal [c], 1)

/-- The tokens of a mask. -/
def tokens : List Char → List Token
  | [] => []
  | c :: cs =>
    let (t, n) := Token.front c cs
    t :: tokens (cs.drop (n - 1))
termination_by cs => cs.length
decreasing_by simp only [List.length_cons, List.length_drop]; omega

/-! ## Text of a token -/

def ordinalSuffix (day : Nat) : String :=
  if 11 ≤ day % 100 ∧ day % 100 ≤ 13 then "th"
  else match day % 10 with
    | 1 => "st"
    | 2 => "nd"
    | 3 => "rd"
    | _ => "th"

def halfDayText (afternoon long capital : Bool) : String :=
  match afternoon, long, capital with
  | false, false, false => "a"
  | false, false, true => "A"
  | false, true, false => "am"
  | false, true, true => "AM"
  | true, false, false => "p"
  | true, false, true => "P"
  | true, true, false => "pm"
  | true, true, true => "PM"

/-- An offset in whole minutes, toward zero. -/
def minuteOffset (colon : Bool) (offset : Int) : String :=
  let minutes := offset.natAbs / 60
  (if offset < 0 then "-" else "+") ++ Number.padded 2 (minutes / 60 : Nat) ++ (if colon then ":" else "")
    ++ Number.padded 2 (minutes % 60 : Nat)

/-- A number in two places or in as many as it needs. -/
def places (padded : Bool) (n : Nat) : String := if padded then Number.padded 2 n else toString n

def millisOf (m : Moment) : Nat := m.nanos / 1000000 % 1000

/-- The text of a token; `universal` says that the mask asked for universal time. -/
def Token.text (universal : Bool) (m : Moment) : Token → String
  | .day 1 => places false m.date.day
  | .day 2 => places true m.date.day
  | .day 3 => short (dayName m.weekday)
  | .day _ => dayName m.weekday
  | .month 1 => places false m.date.month
  | .month 2 => places true m.date.month
  | .month 3 => short (monthName m.date.month)
  | .month _ => monthName m.date.month
  | .shortYear => Number.padded 2 (m.date.year % 100)
  | .longYear => Number.padded 4 m.date.year
  | .dialHour p => places p m.dialHour
  | .hour p => places p m.hour
  | .minute p => places p m.minute
  | .second p => places p m.second
  | .millis => Number.padded 3 (millisOf m)
  | .centis => Number.padded 2 (millisOf m / 10 : Nat)
  | .halfDay long capital => halfDayText m.isAfternoon long capital
  | .offset colon => minuteOffset colon m.offset
  | .ordinalSuffix => Calendar.ordinalSuffix m.date.day
  | .zone => if universal || m.offset == 0 then "UTC" else "GMT" ++ minuteOffset false m.offset
  | .isoWeekday => toString (m.weekday + 1)
  | .isoWeek p => places p (Calendar.isoWeek m.date).2
  | .literal text => String.ofList text

def applyMask (m : Moment) (universal : Bool) (mask : List Char) : String :=
  String.join ((tokens mask).map (Token.text universal m))

/-! ## Formats -/

/-- The mask used when none is given. -/
def defaultMask : String := "ddd mmm dd yyyy HH:MM:ss"

def namedMasks : List (String × String) :=
  [("default", defaultMask), ("shortDate", "m/d/yy"), ("mediumDate", "mmm d, yyyy"), ("longDate", "mmmm d, yyyy"),
    ("fullDate", "dddd, mmmm d, yyyy"), ("shortTime", "h:MM TT"), ("mediumTime", "h:MM:ss TT"),
    ("longTime", "h:MM:ss TT Z"), ("isoDate", "yyyy-mm-dd"), ("isoTime", "HH:MM:ss"),
    ("isoDateTime", "yyyy-mm-dd'T'HH:MM:sso"), ("isoUtcDateTime", "UTC:yyyy-mm-dd'T'HH:MM:ss'Z'")]

def namedMask? (name : String) : Option String := Table.get? namedMasks name

/-- Whether a mask asks for universal time, and the mask without that request. -/
def universalRequest : List Char → Bool × List Char
  | 'U' :: 'T' :: 'C' :: ':' :: cs => (true, cs)
  | 'G' :: 'M' :: 'T' :: ':' :: cs => (true, cs)
  | cs => (false, cs)

/-- A named mask stands for its mask; a format with a percent sign is a pattern of directives, any other one a mask. -/
def format (m : Moment) (spec : String) : Except Problem String :=
  let spec := (namedMask? spec).getD spec
  if spec.toList.contains '%' then
    match applyPattern m spec.toList with
    | some text => .ok text
    | none => .error (.badPattern spec)
  else
    let (universal, mask) := universalRequest spec.toList
    .ok (applyMask (if universal then m.toUniversal else m) universal mask)

end Folio.Calendar
