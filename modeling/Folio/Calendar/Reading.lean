import Folio.Calendar.Moment
import Folio.Datum
import Folio.Number.Decimal
import Folio.Text.Blank
/-!
# Reading dates

A date is written in one of six forms, tried in order: RFC 3339, RFC 2822, and four forms of a calendar date with or without a
time of day, which are taken in universal time.  The last four are lenient about blanks in front of numbers and about
missing zeros.  A number counts milliseconds from the start of 1970.
-/
namespace Folio.Calendar

/-- Why there is no date, or no text for it. -/
inductive Problem where
  | outOfRange (ms : Int)
  | unrecognized (text : String)
  | unusable (value : Datum)
  | badPattern (pattern : String)
  | reported (message : String)

def Problem.message : Problem → String
  | .outOfRange ms => "timestamp out of range: " ++ toString ms
  | .unrecognized text => "unrecognized date: " ++ Text.shown text
  | .unusable value => "cannot interpret " ++ value.json ++ " as a date"
  | .badPattern pattern => "invalid strftime format: " ++ Text.shown pattern
  | .reported message => message

/-! ## Pieces -/

/-- At least `least` and at most `most` digits. -/
def digits (least : Nat) (most : Nat) (cs : List Char) : Option (Nat × List Char) :=
  let ds := (cs.take most).takeWhile Char.isDigit
  if ds.length < least then none else some (Number.ofDigits ds, cs.drop ds.length)

/-- Digits without an upper bound, unless they are too many for a word. -/
def manyDigits (least : Nat) (cs : List Char) : Option (Nat × List Char) :=
  let ds := cs.takeWhile Char.isDigit
  let n := Number.ofDigits ds
  if ds.length < least || n ≥ Nat.pow 2 63 then none else some (n, cs.drop ds.length)

def character (c : Char) : List Char → Option (List Char)
  | d :: cs => if d = c then some cs else none
  | [] => none

/-- At least one blank. -/
def blanks (cs : List Char) : Option (List Char) :=
  let rest := Text.trimStart cs
  if rest.length < cs.length then some rest else none

/-- A sign, two digits of hours, what `separator` takes, and two digits of minutes. -/
def offset (minusSign : Bool) (separator : List Char → Option (List Char)) (cs : List Char) :
    Option (Int × List Char) := do
  let (negative, cs) ← match cs with
    | '+' :: cs => some (false, cs)
    | '-' :: cs => some (true, cs)
    | '\u2212' :: cs => if minusSign then some (true, cs) else none
    | _ => none
  let (hours, cs) ← digits 2 2 cs
  let cs ← separator cs
  let (minutes, cs) ← digits 2 2 cs
  if minutes ≥ 60 then none
  else
    let seconds : Int := hours * 3600 + minutes * 60
    some (if negative then -seconds else seconds, cs)

/-- A clock of the given offset at a date and time, if all of them exist. -/
def moment? (date : Date) (clock : Clock) (offset : Int) : Option Moment :=
  if date.isValid && clock.isValid && isSupportedDay date.dayNumber && -daySeconds < offset && offset < daySeconds then
    some (.ofClock date clock offset)
  else none

/-! ## RFC 3339 -/

/-- A point and digits; those after the ninth do not count. -/
def fraction (cs : List Char) : Option (Nat × List Char) :=
  match cs with
  | '.' :: cs =>
    let ds := (cs.take 9).takeWhile Char.isDigit
    if ds.isEmpty then none
    else some (Number.ofDigits ds * Nat.pow 10 (9 - ds.length), (cs.drop ds.length).dropWhile Char.isDigit)
  | cs => some (0, cs)

def rfc3339? (cs : List Char) : Option Moment := do
  let (year, cs) ← digits 4 4 cs
  let cs ← character '-' cs
  let (month, cs) ← digits 2 2 cs
  let cs ← character '-' cs
  let (day, cs) ← digits 2 2 cs
  let cs ← match cs with
    | c :: cs => if c = 'T' ∨ c = 't' ∨ c = ' ' then some cs else none
    | [] => none
  let (hour, cs) ← digits 2 2 cs
  let cs ← character ':' cs
  let (minute, cs) ← digits 2 2 cs
  let cs ← character ':' cs
  let (second, cs) ← digits 2 2 cs
  let (nanos, cs) ← fraction cs
  let (offset, cs) ← match cs with
    | 'Z' :: cs => some (0, cs)
    | 'z' :: cs => some (0, cs)
    | cs => offset true (character ':') cs
  if cs.isEmpty then moment? ⟨year, month, day⟩ ⟨hour, minute, second, nanos⟩ offset else none

/-! ## RFC 2822 -/

/-- A three-letter name of a list, in any case, and its place there. -/
def shortName (names : List String) (cs : List Char) : Option (Nat × List Char) :=
  let word := (cs.take 3).map Char.toLower
  (names.findIdx? fun n => (n.toList.take 3).map Char.toLower == word).map (·, cs.drop 3)

/-- Zone names of the standard, with the hours that they are ahead. -/
def zoneHours (name : List Char) : Option Int :=
  match String.ofList (name.map Char.toLower) with
  | "gmt" | "ut" => some 0
  | "edt" => some (-4)
  | "est" | "cdt" => some (-5)
  | "cst" | "mdt" => some (-6)
  | "mst" | "pdt" => some (-7)
  | "pst" => some (-8)
  | _ => if name.length = 1 ∧ name ≠ ['j'] ∧ name ≠ ['J'] then some 0 else none

def zone (cs : List Char) : Option (Int × List Char) :=
  let name := cs.takeWhile Char.isAlpha
  if name.isEmpty then offset false some cs
  else (zoneHours name).map fun h => (h * 3600, cs.drop name.length)

/-- What follows a comment in round brackets, which may contain others. -/
def comment (depth : Nat) : List Char → Option (List Char)
  | [] => none
  | '\\' :: _ :: cs => comment depth cs
  | '(' :: cs => comment (depth + 1) cs
  | ')' :: cs => if depth ≤ 1 then some cs else comment (depth - 1) cs
  | _ :: cs => comment depth cs

/-- Comments and blanks at the end; anything else is left. -/
def comments : Nat → List Char → List Char
  | 0, cs => cs
  | fuel + 1, cs =>
    match Text.trimStart cs with
    | '(' :: rest =>
      match comment 1 rest with
      | some rest => comments fuel rest
      | none => cs
    | _ => cs

/-- Years of two and three digits are of this or the last century. -/
def fullYear (length : Nat) (year : Nat) : Nat :=
  if length = 2 then if year < 50 then year + 2000 else year + 1900
  else if length = 3 then year + 1900
  else year

def rfc2822? (cs : List Char) : Option Moment := do
  let cs := Text.trimStart cs
  let (weekday, cs) ← match shortName dayNames cs with
    | some (w, ',' :: cs) => some (some w, cs)
    | some _ => none
    | none => some (none, cs)
  let (day, cs) ← digits 1 2 (Text.trimStart cs)
  let cs ← blanks cs
  let (month, cs) ← shortName monthNames cs
  let cs ← blanks cs
  let (year, rest) ← manyDigits 2 cs
  let year := fullYear (cs.length - rest.length) year
  let cs ← blanks rest
  let (hour, cs) ← digits 2 2 cs
  let cs ← character ':' (Text.trimStart cs)
  let (minute, cs) ← digits 2 2 (Text.trimStart cs)
  let (second, cs) ← match character ':' (Text.trimStart cs) with
    | some cs => digits 2 2 cs
    | none => some (0, cs)
  let cs ← blanks cs
  let (offset, cs) ← zone cs
  let date : Date := ⟨year, month + 1, day⟩
  if !(comments cs.length cs).isEmpty then none
  else if weekday.any (· != Calendar.weekday date.dayNumber) then none
  else moment? date ⟨hour, minute, second, 0⟩ offset

/-! ## Calendar dates in universal time -/

/-- An item of a lenient form. -/
inductive Item where
  | year | month | day | hour | minute | second
  | blank
  | literal (c : Char)

/-- What the items of a form have given so far. -/
structure Fields where
  date : Date
  clock : Clock

/-- A year may have a sign, and then any number of digits. -/
def signedYear (cs : List Char) : Option (Int × List Char) :=
  match cs with
  | '-' :: cs => (manyDigits 1 cs).map fun (n, cs) => (-(n : Int), cs)
  | '+' :: cs => (manyDigits 1 cs).map fun (n, cs) => ((n : Int), cs)
  | cs => (digits 1 4 cs).map fun (n, cs) => ((n : Int), cs)

def Item.read (item : Item) (f : Fields) (cs : List Char) : Option (Fields × List Char) :=
  let two (field : Nat → Fields) : Option (Fields × List Char) :=
    (digits 1 2 (Text.trimStart cs)).map fun (n, cs) => (field n, cs)
  match item with
  | .year => (signedYear (Text.trimStart cs)).map fun (n, cs) => ({ f with date.year := n }, cs)
  | .month => two fun n => { f with date.month := n }
  | .day => two fun n => { f with date.day := n }
  | .hour => two fun n => { f with clock.hour := n }
  | .minute => two fun n => { f with clock.minute := n }
  | .second => two fun n => { f with clock.second := n }
  | .blank => some (f, Text.trimStart cs)
  | .literal c => (character c cs).map (f, ·)

def readItems : List Item → Fields → List Char → Option Fields
  | [], f, cs => if cs.isEmpty then some f else none
  | i :: is, f, cs => (i.read f cs).bind fun (f, cs) => readItems is f cs

def dateItems : List Item := [.year, .literal '-', .month, .literal '-', .day]

def minuteItems : List Item := [.hour, .literal ':', .minute]

def secondItems : List Item := minuteItems ++ [.literal ':', .second]

/-- The lenient forms, in the order in which they are tried. -/
def forms : List (List Item) :=
  [dateItems ++ .blank :: secondItems, dateItems ++ .literal 'T' :: secondItems, dateItems ++ .blank :: minuteItems,
    dateItems]

def form? (items : List Item) (cs : List Char) : Option Moment :=
  (readItems items ⟨⟨0, 1, 1⟩, ⟨0, 0, 0, 0⟩⟩ cs).bind fun f => moment? f.date f.clock 0

/-! ## Dates -/

def ofText? (cs : List Char) : Option Moment :=
  let cs := Text.trim cs
  (rfc3339? cs).or ((rfc2822? cs).or (forms.findSome? (form? · cs)))

/-- The nearest whole number of 64 bits with a sign. -/
def clamp (n : Int) : Int := max (-(Int.pow 2 63)) (min n (Int.pow 2 63 - 1))

def ofMillis (ms : Int) : Except Problem Moment :=
  match Moment.ofMillis ms with
  | some m => .ok m
  | none => .error (.outOfRange ms)

/-- The date that a value stands for; null stands for the current moment, which the caller gives. -/
def ofDatum (now : Moment) : Datum → Except Problem Moment
  | .null => .ok now
  | .int n => ofMillis (clamp n)
  | .float x => ofMillis (clamp (Number.truncate x))
  | .text s =>
    match ofText? s.toList with
    | some m => .ok m
    | none => .error (.unrecognized (String.ofList (Text.trim s.toList)))
  | d => .error (.unusable d)

end Folio.Calendar
