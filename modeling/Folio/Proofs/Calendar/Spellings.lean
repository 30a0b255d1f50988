import Folio.Proofs.Calendar.Stamps
import Folio.Proofs.Calendar.Timestamps
/-!
# Spellings of a time

A day in the year 0 to 9999, alone or with a time of day behind it, may be spelled in five ways (`Spelling`).  The forms are
tried one after the other, and none of them takes a text that another one is for (`ofText?_spelled`): a text is a date
exactly if its day is one of the calendar and its time is one of a day, and the date is the millisecond that one counts to
it from 1970 (`spellings_agree`).
-/
namespace Folio.Calendar

open Number (Writes)

/-- How a day is spelled, and a time of it. -/
inductive Spelling where
  | day
  | minutes
  | seconds
  | stamp
  | universal
deriving DecidableEq, Repr

/-- A number in four places and two in two places each, with dashes between. -/
def Date.spelled (d : Date) : String :=
  Number.padded 4 d.year ++ "-" ++ Number.padded 2 d.month ++ "-" ++ Number.padded 2 d.day

def Clock.spelledMinutes (c : Clock) : String := Number.padded 2 c.hour ++ ":" ++ Number.padded 2 c.minute

def Clock.spelled (c : Clock) : String := c.spelledMinutes ++ ":" ++ Number.padded 2 c.second

namespace Spelling

def text (d : Date) (c : Clock) : Spelling → String
  | .day => d.spelled
  | .minutes => d.spelled ++ " " ++ c.spelledMinutes
  | .seconds => d.spelled ++ " " ++ c.spelled
  | .stamp => d.spelled ++ "T" ++ c.spelled
  | .universal => d.spelled ++ "T" ++ c.spelled ++ "Z"

/-- The time that a spelling tells: what it leaves out is zero. -/
def told (c : Clock) : Spelling → Clock
  | .day => ⟨0, 0, 0, 0⟩
  | .minutes => ⟨c.hour, c.minute, 0, 0⟩
  | .seconds | .stamp | .universal => ⟨c.hour, c.minute, c.second, 0⟩

end Spelling

/-- Numbers that have room in the places of a spelling. -/
structure HavePlaces (d : Date) (c : Clock) : Prop where
  year : 0 ≤ d.year ∧ d.year ≤ 9999
  month : d.month < 100
  day : d.day < 100
  hour : c.hour < 100
  minute : c.minute < 100
  second : c.second < 100

/-- A day of the calendar and a time of a day, leap seconds aside. -/
structure IsTime (d : Date) (c : Clock) : Prop where
  date : d.isValid = true
  hour : c.hour < 24
  minute : c.minute < 60
  second : c.second < 60

/-- Milliseconds from the start of 1970 to a time. -/
def millisAt (d : Date) (c : Clock) : Int := (((d.counted * 24 + c.hour) * 60 + c.minute) * 60 + c.second) * 1000

/-! ## RFC 2822 -/

theorem toLower_of_isDigit {c : Char} (h : c.isDigit = true) : c.toLower = c := by
  have hrange : 48 ≤ c.toNat ∧ c.toNat ≤ 57 := Char.isDigit_iff_toNat.1 h
  refine dif_neg fun hupper => ?_
  have hletter : 65 ≤ c.toNat := hupper.1
  omega

/-- No name begins with a digit. -/
theorem shortName_digit {names : List String} {c : Char} {cs : List Char} (hc : c.isDigit = true)
    (hnames : ∀ name ∈ names, ((name.toList.take 3).map Char.toLower).head?.any Char.isDigit = false) :
    shortName names (c :: cs) = none := by
  unfold shortName
  dsimp only
  rw [Option.map_eq_none_iff, List.findIdx?_eq_none_iff]
  intro name hname
  rw [beq_eq_false_iff_ne]
  intro heq
  have hletter := hnames name hname
  rw [heq, List.take_succ_cons, List.map_cons, toLower_of_isDigit hc, List.head?_cons, Option.any_some, hc] at hletter
  cases hletter

/-- A day of the month has two digits, and a blank follows it. -/
theorem rfc2822?_digits {c d e : Char} {cs : List Char} (hc : c.isDigit = true) (hd : d.isDigit = true)
    (he : e.isDigit = true) : rfc2822? (c :: d :: e :: cs) = none := by
  have hblanks : blanks (e :: cs) = none := by
    unfold blanks
    dsimp only
    rw [trimStart_of_isDigit he, if_neg (lt_irrefl _)]
  have hday : digits 1 2 (c :: d :: e :: cs) = some (Number.ofDigits [c, d], e :: cs) := by
    simp [digits, hc, hd]
  unfold rfc2822?
  dsimp only [Option.bind_eq_bind]
  rw [trimStart_of_isDigit hc, shortName_digit hc (by decide)]
  dsimp only [Option.bind_some]
  rw [trimStart_of_isDigit hc, hday]
  dsimp only [Option.bind_some]
  rw [hblanks]
  rfl

/-! ## Dates in front of a tail -/

section
variable {year month day : Nat} {ys ms ds : List Char} (hyear : Writes 4 year ys) (hmonth : Writes 2 month ms)
  (hday : Writes 2 day ds)

include hyear in
/-- A year stands where a day of the month is expected. -/
theorem rfc2822?_date (rest : List Char) : rfc2822? (ys ++ rest) = none := by
  obtain ⟨hlength, hdigits, -⟩ := hyear
  match ys, hlength with
  | [a, b, c, d], _ => exact rfc2822?_digits (hdigits a (by simp)) (hdigits b (by simp)) (hdigits c (by simp))

include hyear hmonth hday

theorem readItems_date (items : List Item) (f : Fields) (rest : List Char) :
    readItems (dateItems ++ items) f (ys ++ '-' :: (ms ++ '-' :: (ds ++ rest))) =
      readItems items { f with date := ⟨year, month, day⟩ } rest := by
  have hsigned : signedYear (ys ++ '-' :: (ms ++ '-' :: (ds ++ rest))) =
      some ((year : Int), '-' :: (ms ++ '-' :: (ds ++ rest))) := by
    obtain ⟨c, cs, rfl⟩ := List.exists_cons_of_length_pos (hyear.length ▸ (by decide : 0 < 4))
    have hc := hyear.digits c List.mem_cons_self
    have hread := digits_writes hyear (by decide : 1 ≤ 4) ('-' :: (ms ++ '-' :: (ds ++ rest)))
    unfold signedYear
    split
    · rename_i heq
      obtain ⟨rfl, -⟩ := List.cons.inj heq
      cases hc
    · rename_i heq
      obtain ⟨rfl, -⟩ := List.cons.inj heq
      cases hc
    · rw [hread]
      rfl
  simp only [dateItems, List.cons_append, List.nil_append, readItems, Item.read, trimStart_writes hyear (by decide : 0 < 4),
    hsigned, trimStart_writes hmonth (by decide : 0 < 2), digits_writes hmonth (by decide : 1 ≤ 2), character_cons,
    trimStart_writes hday (by decide : 0 < 2), digits_writes hday (by decide : 1 ≤ 2), Option.map_some, Option.bind_some]

/-- What the four forms expect behind a day. -/
def behindDay : List (List Item) := [.blank :: secondItems, .literal 'T' :: secondItems, .blank :: minuteItems, []]

theorem forms_date (rest : List Char) :
    (forms.findSome? fun items => form? items (ys ++ '-' :: (ms ++ '-' :: (ds ++ rest)))) =
      behindDay.findSome? fun items => (readItems items ⟨⟨year, month, day⟩, ⟨0, 0, 0, 0⟩⟩ rest).bind fun f =>
        moment? f.date f.clock 0 := by
  have hforms : forms = behindDay.map (dateItems ++ ·) := rfl
  rw [hforms, List.findSome?_map]
  congr 1
  funext items
  unfold form?
  rw [Function.comp_apply, readItems_date hyear hmonth hday]

end

/-! ## Times behind a day -/

section
variable {year month day hour minute second : Nat} {ys ms ds hs is ss : List Char} (hyear : Writes 4 year ys)
  (hmonth : Writes 2 month ms) (hday : Writes 2 day ds) (hhour : Writes 2 hour hs) (hminute : Writes 2 minute is)
  (hsecond : Writes 2 second ss)

section
include hhour hminute

theorem readItems_minutes (items : List Item) (f : Fields) (rest : List Char) :
    readItems (minuteItems ++ items) f (hs ++ ':' :: (is ++ rest)) =
      readItems items { f with clock := { f.clock with hour := hour, minute := minute } } rest := by
  simp only [minuteItems, List.cons_append, List.nil_append, readItems, Item.read, trimStart_writes hhour (by decide : 0 < 2),
    digits_writes hhour (by decide : 1 ≤ 2), character_cons, trimStart_writes hminute (by decide : 0 < 2),
    digits_writes hminute (by decide : 1 ≤ 2), Option.map_some, Option.bind_some]

include hsecond

theorem readItems_seconds (items : List Item) (f : Fields) (rest : List Char) :
    readItems (secondItems ++ items) f (hs ++ ':' :: (is ++ ':' :: (ss ++ rest))) =
      readItems items { f with clock := { f.clock with hour := hour, minute := minute, second := second } } rest := by
  rw [secondItems, List.append_assoc, readItems_minutes hhour hminute]
  simp only [List.cons_append, List.nil_append, readItems, Item.read, character_cons,
    trimStart_writes hsecond (by decide : 0 < 2), digits_writes hsecond (by decide : 1 ≤ 2), Option.map_some, Option.bind_some]

end

/-- What a spelling has behind the day. -/
def Spelling.behind (hs is ss : List Char) : Spelling → List Char
  | .day => []
  | .minutes => ' ' :: (hs ++ ':' :: is)
  | .seconds => ' ' :: (hs ++ ':' :: (is ++ ':' :: ss))
  | .stamp => 'T' :: (hs ++ ':' :: (is ++ ':' :: ss))
  | .universal => 'T' :: (hs ++ ':' :: (is ++ ':' :: (ss ++ ['Z'])))

theorem readItems_blank (items : List Item) (f : Fields) (cs : List Char) :
    readItems (.blank :: items) f (' ' :: cs) = readItems items f (Text.trimStart cs) := rfl

/-- No hour begins with the letter. -/
theorem readItems_blank_letter (items : List Item) (f : Fields) (cs : List Char) :
    readItems (.blank :: (minuteItems ++ items)) f ('T' :: cs) = none := rfl

theorem readItems_letter (items : List Item) (f : Fields) (cs : List Char) :
    readItems (.literal 'T' :: items) f ('T' :: cs) = readItems items f cs := rfl

/-! Each form takes one spelling, and the letter for universal time is behind none of them. -/

section
variable (f : Fields) (s : Spelling)
include hhour hminute

theorem readItems_behind_minutes : readItems (.blank :: minuteItems) f (s.behind hs is ss) =
    if s = .minutes then some { f with clock := { f.clock with hour := hour, minute := minute } } else none := by
  have hminutes := readItems_minutes hhour hminute [] f
  cases s with
  | day => rfl
  | minutes =>
    rw [Spelling.behind, readItems_blank, trimStart_writes hhour (by decide), ← List.append_nil is]
    exact hminutes []
  | seconds =>
    rw [Spelling.behind, readItems_blank, trimStart_writes hhour (by decide)]
    exact hminutes (':' :: ss)
  | stamp => exact readItems_blank_letter [] f _
  | universal => exact readItems_blank_letter [] f _

include hsecond

theorem readItems_behind_seconds : readItems (.blank :: secondItems) f (s.behind hs is ss) =
    if s = .seconds then some { f with clock := { f.clock with hour := hour, minute := minute, second := second } }
    else none := by
  cases s with
  | day => rfl
  | minutes =>
    rw [Spelling.behind, readItems_blank, trimStart_writes hhour (by decide), ← List.append_nil is]
    exact readItems_minutes hhour hminute [.literal ':', .second] f []
  | seconds =>
    rw [Spelling.behind, readItems_blank, trimStart_writes hhour (by decide), ← List.append_nil ss]
    exact readItems_seconds hhour hminute hsecond [] f []
  | stamp => exact readItems_blank_letter [.literal ':', .second] f _
  | universal => exact readItems_blank_letter [.literal ':', .second] f _

theorem readItems_behind_letter : readItems (.literal 'T' :: secondItems) f (s.behind hs is ss) =
    if s = .stamp then some { f with clock := { f.clock with hour := hour, minute := minute, second := second } }
    else none := by
  have hseconds := readItems_seconds hhour hminute hsecond [] f
  cases s with
  | day => rfl
  | minutes => rfl
  | seconds => rfl
  | stamp =>
    rw [Spelling.behind, readItems_letter, ← List.append_nil ss]
    exact hseconds []
  | universal => exact hseconds ['Z']

omit hhour hminute hsecond in
theorem readItems_behind_nothing : readItems [] f (s.behind hs is ss) = if s = .day then some f else none := by
  cases s <;> rfl

/-- **One form takes what is behind the day**, unless it is the letter for universal time. -/
theorem forms_behind (date : Date) :
    (behindDay.findSome? fun items => (readItems items ⟨date, ⟨0, 0, 0, 0⟩⟩ (s.behind hs is ss)).bind fun f =>
      moment? f.date f.clock 0) = if s = .universal then none else moment? date (s.told ⟨hour, minute, second, 0⟩) 0 := by
  have htried : ∀ (f : List Item → Option Moment) (items : List Item) (others : List (List Item)),
      (items :: others).findSome? f = (f items).or (others.findSome? f) := fun f items others => by
    rw [List.findSome?_cons]
    cases f items <;> rfl
  simp only [behindDay, htried, List.findSome?_nil, Option.or_none, readItems_behind_seconds hhour hminute hsecond,
    readItems_behind_letter hhour hminute hsecond, readItems_behind_minutes hhour hminute, readItems_behind_nothing]
  cases s <;> simp [Spelling.told]

end
end

/-! ## Texts -/

theorem trim_between {before after t cs ds : List Char} {c d : Char} (hbefore : ∀ x ∈ before, Text.isBlank x = true)
    (hafter : ∀ x ∈ after, Text.isBlank x = true) (hfirst : t = c :: cs) (hc : Text.isBlank c = false) (hlast : t = ds ++ [d])
    (hd : Text.isBlank d = false) : Text.trim (before ++ t ++ after) = t := by
  have hstart : Text.trimStart (before ++ t ++ after) = t ++ after := by
    unfold Text.trimStart
    rw [List.append_assoc, List.dropWhile_append_of_pos hbefore, hfirst, List.cons_append,
      List.dropWhile_cons_of_neg (by rw [hc]; exact Bool.false_ne_true)]
  unfold Text.trim
  rw [hstart, Text.trimEnd_append_of_blank t after hafter, hlast, Text.trimEnd_concat ds d hd]

theorem exists_last_digit {width n : Nat} {ds : List Char} (h : Writes width n ds) (hwidth : 0 < width) :
    ∃ front c, ds = front ++ [c] ∧ Text.isBlank c = false := by
  have hne : ds ≠ [] := List.ne_nil_of_length_pos (h.length ▸ hwidth)
  exact ⟨ds.dropLast, ds.getLast hne, (List.dropLast_append_getLast hne).symm, solid_writes h _ (List.getLast_mem hne)⟩

theorem Spelling.text_toList (s : Spelling) (d : Date) (c : Clock) : (s.text d c).toList =
    (Number.padded 4 d.year).toList ++ '-' :: ((places true d.month).toList ++ '-' :: ((places true d.day).toList ++
      s.behind (places true c.hour).toList (places true c.minute).toList (places true c.second).toList)) := by
  cases s <;> simp [places, Spelling.text, Spelling.behind, Date.spelled, Clock.spelled, Clock.spelledMinutes]

section
variable {year month day hour minute second : Nat} {ys ms ds hs is ss : List Char} (hyear : Writes 4 year ys)
  (hmonth : Writes 2 month ms) (hday : Writes 2 day ds) (hhour : Writes 2 hour hs) (hminute : Writes 2 minute is)
  (hsecond : Writes 2 second ss)
include hyear hmonth hday hhour hminute hsecond

/-- **A stamp ends with its offset**, so only the letter for universal time makes one. -/
theorem rfc3339?_spelled (s : Spelling) : rfc3339? (ys ++ '-' :: (ms ++ '-' :: (ds ++ s.behind hs is ss))) =
    if s = .universal then moment? ⟨year, month, day⟩ ⟨hour, minute, second, 0⟩ 0 else none := by
  by_cases hs' : s = .universal
  · rw [if_pos hs', hs']
    exact rfc3339?_writes hyear hmonth hday hhour hminute hsecond rfl .universal
  · rw [if_neg hs', Option.eq_none_iff_forall_ne_some]
    intro m hm
    have hlength := (of_rfc3339? hm).1
    cases s <;> simp [Spelling.behind, hyear.length, hmonth.length, hday.length, hhour.length, hminute.length,
      hsecond.length] at hs' hlength

omit hmonth hhour in
/-- Blanks around a spelling are taken off, and nothing of the spelling. -/
theorem trim_spelled (s : Spelling) {before after : List Char} (hbefore : ∀ x ∈ before, Text.isBlank x = true)
    (hafter : ∀ x ∈ after, Text.isBlank x = true) :
    Text.trim (before ++ (ys ++ '-' :: (ms ++ '-' :: (ds ++ s.behind hs is ss))) ++ after) =
      ys ++ '-' :: (ms ++ '-' :: (ds ++ s.behind hs is ss)) := by
  have hlast : ∃ front d, ys ++ '-' :: (ms ++ '-' :: (ds ++ s.behind hs is ss)) = front ++ [d] ∧ Text.isBlank d = false := by
    obtain ⟨dfront, dlast, hds, hdlast⟩ := exists_last_digit hday (by decide)
    obtain ⟨ifront, ilast, his, hilast⟩ := exists_last_digit hminute (by decide)
    obtain ⟨sfront, slast, hss, hslast⟩ := exists_last_digit hsecond (by decide)
    cases s with
    | day => exact ⟨ys ++ '-' :: (ms ++ '-' :: dfront), dlast, by simp [Spelling.behind, hds], hdlast⟩
    | minutes =>
      exact ⟨ys ++ '-' :: (ms ++ '-' :: (ds ++ ' ' :: (hs ++ ':' :: ifront))), ilast, by simp [Spelling.behind, his], hilast⟩
    | seconds =>
      exact ⟨ys ++ '-' :: (ms ++ '-' :: (ds ++ ' ' :: (hs ++ ':' :: (is ++ ':' :: sfront)))), slast,
        by simp [Spelling.behind, hss], hslast⟩
    | stamp =>
      exact ⟨ys ++ '-' :: (ms ++ '-' :: (ds ++ 'T' :: (hs ++ ':' :: (is ++ ':' :: sfront)))), slast,
        by simp [Spelling.behind, hss], hslast⟩
    | universal =>
      exact ⟨ys ++ '-' :: (ms ++ '-' :: (ds ++ 'T' :: (hs ++ ':' :: (is ++ ':' :: ss)))), 'Z', by simp [Spelling.behind],
        by decide⟩
  obtain ⟨c, cs, hys⟩ := List.exists_cons_of_length_pos (hyear.length ▸ (by decide : 0 < 4))
  have hfirst : ys ++ '-' :: (ms ++ '-' :: (ds ++ s.behind hs is ss)) =
      c :: (cs ++ '-' :: (ms ++ '-' :: (ds ++ s.behind hs is ss))) := by
    rw [hys, List.cons_append]
  obtain ⟨front, d, hlast, hd⟩ := hlast
  exact trim_between hbefore hafter hfirst (solid_writes hyear c (hys ▸ List.mem_cons_self)) hlast hd

/-- **A spelling is read as the time that it tells**, whatever blanks are around it. -/
theorem ofText?_spelled (s : Spelling) {before after : List Char} (hbefore : ∀ x ∈ before, Text.isBlank x = true)
    (hafter : ∀ x ∈ after, Text.isBlank x = true) :
    ofText? (before ++ (ys ++ '-' :: (ms ++ '-' :: (ds ++ s.behind hs is ss))) ++ after) =
      moment? ⟨year, month, day⟩ (s.told ⟨hour, minute, second, 0⟩) 0 := by
  unfold ofText?
  dsimp only
  rw [trim_spelled hyear hday hminute hsecond s hbefore hafter, rfc2822?_date hyear, Option.none_or,
    rfc3339?_spelled hyear hmonth hday hhour hminute hsecond, forms_date hyear hmonth hday,
    forms_behind hhour hminute hsecond]
  cases s <;> simp [Spelling.told]

end

/-! ## Times -/

section
variable {d : Date} {c : Clock}

/-- A time is the moment that is counted to it. -/
theorem moment?_of_isTime (hyear : 0 ≤ d.year ∧ d.year ≤ 9999) (hnanos : c.nanos = 0) (h : IsTime d c) :
    moment? d c 0 = some ⟨millisAt d c / 1000, 0, 0⟩ := by
  have hclock : c.isValid = true := by
    unfold Clock.isValid
    simp only [Bool.and_eq_true, decide_eq_true_eq]
    have := h.second
    exact ⟨⟨⟨h.hour, h.minute⟩, by omega⟩, by rw [hnanos]; decide⟩
  have hleap : (c.second == 60) = false := beq_false_of_ne (by have := h.second; omega)
  have hcounted := Date.dayNumber_eq_counted h.date hyear.1
  unfold moment?
  rw [h.date, hclock, isSupportedDay_of_year h.date hyear.1 hyear.2, if_pos (by decide)]
  unfold Moment.ofClock
  dsimp only
  rw [hleap, hnanos, hcounted]
  simp only [Bool.false_eq_true, if_false, Nat.zero_add, Option.some.injEq, Moment.mk.injEq, and_true]
  unfold millisAt daySeconds
  push_cast
  omega

/-- Any other numbers are no moment, leap seconds aside. -/
theorem moment?_of_not_isTime (hsecond : c.second ≠ 60) (h : ¬ IsTime d c) : moment? d c 0 = none := by
  unfold moment?
  refine if_neg fun hexists => h ?_
  simp only [Bool.and_eq_true, Clock.isValid, decide_eq_true_eq] at hexists
  obtain ⟨⟨⟨⟨hdate, ⟨⟨hhour, hminute⟩, hle⟩, -⟩, -⟩, -⟩, -⟩ := hexists
  exact ⟨hdate, hhour, hminute, by omega⟩

theorem millisAt_range (hyear : 0 ≤ d.year ∧ d.year ≤ 9999) (h : IsTime d c) :
    firstMillis ≤ millisAt d c ∧ millisAt d c ≤ lastMillis := by
  have hday : millisAt d c / 1000 / daySeconds = d.dayNumber := by
    have hhour := h.hour
    have hminute := h.minute
    have hsecond := h.second
    rw [Date.dayNumber_eq_counted h.date hyear.1]
    unfold millisAt daySeconds
    omega
  rw [← isSupportedDay_iff, hday]
  exact isSupportedDay_of_year h.date hyear.1 hyear.2

theorem ofDatum_spelled (h : HavePlaces d c) (s : Spelling) {before after : String}
    (hbefore : ∀ x ∈ before.toList, Text.isBlank x = true) (hafter : ∀ x ∈ after.toList, Text.isBlank x = true)
    (now : Moment) : ofDatum now (.text (before ++ s.text d c ++ after)) =
      match moment? d (s.told c) 0 with
      | some m => .ok m
      | none => .error (.unrecognized (s.text d c)) := by
  have hyear : Writes 4 d.year.toNat (Number.padded 4 d.year).toList := year_writes h.year.1 h.year.2
  have hmonth := places_writes h.month
  have hday := places_writes h.day
  have hhour := places_writes h.hour
  have hminute := places_writes h.minute
  have hsecond := places_writes h.second
  have hread := ofText?_spelled hyear hmonth hday hhour hminute hsecond s hbefore hafter
  have htext : (before ++ s.text d c ++ after).toList = before.toList ++ (s.text d c).toList ++ after.toList := by
    rw [String.toList_append, String.toList_append]
  rw [Int.toNat_of_nonneg h.year.1] at hread
  unfold ofDatum
  dsimp only
  rw [htext, s.text_toList, hread, trim_spelled hyear hday hminute hsecond s hbefore hafter, ← s.text_toList,
    String.ofList_toList]
  rfl

end

/-- **The spellings of a time are one date.**  Take a day in the years 0 to 9999 and a time of day, in numbers that have room
in their places and without a leap second, and any blanks around them.  A spelling is a date exactly if the day is one of
the calendar and what it tells of the time is one of a day.  The date then is the one of the milliseconds from the start of
1970, whichever spelling tells them; any other text is reported, without the blanks. -/
theorem spellings_agree {d : Date} {c : Clock} (h : HavePlaces d c) (hleap : c.second ≠ 60) {before after : String}
    (hbefore : ∀ x ∈ before.toList, Text.isBlank x = true) (hafter : ∀ x ∈ after.toList, Text.isBlank x = true)
    (s : Spelling) (now : Moment) :
    let text := Datum.text (before ++ s.text d c ++ after)
    ((∃ m, ofDatum now text = .ok m) ↔ IsTime d (s.told c)) ∧
    (IsTime d (s.told c) → ∃ m, ofDatum now text = .ok m ∧ ofDatum now (.int (millisAt d (s.told c))) = .ok m) ∧
    (¬ IsTime d (s.told c) → ofDatum now text = .error (.unrecognized (s.text d c))) := by
  intro text
  have hread := ofDatum_spelled h s hbefore hafter now
  have htold : (s.told c).nanos = 0 ∧ (s.told c).second ≠ 60 := by cases s <;> simp [Spelling.told, hleap]
  have htime : IsTime d (s.told c) → ofDatum now text = .ok ⟨millisAt d (s.told c) / 1000, 0, 0⟩ := by
    intro htime
    rw [hread, moment?_of_isTime h.year htold.1 htime]
  have hnone : ¬ IsTime d (s.told c) → ofDatum now text = .error (.unrecognized (s.text d c)) := by
    intro hnot
    rw [hread, moment?_of_not_isTime htold.2 hnot]
  refine ⟨⟨?_, fun ht => ⟨_, htime ht⟩⟩, ?_, hnone⟩
  · rintro ⟨m, hm⟩
    by_contra hnot
    rw [hnone hnot] at hm
    cases hm
  · intro ht
    have hwhole : millisAt d (s.told c) % 1000 = 0 := Int.mul_emod_left _ _
    refine ⟨_, htime ht, ?_⟩
    rw [ofDatum_int (millisAt_range h.year ht), hwhole]
    rfl

/-- The evening of a leap day of the year 1600, and the same day of the year 1700, which is missing. -/
theorem spellings_agree_leap_day :
    (∃ m, ofDatum .epoch (.text "\n 1600-02-29 23:59 ") = .ok m ∧ ofDatum .epoch (.int (-11670912060000)) = .ok m) ∧
    (∃ m, ofDatum .epoch (.text "1600-02-29T23:59:07Z\t") = .ok m ∧ ofDatum .epoch (.int (-11670912053000)) = .ok m) ∧
    ofDatum .epoch (.text " 1700-02-29") = .error (.unrecognized "1700-02-29") := by
  have hminutes : millisAt ⟨1600, 2, 29⟩ ⟨23, 59, 0, 0⟩ = -11670912060000 := by decide +kernel
  have hseconds : millisAt ⟨1600, 2, 29⟩ ⟨23, 59, 7, 0⟩ = -11670912053000 := by decide +kernel
  have hblanks : ∀ x ∈ "\n ".toList, Text.isBlank x = true := List.all_eq_true.1 (by decide)
  have htab : ∀ x ∈ "\t".toList, Text.isBlank x = true := List.all_eq_true.1 (by decide)
  have hspace : ∀ x ∈ " ".toList, Text.isBlank x = true := List.all_eq_true.1 (by decide)
  have hnothing : ∀ x ∈ "".toList, Text.isBlank x = true := List.all_eq_true.1 (by decide)
  have hleap : HavePlaces ⟨1600, 2, 29⟩ ⟨23, 59, 7, 0⟩ := by constructor <;> decide
  have hcommon : HavePlaces ⟨1700, 2, 29⟩ ⟨0, 0, 0, 0⟩ := by constructor <;> decide
  refine ⟨?_, ?_, ?_⟩
  · rw [← hminutes]
    exact (spellings_agree hleap (by decide) hblanks hspace .minutes .epoch).2.1 (by constructor <;> decide)
  · rw [← hseconds]
    exact (spellings_agree hleap (by decide) hnothing htab .universal .epoch).2.1 (by constructor <;> decide)
  · exact (spellings_agree hcommon (by decide) hspace hnothing .day .epoch).2.2 fun htime =>
      absurd htime.date (by decide)

end Folio.Calendar
