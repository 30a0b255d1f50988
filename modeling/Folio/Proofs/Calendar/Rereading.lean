import Folio.Proofs.Calendar.Formats
import Folio.Proofs.Calendar.Spellings
/-!
# Dates read back

What a mask writes of a date in four places and of a time in two places each is read back: a full stamp with milliseconds and
an offset, a stamp in universal time, and a date alone (`format_reread`).
-/
namespace Folio.Calendar

open Number (Writes padded_writes)

/-! ## What masks write -/

/-- **An offset of whole minutes is written whole.** -/
theorem zoneText_minuteOffset {zone : Int} (hrange : -daySeconds < zone ∧ zone < daySeconds) (hminutes : zone % 60 = 0) :
    ZoneText zone (minuteOffset true zone).toList := by
  unfold daySeconds at hrange
  have hhours : zone.natAbs / 60 / 60 < 100 := by omega
  have hlt : zone.natAbs / 60 % 60 < 60 := Nat.mod_lt _ (by decide)
  have hsize : zone.natAbs = zone.natAbs / 60 / 60 * 3600 + zone.natAbs / 60 % 60 * 60 := by omega
  have hh := places_writes hhours
  have hm := places_writes (hlt.trans (by decide))
  have hcolon : ":".toList = [':'] := by decide
  rw [minuteOffset_eq, if_pos rfl, signedMinutes_toList, hcolon, List.singleton_append]
  simp only [decide_eq_true_eq]
  generalize zone.natAbs / 60 / 60 = hours at hsize hh
  generalize zone.natAbs / 60 % 60 = minutes at hsize hm hlt
  split
  · have hzone : zone = -(hours * 3600 + minutes * 60 : Nat) := by omega
    rw [hzone]
    exact .behind hh hm hlt
  · have hzone : zone = (hours * 3600 + minutes * 60 : Nat) := by omega
    rw [hzone]
    exact .ahead hh hm hlt

/-- The numbers of a date with dashes between, as tokens. -/
def dayTokens : List Token := [.longYear, .literal ['-'], .month 2, .literal ['-'], .day 2]

/-- A letter, and the numbers of a time of day with colons between. -/
def clockTokens : List Token :=
  [.literal ['T'], .hour true, .literal [':'], .minute true, .literal [':'], .second true]

/-- Moments that are written in full: a four-digit year, in universal time too, an offset of whole minutes and less than a
day, and no leap second. -/
structure Moment.IsPlain (m : Moment) : Prop where
  year : 0 ≤ m.date.year ∧ m.date.year ≤ 9999
  universalYear : 0 ≤ m.toUniversal.date.year ∧ m.toUniversal.date.year ≤ 9999
  offset : -daySeconds < m.offset ∧ m.offset < daySeconds
  minutes : m.offset % 60 = 0
  nanos : m.nanos < nanosPerSecond

namespace Moment

theorem IsPlain.toUniversal {m : Moment} (h : m.IsPlain) : m.toUniversal.IsPlain where
  year := h.universalYear
  universalYear := h.universalYear
  offset := (by decide : -daySeconds < 0 ∧ 0 < daySeconds)
  minutes := rfl
  nanos := h.nanos

/-- **The numbers that a clock shows make the moment again.** -/
theorem IsPlain.moment?_shown {m : Moment} (h : m.IsPlain) {nanos : Nat} (hnanos : nanos < nanosPerSecond) :
    moment? ⟨m.date.year.toNat, m.date.month, m.date.day⟩ ⟨m.hour, m.minute, m.second, nanos⟩ m.offset =
      some { m with nanos := nanos } := by
  have hclock : Clock.isValid ⟨m.hour, m.minute, m.second, nanos⟩ = true := by
    have := m.second_lt
    simp only [Clock.isValid, Bool.and_eq_true, decide_eq_true_eq]
    exact ⟨⟨⟨m.hour_lt, m.minute_lt⟩, by omega⟩, hnanos⟩
  rw [Int.toNat_of_nonneg h.year.1]
  unfold moment?
  rw [if_pos, m.ofClock_shown]
  rw [m.isValid_date, hclock, isSupportedDay_of_year m.isValid_date h.year.1 h.year.2]
  simpa using h.offset

variable (m : Moment) (universal : Bool)

/-- What the year, the month and the day of a moment are written with. -/
def yearDigits : List Char := (Number.padded 4 m.date.year).toList

def monthDigits : List Char := (places true m.date.month).toList

def dayDigits : List Char := (places true m.date.day).toList

def hourDigits : List Char := (places true m.hour).toList

def minuteDigits : List Char := (places true m.minute).toList

def secondDigits : List Char := (places true m.second).toList

theorem date_lt : m.date.month < 100 ∧ m.date.day < 100 := by
  obtain ⟨-, hmonth, -, hday⟩ := m.date.isValid_iff.1 m.isValid_date
  have hlength : daysInMonth m.date.year m.date.month ≤ 31 := by
    unfold daysInMonth
    repeat' split
    all_goals omega
  omega

theorem month_writes : Writes 2 m.date.month m.monthDigits := places_writes m.date_lt.1

theorem day_writes : Writes 2 m.date.day m.dayDigits := places_writes m.date_lt.2

theorem hour_writes : Writes 2 m.hour m.hourDigits := places_writes (m.hour_lt.trans (by decide))

theorem minute_writes : Writes 2 m.minute m.minuteDigits := places_writes (m.minute_lt.trans (by decide))

theorem second_writes : Writes 2 m.second m.secondDigits := places_writes (m.second_lt.trans (by decide))

theorem dayTokens_text (ts : List Token) : ((dayTokens ++ ts).flatMap fun t => (t.text universal m).toList) =
    m.yearDigits ++ '-' :: (m.monthDigits ++ '-' :: (m.dayDigits ++ ts.flatMap fun t => (t.text universal m).toList)) := by
  have hdash : ((Token.literal ['-']).text universal m).toList = ['-'] := String.toList_ofList
  unfold dayTokens
  simp only [List.cons_append, List.nil_append, List.flatMap_cons, hdash]
  rfl

theorem clockTokens_text (ts : List Token) : ((clockTokens ++ ts).flatMap fun t => (t.text universal m).toList) =
    'T' :: (m.hourDigits ++ ':' :: (m.minuteDigits ++ ':' :: (m.secondDigits ++
      ts.flatMap fun t => (t.text universal m).toList))) := by
  have hcolon : ((Token.literal [':']).text universal m).toList = [':'] := String.toList_ofList
  have hletter : ((Token.literal ['T']).text universal m).toList = ['T'] := String.toList_ofList
  unfold clockTokens
  simp only [List.cons_append, List.nil_append, List.flatMap_cons, hcolon, hletter]
  rfl

variable {m}

/-- **A full stamp is read back**, with the fraction of a second that it gives. -/
theorem IsPlain.ofText?_stamp (h : m.IsPlain) {nanos : Nat} {rest after : List Char}
    (hfraction : Calendar.fraction rest = some (nanos, after)) (hzone : ZoneText m.offset after) (hsolid : Solid rest)
    (hnanos : nanos < nanosPerSecond) :
    ofText? (m.yearDigits ++ '-' :: (m.monthDigits ++ '-' :: (m.dayDigits ++ 'T' :: (m.hourDigits ++ ':' ::
      (m.minuteDigits ++ ':' :: (m.secondDigits ++ rest)))))) = some { m with nanos := nanos } := by
  have hyear : Writes 4 m.date.year.toNat m.yearDigits := year_writes h.year.1 h.year.2
  exact ofText?_writes hyear m.month_writes m.day_writes m.hour_writes m.minute_writes m.second_writes hfraction hzone
    hsolid (h.moment?_shown hnanos)

end Moment

/-- The three stamps are masks, one of them in universal time. -/
theorem format_stamps (m : Moment) :
    format m "yyyy-mm-dd'T'HH:MM:ss.lp" = .ok (applyMask m false "yyyy-mm-dd'T'HH:MM:ss.lp".toList) ∧
    format m "isoUtcDateTime" = .ok (applyMask m.toUniversal true "yyyy-mm-dd'T'HH:MM:ss'Z'".toList) ∧
    format m "isoDate" = .ok (applyMask m false "yyyy-mm-dd".toList) :=
  ⟨format_of_mask m "yyyy-mm-dd'T'HH:MM:ss.lp" (by decide +kernel) (by decide +kernel) (by decide +kernel),
    format_of_mask m "UTC:yyyy-mm-dd'T'HH:MM:ss'Z'" (by decide +kernel) (by decide +kernel) (by decide +kernel),
    format_of_mask m "yyyy-mm-dd" (by decide +kernel) (by decide +kernel) (by decide +kernel)⟩

/-- **Formatted dates are read back.**  Let the years of a date be of four digits, on its own clock and in universal time, its
offset be whole minutes and less than a day, and let it not be a leap second.  A full stamp with milliseconds gives the date
back, down to the millisecond and with its offset; a stamp in universal time gives the instant back, down to the second and
without an offset; a date alone gives the midnight in universal time that starts the day shown on the clock. -/
theorem format_reread {m : Moment} (h : m.IsPlain) (now : Moment) :
    (∃ text, format m "yyyy-mm-dd'T'HH:MM:ss.lp" = .ok text ∧
      ofDatum now (.text text) = .ok { m with nanos := m.nanos / 1000000 * 1000000 }) ∧
    (∃ text, format m "isoUtcDateTime" = .ok text ∧ ofDatum now (.text text) = .ok ⟨m.seconds, 0, 0⟩) ∧
    ∃ text, format m "isoDate" = .ok text ∧ ofDatum now (.text text) = .ok (.ofClock m.date ⟨0, 0, 0, 0⟩ 0) := by
  obtain ⟨hstamp, huniversal, hday⟩ := format_stamps m
  refine ⟨⟨_, hstamp, ofDatum_of_text ?_⟩, ⟨_, huniversal, ofDatum_of_text ?_⟩, ⟨_, hday, ofDatum_of_text ?_⟩⟩
  · have htokens : tokens "yyyy-mm-dd'T'HH:MM:ss.lp".toList =
        dayTokens ++ (clockTokens ++ [.literal ['.'], .millis, .offset true]) := by decide +kernel
    have hpoint : ((Token.literal ['.']).text false m).toList = ['.'] := String.toList_ofList
    have hnanos := h.nanos
    unfold nanosPerSecond at hnanos
    have hmillis : Writes 3 (m.nanos / 1000000) (Number.padded 3 (millisOf m)).toList := by
      have hmod : millisOf m = m.nanos / 1000000 := Nat.mod_eq_of_lt (by omega)
      rw [hmod]
      exact padded_writes (by decide) (by omega : m.nanos / 1000000 < 1000)
    have hzone := zoneText_minuteOffset h.offset h.minutes
    rw [toList_applyMask htokens, Moment.dayTokens_text, Moment.clockTokens_text]
    simp only [List.flatMap_cons, List.flatMap_nil, List.append_nil, hpoint, List.singleton_append]
    exact h.ofText?_stamp (fraction_writes (by decide) hmillis hzone.head?_not_digit) hzone
      (.cons (by decide) ((solid_writes hmillis).append hzone.solid)) (by unfold nanosPerSecond; omega)
  · have htokens : tokens "yyyy-mm-dd'T'HH:MM:ss'Z'".toList = dayTokens ++ (clockTokens ++ [.literal ['Z']]) := by
      decide +kernel
    have hletter : ((Token.literal ['Z']).text true m.toUniversal).toList = ['Z'] := String.toList_ofList
    rw [toList_applyMask htokens, Moment.dayTokens_text, Moment.clockTokens_text]
    simp only [List.flatMap_cons, List.flatMap_nil, List.append_nil, hletter]
    exact h.toUniversal.ofText?_stamp rfl .universal ZoneText.universal.solid (by decide)
  · have htokens : tokens "yyyy-mm-dd".toList = dayTokens ++ [] := by decide +kernel
    have hyear := year_writes h.year.1 h.year.2
    rw [toList_applyMask htokens, Moment.dayTokens_text]
    simp only [List.flatMap_nil, List.append_nil]
    have hread := ofText?_spelled hyear m.month_writes m.day_writes m.hour_writes m.minute_writes m.second_writes .day
      (List.forall_mem_nil _) (List.forall_mem_nil _)
    simp only [Spelling.behind, Spelling.told, List.nil_append, List.append_nil] at hread
    refine hread.trans ?_
    rw [Int.toNat_of_nonneg h.year.1]
    unfold moment?
    rw [if_pos]
    rw [m.isValid_date, isSupportedDay_of_year m.isValid_date h.year.1 h.year.2]
    decide

/-- The last second of a leap day, behind universal time by five hours and a half. -/
theorem format_reread_leap_day :
    Moment.IsPlain ⟨1709270999, 987654321, -19800⟩ ∧
    (∃ text, format ⟨1709270999, 987654321, -19800⟩ "yyyy-mm-dd'T'HH:MM:ss.lp" = .ok text ∧
      ofDatum .epoch (.text text) = .ok ⟨1709270999, 987000000, -19800⟩) ∧
    (∃ text, format ⟨1709270999, 987654321, -19800⟩ "isoUtcDateTime" = .ok text ∧
      ofDatum .epoch (.text text) = .ok ⟨1709270999, 0, 0⟩) ∧
    ∃ text, format ⟨1709270999, 987654321, -19800⟩ "isoDate" = .ok text ∧
      ofDatum .epoch (.text text) = .ok ⟨1709164800, 0, 0⟩ := by
  have hplain : Moment.IsPlain ⟨1709270999, 987654321, -19800⟩ := by constructor <;> decide +kernel
  have hday : Moment.ofClock (Moment.date ⟨1709270999, 987654321, -19800⟩) ⟨0, 0, 0, 0⟩ 0 = ⟨1709164800, 0, 0⟩ := by
    decide +kernel
  have hread := format_reread hplain .epoch
  rw [hday] at hread
  exact ⟨hplain, hread⟩

end Folio.Calendar
