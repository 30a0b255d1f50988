import Folio.Proofs.Calendar.Rereading
import Folio.Proofs.Context.Merge
/-!
# Times that a context tells

A page is told the times of its file as texts, its dates with a numeric offset and the record of its times with a `Z`.  Both
texts have as many digits of the second as it takes (`exists_fraction`), so either of them is read back as the instant that
was written, to the nanosecond (`ofText?_dateTimeText`).

Nanoseconds may count beyond a second.  In the last second of a minute they are those of a leap second, which is written as
the second 60 and read as such; anywhere else they belong to the next second, and so they are read (`Moment.carried`).
-/
namespace Folio

namespace Calendar

open Number (Writes padded_writes)

/-! ## Digits of the second -/

/-- **A fraction is a point and so many digits**, or nothing at all. -/
theorem exists_fraction {nanos : Nat} (h : nanos < nanosPerSecond) :
    (nanos = 0 ∧ (Moment.fractionText nanos).toList = []) ∨
    ∃ width n ds, (0 < width ∧ width ≤ 9) ∧ Writes width n ds ∧ (Moment.fractionText nanos).toList = '.' :: ds ∧
      n * Nat.pow 10 (9 - width) = nanos := by
  unfold nanosPerSecond at h
  unfold Moment.fractionText
  by_cases hnone : nanos = 0
  · exact .inl ⟨hnone, by simp [hnone]⟩
  refine .inr ?_
  rw [if_neg hnone]
  by_cases hmillis : nanos % 1000000 = 0
  · refine ⟨3, nanos / 1000000, _, by decide, padded_writes (by decide) (by show _ < 1000; omega), ?_, ?_⟩
    · simp [hmillis]
    · show nanos / 1000000 * 1000000 = nanos
      omega
  rw [if_neg hmillis]
  by_cases hmicros : nanos % 1000 = 0
  · refine ⟨6, nanos / 1000, _, by decide, padded_writes (by decide) (by show _ < 1000000; omega), ?_, ?_⟩
    · simp [hmicros]
    · show nanos / 1000 * 1000 = nanos
      omega
  · refine ⟨9, nanos, _, by decide, padded_writes (by decide) (by show _ < 1000000000; omega), ?_, ?_⟩
    · simp [hmicros]
    · show nanos * 1 = nanos
      omega

section
variable {nanos : Nat} (h : nanos < nanosPerSecond) {zone : Int} {rest : List Char} (hzone : ZoneText zone rest)
include h hzone

theorem fraction_fractionText : fraction ((Moment.fractionText nanos).toList ++ rest) = some (nanos, rest) := by
  rcases exists_fraction h with ⟨rfl, htext⟩ | ⟨width, n, ds, hwidth, hwrites, htext, hn⟩
  · rw [htext, List.nil_append]
    cases hzone <;> rfl
  · rw [htext, List.cons_append, fraction_writes hwidth hwrites hzone.head?_not_digit, hn]

theorem solid_fractionText : Solid ((Moment.fractionText nanos).toList ++ rest) := by
  refine Solid.append ?_ hzone.solid
  rcases exists_fraction h with ⟨-, htext⟩ | ⟨width, n, ds, -, hwrites, htext, -⟩
  · simp [htext, Solid]
  · rw [htext]
    exact .cons (by decide) (solid_writes hwrites)

end

namespace Moment

/-! ## Instants -/

/-- Nanoseconds from the start of 1970. -/
def instant (m : Moment) : Int := m.seconds * nanosPerSecond + m.nanos

/-- A moment of universal time in a year of four digits, with a second's nanoseconds or those of a leap second. -/
structure IsUniversal (m : Moment) : Prop where
  offset : m.offset = 0
  year : 0 ≤ m.date.year ∧ m.date.year ≤ 9999
  nanos : m.nanos < 2 * nanosPerSecond

/-- The moment with nanoseconds beyond a second carried over to the next one, unless that is the leap second of a minute. -/
def carried (m : Moment) : Moment :=
  if m.second = 59 then m else { m with seconds := m.seconds + (m.nanos / nanosPerSecond : Nat), nanos := m.fraction }

theorem carried_eq_self {m : Moment} (h : m.nanos < nanosPerSecond ∨ m.second = 59) : m.carried = m := by
  unfold carried
  by_cases hlast : m.second = 59
  · rw [if_pos hlast]
  · have hlt := h.resolve_right hlast
    rw [if_neg hlast, fraction, Nat.div_eq_of_lt hlt, Nat.mod_eq_of_lt hlt, Nat.cast_zero, Int.add_zero]

theorem offset_carried (m : Moment) : m.carried.offset = m.offset := by
  unfold carried
  split <;> rfl

theorem instant_carried (m : Moment) : m.carried.instant = m.instant := by
  unfold carried
  split
  · rfl
  · have hnanos := Nat.div_add_mod m.nanos nanosPerSecond
    unfold instant fraction
    dsimp only
    unfold nanosPerSecond at *
    omega

theorem fraction_lt (m : Moment) : m.fraction < nanosPerSecond := Nat.mod_lt _ (by decide)

theorem fullSecond_le {m : Moment} (h : m.nanos < 2 * nanosPerSecond) : m.fullSecond ≤ 60 := by
  have hsecond := m.second_lt
  have hcarry : m.nanos / nanosPerSecond < 2 := Nat.div_lt_of_lt_mul (by rwa [Nat.mul_comm])
  unfold fullSecond
  omega

theorem ofClock_fullSecond {m : Moment} (h : m.nanos < 2 * nanosPerSecond) :
    ofClock m.date ⟨m.hour, m.minute, m.fullSecond, m.fraction⟩ m.offset = m.carried := by
  have hshown := m.ofClock_shown m.fraction
  have hparts := Nat.div_add_mod m.nanos nanosPerSecond
  have hsecond := m.second_lt
  by_cases hplain : m.nanos < nanosPerSecond
  · have hfull : m.fullSecond = m.second := by rw [fullSecond, Nat.div_eq_of_lt hplain, Nat.add_zero]
    have hnanos : m.fraction = m.nanos := Nat.mod_eq_of_lt hplain
    rw [hfull, hshown, hnanos, carried_eq_self (.inl hplain)]
  have hcarry : m.nanos / nanosPerSecond = 1 := by
    unfold nanosPerSecond at *
    omega
  have hfull : m.fullSecond = m.second + 1 := by rw [fullSecond, hcarry]
  have hnanos : m.fraction + nanosPerSecond = m.nanos := by
    rw [hcarry] at hparts
    unfold fraction
    omega
  -- What the clock shows before the second is carried over.
  have hbefore : m.date.dayNumber * daySeconds + (m.hour * 3600 + m.minute * 60 + m.second : Nat) - m.offset =
      m.seconds := by
    have hleap : (m.second == 60) = false := beq_false_of_ne (by omega)
    have hseconds := congrArg Moment.seconds hshown
    simpa [ofClock, hleap] using hseconds
  rw [hfull]
  by_cases hlast : m.second = 59
  · have hleap : (m.second + 1 == 60) = true := beq_iff_eq.2 (by omega)
    unfold ofClock
    simp only [hleap, if_true]
    rw [carried_eq_self (.inr hlast), ← hlast, hbefore, hnanos]
  · have hleap : (m.second + 1 == 60) = false := beq_false_of_ne (by omega)
    unfold ofClock carried
    simp only [hleap, Bool.false_eq_true, if_false, if_neg hlast, hcarry, Nat.add_zero]
    rw [← hbefore]
    congr 1
    push_cast
    omega

/-- **The numbers that a clock shows make the moment again**, a leap second among them. -/
theorem IsUniversal.moment?_full {m : Moment} (h : m.IsUniversal) :
    moment? ⟨m.date.year.toNat, m.date.month, m.date.day⟩ ⟨m.hour, m.minute, m.fullSecond, m.fraction⟩ 0 =
      some m.carried := by
  have hclock : Clock.isValid ⟨m.hour, m.minute, m.fullSecond, m.fraction⟩ = true := by
    simp only [Clock.isValid, Bool.and_eq_true, decide_eq_true_eq]
    exact ⟨⟨⟨m.hour_lt, m.minute_lt⟩, fullSecond_le h.nanos⟩, m.fraction_lt⟩
  have hmade := ofClock_fullSecond h.nanos
  rw [h.offset] at hmade
  rw [Int.toNat_of_nonneg h.year.1]
  unfold moment?
  rw [m.isValid_date, hclock, isSupportedDay_of_year m.isValid_date h.year.1 h.year.2, if_pos (by decide), hmade]

/-! ## Texts of instants -/

theorem dateTimeText_toList {m : Moment} (hyear : 0 ≤ m.date.year ∧ m.date.year ≤ 9999) : m.dateTimeText.toList =
    m.yearDigits ++ '-' :: (m.monthDigits ++ '-' :: (m.dayDigits ++ 'T' :: (m.hourDigits ++ ':' :: (m.minuteDigits ++
      ':' :: ((places true m.fullSecond).toList ++ (fractionText m.fraction).toList))))) := by
  simp [dateTimeText, yearText, hyear, twoDigits, places, yearDigits, monthDigits, dayDigits, hourDigits, minuteDigits]

/-- **A text of universal time is read back as its instant**, whatever says that it is universal. -/
theorem IsUniversal.ofText?_dateTimeText {m : Moment} (h : m.IsUniversal) {zone : String}
    (hzone : ZoneText 0 zone.toList) : ofText? (m.dateTimeText ++ zone).toList = some m.carried := by
  have hyear : Writes 4 m.date.year.toNat m.yearDigits := year_writes h.year.1 h.year.2
  have hsecond : Writes 2 m.fullSecond (places true m.fullSecond).toList :=
    places_writes ((fullSecond_le h.nanos).trans_lt (by decide))
  have hread := ofText?_writes hyear m.month_writes m.day_writes m.hour_writes m.minute_writes hsecond
    (fraction_fractionText m.fraction_lt hzone) hzone (solid_fractionText m.fraction_lt hzone) h.moment?_full
  rw [String.toList_append, dateTimeText_toList h.year]
  simpa only [List.append_assoc, List.cons_append] using hread

theorem zoneText_zulu : ZoneText 0 "Z".toList := .universal

theorem zoneText_zero : ZoneText 0 "+00:00".toList :=
  have hdigits : Writes 2 0 ['0', '0'] := ⟨rfl, by simp, rfl⟩
  .ahead hdigits hdigits (by decide)

theorem rfc3339_eq {m : Moment} (h : m.offset = 0) : m.rfc3339 = m.dateTimeText ++ "+00:00" := by
  have hoffset : offsetText ":" 0 = "+00:00" := by decide +kernel
  rw [rfc3339, h, hoffset]

theorem rfc3339Zulu_eq {m : Moment} (h : m.offset = 0) : m.rfc3339Zulu = m.dateTimeText ++ "Z" := by
  rw [rfc3339Zulu, if_pos h]

end Moment

/-- A value is read as a moment: as its instant, to the nanosecond and in universal time, and as the moment itself unless
that counts nanoseconds beyond a second which is not the last of its minute. -/
def IsReadAs (now : Moment) (d : Datum) (m : Moment) : Prop :=
  ∃ r, ofDatum now d = .ok r ∧ r.offset = 0 ∧ r.instant = m.instant ∧
    (m.nanos < nanosPerSecond ∨ m.second = 59 → r = m)

theorem Moment.IsUniversal.isReadAs {m : Moment} (h : m.IsUniversal) {zone : String} (hzone : ZoneText 0 zone.toList)
    (now : Moment) : IsReadAs now (.text (m.dateTimeText ++ zone)) m :=
  ⟨m.carried, ofDatum_of_text (h.ofText?_dateTimeText hzone), m.offset_carried.trans h.offset, m.instant_carried,
    carried_eq_self⟩

theorem IsReadAs.eq_ok {now m : Moment} {d : Datum} (h : IsReadAs now d m)
    (hm : m.nanos < nanosPerSecond ∨ m.second = 59) : ofDatum now d = .ok m := by
  obtain ⟨r, hread, -, -, hsame⟩ := h
  rw [hread, hsame hm]

end Calendar

open Calendar (Moment IsReadAs)

/-- **The times that a context tells are read back without loss.**  Let a time of a file be universal and its year of four
digits.  Where a date of the page is this time, for the metadata are silent about it, it is written with the offset zero, and
in the record of times with a `Z`.  Either text is read back as that instant, to the nanosecond and without an offset. -/
theorem ContentFile.context_times_reread (f : ContentFile) (globals : Fields) (now : Moment) :
    (∀ name m, (name, m) ∈ [("published", f.stat.birth), ("updated", f.stat.modified)] → m.IsUniversal →
      Table.get? f.metadata name ∈ silent →
      Table.get? (f.context globals) name = some (.text (m.dateTimeText ++ "+00:00")) ∧
      IsReadAs now (.text (m.dateTimeText ++ "+00:00")) m) ∧
    ∃ stats, Table.get? (f.context globals) "stats" = some (.object stats) ∧
      ∀ name m, (name, m) ∈ [("birthtime", f.stat.birth), ("mtime", f.stat.modified), ("atime", f.stat.accessed),
        ("ctime", f.stat.changed)] → m.IsUniversal →
        Table.get? stats name = some (.text (m.dateTimeText ++ "Z")) ∧ IsReadAs now (.text (m.dateTimeText ++ "Z")) m := by
  refine ⟨fun name m hdate hm hsilent => ⟨?_, hm.isReadAs Moment.zoneText_zero now⟩, f.stat.fields, ?_, ?_⟩
  · rw [f.context_date globals hdate, if_pos (saysNothing_iff.2 hsilent), Moment.rfc3339_eq hm.offset]
  · exact (f.context_own globals).2.1
  · intro name m htime hm
    refine ⟨?_, hm.isReadAs Moment.zoneText_zulu now⟩
    rw [← Moment.rfc3339Zulu_eq hm.offset, FileStat.fields_eq]
    simp only [List.mem_cons, List.not_mem_nil, or_false, Prod.mk.injEq] at htime
    rcases htime with ⟨rfl, rfl⟩ | ⟨rfl, rfl⟩ | ⟨rfl, rfl⟩ | ⟨rfl, rfl⟩ <;> simp [Table.get?]

/-- Half past a leap second, a nanosecond in the year zero, and the last millisecond of the year 9999. -/
theorem ContentFile.context_times_reread_edges :
    let f : ContentFile := ⟨.ofText "a.html", .absent, some [("published", .bool false)],
      ⟨⟨1483228799, 1500000000, 0⟩, ⟨-62167219200, 1, 0⟩, ⟨253402300799, 999000000, 0⟩, .epoch, 0⟩⟩
    Table.get? (f.context []) "published" = some (.text "2016-12-31T23:59:60.500+00:00") ∧
    Calendar.ofDatum .epoch (.text "2016-12-31T23:59:60.500+00:00") = .ok ⟨1483228799, 1500000000, 0⟩ ∧
    ∃ stats, Table.get? (f.context []) "stats" = some (.object stats) ∧
      Table.get? stats "mtime" = some (.text "0000-01-01T00:00:00.000000001Z") ∧
      Calendar.ofDatum .epoch (.text "0000-01-01T00:00:00.000000001Z") = .ok ⟨-62167219200, 1, 0⟩ ∧
      Table.get? stats "atime" = some (.text "9999-12-31T23:59:59.999Z") ∧
      Calendar.ofDatum .epoch (.text "9999-12-31T23:59:59.999Z") = .ok ⟨253402300799, 999000000, 0⟩ := by
  intro f
  obtain ⟨hdates, stats, hstats, htimes⟩ := context_times_reread f [] .epoch
  have hleap : Moment.IsUniversal ⟨1483228799, 1500000000, 0⟩ := by constructor <;> decide +kernel
  have hfirst : Moment.IsUniversal ⟨-62167219200, 1, 0⟩ := by constructor <;> decide +kernel
  have hlast : Moment.IsUniversal ⟨253402300799, 999000000, 0⟩ := by constructor <;> decide +kernel
  have hleapText : Moment.dateTimeText ⟨1483228799, 1500000000, 0⟩ ++ "+00:00" = "2016-12-31T23:59:60.500+00:00" := by
    decide +kernel
  have hfirstText : Moment.dateTimeText ⟨-62167219200, 1, 0⟩ ++ "Z" = "0000-01-01T00:00:00.000000001Z" := by
    decide +kernel
  have hlastText : Moment.dateTimeText ⟨253402300799, 999000000, 0⟩ ++ "Z" = "9999-12-31T23:59:59.999Z" := by
    decide +kernel
  obtain ⟨hpublished, hreadPublished⟩ := hdates "published" _ List.mem_cons_self hleap
    (by simp [f, metadata, Table.get?, silent])
  obtain ⟨hmtime, hreadMtime⟩ := htimes "mtime" _ (by simp [f]) hfirst
  obtain ⟨hatime, hreadAtime⟩ := htimes "atime" _ (by simp [f]) hlast
  rw [hleapText] at hpublished hreadPublished
  rw [hfirstText] at hmtime hreadMtime
  rw [hlastText] at hatime hreadAtime
  exact ⟨hpublished, hreadPublished.eq_ok (.inr (by decide)), stats, hstats, hmtime, hreadMtime.eq_ok (.inl (by decide)),
    hatime, hreadAtime.eq_ok (.inl (by decide))⟩

end Folio
