import Folio.Calendar.Moment
import Mathlib.Algebra.BigOperators.Intervals
import Mathlib.Algebra.BigOperators.Ring.Finset
import Mathlib.Tactic.IntervalCases
/-!
# Days and dates

A year begins where the one before it ends (`daysBeforeYear_succ`), and so does a month (`daysBeforeMonth_succ`).  Hence the
year that is found for a day is the year that the day lies in (`yearOfDay_spec`), its month is found in the same way
(`monthOfOrdinal_spec`), and the date of a day exists and has the number of that day (`dateOf_spec`).

The number of a day is what one counts by adding up the years, months and days before it (`dayNumber_eq_counted`).  What a
clock shows of a moment is a date and a time of day that together are the moment again (`ofClock_shown`).
-/
namespace Folio.Calendar

/-! ## Years -/

theorem isLeap_iff (year : Int) : isLeap year = true ↔ year % 4 = 0 ∧ (year % 100 ≠ 0 ∨ year % 400 = 0) := by
  simp [isLeap]

/-- Days of a year. -/
def daysInYear (year : Int) : Nat := if isLeap year then 366 else 365

theorem daysBeforeYear_succ (year : Int) : daysBeforeYear (year + 1) = daysBeforeYear year + daysInYear year := by
  have hleap := isLeap_iff year
  -- One more multiple of a number is reached in each year that is such a multiple.
  have hfour : year / 4 = (year - 1) / 4 + if year % 4 = 0 then 1 else 0 := by split <;> omega
  have hcentury : year / 100 = (year - 1) / 100 + if year % 100 = 0 then 1 else 0 := by split <;> omega
  have hcycle : year / 400 = (year - 1) / 400 + if year % 400 = 0 then 1 else 0 := by split <;> omega
  unfold daysBeforeYear daysInYear
  dsimp only
  rw [Int.add_sub_cancel]
  -- A multiple of 400 is one of 100, and a multiple of 100 is one of 4.
  by_cases h400 : year % 400 = 0
  · have h100 : year % 100 = 0 := by omega
    have h4 : year % 4 = 0 := by omega
    rw [if_pos h4] at hfour
    rw [if_pos h100] at hcentury
    rw [if_pos h400] at hcycle
    rw [if_pos (hleap.2 ⟨h4, .inr h400⟩)]
    omega
  · rw [if_neg h400] at hcycle
    by_cases h100 : year % 100 = 0
    · have h4 : year % 4 = 0 := by omega
      rw [if_pos h4] at hfour
      rw [if_pos h100] at hcentury
      rw [if_neg fun h => (hleap.1 h).2.elim (· h100) h400]
      omega
    · rw [if_neg h100] at hcentury
      by_cases h4 : year % 4 = 0
      · rw [if_pos h4] at hfour
        rw [if_pos (hleap.2 ⟨h4, .inl h100⟩)]
        omega
      · rw [if_neg h4] at hfour
        rw [if_neg fun h => h4 (hleap.1 h).1]
        omega

/-- **The year found for a day is the one that it lies in.** -/
theorem yearOfDay_spec (n : Int) :
    daysBeforeYear (yearOfDay n) ≤ n ∧ n < daysBeforeYear (yearOfDay n) + daysInYear (yearOfDay n) := by
  rw [← daysBeforeYear_succ]
  -- The mean length of a year gives a year that is at most one too far in either direction.
  have hbefore : daysBeforeYear (400 * n / 146097) ≤ n := by
    unfold daysBeforeYear
    dsimp only
    omega
  have hafter : n < daysBeforeYear (400 * n / 146097 + 1 + 1 + 1) := by
    unfold daysBeforeYear
    dsimp only
    omega
  unfold yearOfDay
  dsimp only
  split
  · rename_i h
    rw [Int.add_sub_cancel]
    exact ⟨hbefore, h⟩
  · rename_i h
    split
    · rename_i h'
      exact ⟨h', hafter⟩
    · rename_i h'
      exact ⟨by omega, by omega⟩

/-! ## Months -/

theorem daysBeforeMonth_succ (year : Int) {month : Nat} (hfirst : 1 ≤ month) (hlast : month ≤ 11) :
    daysBeforeMonth year (month + 1) = daysBeforeMonth year month + daysInMonth year month := by
  interval_cases month <;> simp only [daysBeforeMonth, daysBefore, daysInMonth] <;> cases isLeap year <;> rfl

theorem daysBeforeMonth_december (year : Int) : daysBeforeMonth year 12 + daysInMonth year 12 = daysInYear year := by
  simp only [daysBeforeMonth, daysBefore, daysInMonth, daysInYear]
  cases isLeap year <;> rfl

/-- **The month found for a day of a year is the one that it lies in.** -/
theorem monthOfOrdinal_spec (year : Int) (n : Nat) : ∀ month : Nat, 1 ≤ month → month ≤ 12 →
    n < daysBeforeMonth year month + daysInMonth year month →
    let found := monthOfOrdinal year n month
    1 ≤ found ∧ found ≤ 12 ∧ daysBeforeMonth year found ≤ n ∧ n < daysBeforeMonth year found + daysInMonth year found
  | month + 1, hfirst, hlast, hn => by
    unfold monthOfOrdinal
    dsimp only
    split
    · rename_i hle
      exact ⟨hfirst, hlast, hle, hn⟩
    · rename_i hlt
      have hpos : 1 ≤ month := by
        by_contra hzero
        obtain rfl : month = 0 := by omega
        have hstart : daysBeforeMonth year (0 + 1) = 0 := by simp [daysBeforeMonth, daysBefore]
        omega
      refine monthOfOrdinal_spec year n month hpos (by omega) ?_
      rw [← daysBeforeMonth_succ year hpos (by omega)]
      omega

/-! ## Dates -/

theorem Date.isValid_iff (d : Date) :
    d.isValid = true ↔ 1 ≤ d.month ∧ d.month ≤ 12 ∧ 1 ≤ d.day ∧ d.day ≤ daysInMonth d.year d.month := by
  simp [Date.isValid, and_assoc]

/-- **The date of a day exists and has the day's number.** -/
theorem dateOf_spec (number : Int) : (dateOf number).isValid = true ∧ (dateOf number).dayNumber = number := by
  obtain ⟨hstart, hend⟩ := yearOfDay_spec (number + epochDays)
  unfold dateOf
  dsimp only
  generalize yearOfDay (number + epochDays) = year at hstart hend ⊢
  generalize hrest : (number + epochDays - daysBeforeYear year).toNat = rest
  have hlt : rest < daysInYear year := by omega
  obtain ⟨hfirst, hlast, hle, hlt⟩ := monthOfOrdinal_spec year rest 12 (by omega) (by omega)
    (by rw [daysBeforeMonth_december]; exact hlt)
  generalize monthOfOrdinal year rest 12 = month at hfirst hlast hle hlt ⊢
  constructor
  · rw [Date.isValid_iff]
    exact ⟨hfirst, hlast, by dsimp only; omega, by dsimp only; omega⟩
  · unfold Date.dayNumber Date.ordinal
    dsimp only
    omega

/-- A date that exists lies in its year. -/
theorem Date.ordinal_bounds {d : Date} (h : d.isValid = true) : 1 ≤ d.ordinal ∧ d.ordinal ≤ daysInYear d.year := by
  obtain ⟨hfirst, hlast, hday, hdays⟩ := d.isValid_iff.1 h
  obtain ⟨year, month, day⟩ := d
  have hdecember := daysBeforeMonth_december year
  have hyear : daysBeforeMonth year month + daysInMonth year month ≤ daysInYear year := by
    dsimp only at hfirst hlast
    interval_cases month <;> simp only [daysBeforeMonth, daysBefore, daysInMonth, daysInYear] <;> cases isLeap year <;> decide
  dsimp only at hday hdays
  unfold Date.ordinal
  dsimp only
  omega

/-- Days of four-digit years lie in the range of moments. -/
theorem isSupportedDay_of_year {d : Date} (h : d.isValid = true) (hfirst : 0 ≤ d.year) (hlast : d.year ≤ 9999) :
    isSupportedDay d.dayNumber = true := by
  obtain ⟨hpos, hle⟩ := Date.ordinal_bounds h
  have hlength : daysInYear d.year ≤ 366 := by
    unfold daysInYear
    split <;> omega
  have hrange : (Date.mk firstYear 1 1).dayNumber ≤ -800000 ∧ 3000000 ≤ (Date.mk lastYear 12 31).dayNumber := by decide
  have hday : -800000 ≤ d.dayNumber ∧ d.dayNumber ≤ 3000000 := by
    unfold Date.dayNumber daysBeforeYear epochDays
    dsimp only
    omega
  unfold isSupportedDay
  rw [Bool.and_eq_true, decide_eq_true_eq, decide_eq_true_eq]
  omega

/-! ## Counting days -/

theorem daysBeforeYear_eq_sum (n : Nat) :
    daysBeforeYear n = daysBeforeYear 0 + ∑ year ∈ Finset.range n, (daysInYear year : Int) := by
  induction n with
  | zero => simp
  | succ n ih =>
    rw [Finset.sum_range_succ, Nat.cast_succ, daysBeforeYear_succ, ih]
    omega

theorem daysBeforeMonth_eq_sum (year : Int) {month : Nat} (hfirst : 1 ≤ month) (hlast : month ≤ 12) :
    daysBeforeMonth year month = ∑ m ∈ Finset.Ico 1 month, daysInMonth year m := by
  induction month, hfirst using Nat.le_induction with
  | base => simp [daysBeforeMonth, daysBefore]
  | succ month hpos ih => rw [Finset.sum_Ico_succ_top hpos, ← ih (by omega), daysBeforeMonth_succ year hpos (by omega)]

/-- Days from the start of 1970 to a date, in years, months and days. -/
def Date.counted (d : Date) : Int :=
  ∑ year ∈ Finset.range d.year.toNat, (daysInYear year : Int) - ∑ year ∈ Finset.range 1970, (daysInYear year : Int) +
    ∑ month ∈ Finset.Ico 1 d.month, (daysInMonth d.year month : Int) + (d.day - 1)

/-- **Days are numbered as one counts them.** -/
theorem Date.dayNumber_eq_counted {d : Date} (h : d.isValid = true) (hyear : 0 ≤ d.year) : d.dayNumber = d.counted := by
  obtain ⟨hfirst, hlast, -, -⟩ := d.isValid_iff.1 h
  have hmonth := daysBeforeMonth_eq_sum d.year hfirst hlast
  have hyears := daysBeforeYear_eq_sum d.year.toNat
  have hepoch := daysBeforeYear_eq_sum 1970
  have hstart : daysBeforeYear (1970 : Nat) = epochDays := by decide
  rw [Int.toNat_of_nonneg hyear] at hyears
  unfold Date.dayNumber Date.ordinal Date.counted
  rw [hmonth, hyears]
  push_cast
  omega

/-! ## Clocks -/

namespace Moment

variable (m : Moment)

theorem isValid_date : m.date.isValid = true := (dateOf_spec m.dayNumber).1

theorem dayNumber_date : m.date.dayNumber = m.dayNumber := (dateOf_spec m.dayNumber).2

theorem hour_lt : m.hour < 24 := by
  unfold hour secondOfDay daySeconds
  omega

theorem minute_lt : m.minute < 60 := Nat.mod_lt _ (by decide)

theorem second_lt : m.second < 60 := Nat.mod_lt _ (by decide)

/-- **What a clock shows is the moment again**, with other nanoseconds if these are others. -/
theorem ofClock_shown (nanos : Nat) :
    ofClock m.date ⟨m.hour, m.minute, m.second, nanos⟩ m.offset = { m with nanos := nanos } := by
  have hsecond := m.second_lt
  unfold ofClock
  rw [dayNumber_date]
  have hleap : (m.second == 60) = false := beq_false_of_ne (by omega)
  dsimp only
  rw [hleap]
  obtain ⟨seconds, _, offset⟩ := m
  refine Moment.mk.injEq .. |>.mpr ⟨?_, rfl, rfl⟩
  unfold dayNumber hour minute second secondOfDay localSeconds daySeconds
  dsimp only
  simp only [Bool.false_eq_true, if_false]
  omega

end Moment
end Folio.Calendar
