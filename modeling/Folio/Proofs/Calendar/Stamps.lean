import Folio.Calendar.Reading
import Folio.Proofs.Number.Places
/-!
# Stamps

Numbers written in so many digits are read as these numbers, and whatever follows is left.  So a stamp, which is a date, a
time and an offset of such numbers, is read as the numbers that it is written with (`rfc3339?_writes`).  Whatever is read as
a date, a stamp or not, has an offset of whole minutes (`hasReadOffset_of_ofDatum`).
-/
namespace Folio.Calendar

open Number (Writes)

/-! ## Texts without blanks -/

/-- A text in which nothing is blank. -/
def Solid (cs : List Char) : Prop := ∀ c ∈ cs, Text.isBlank c = false

theorem Solid.append {cs ds : List Char} (h : Solid cs) (h' : Solid ds) : Solid (cs ++ ds) := fun c hc =>
  (List.mem_append.1 hc).elim (h c) (h' c)

theorem Solid.cons {c : Char} {cs : List Char} (hc : Text.isBlank c = false) (h : Solid cs) : Solid (c :: cs) := by
  intro d hd
  rcases List.mem_cons.1 hd with rfl | hd
  · exact hc
  · exact h d hd

theorem Solid.trimStart {cs : List Char} (h : Solid cs) : Text.trimStart cs = cs := by
  cases cs with
  | nil => rfl
  | cons c cs => exact List.dropWhile_cons_of_neg (by rw [h c List.mem_cons_self]; exact Bool.false_ne_true)

theorem Solid.trim {cs : List Char} (h : Solid cs) : Text.trim cs = cs := by
  have hreverse : Text.trimStart cs.reverse = cs.reverse := Solid.trimStart fun c hc => h c (List.mem_reverse.1 hc)
  unfold Text.trim
  rw [h.trimStart]
  exact (congrArg List.reverse hreverse).trans (List.reverse_reverse cs)

theorem isBlank_of_isDigit {c : Char} (h : c.isDigit = true) : Text.isBlank c = false := by
  have hrange := Char.isDigit_iff_toNat.1 h
  unfold Text.isBlank
  dsimp only
  grind

theorem trimStart_of_isDigit {c : Char} {cs : List Char} (h : c.isDigit = true) : Text.trimStart (c :: cs) = c :: cs :=
  List.dropWhile_cons_of_neg (by rw [isBlank_of_isDigit h]; exact Bool.false_ne_true)

theorem solid_writes {width n : Nat} {ds : List Char} (h : Writes width n ds) : Solid ds := fun c hc =>
  isBlank_of_isDigit (h.digits c hc)

theorem trimStart_writes {width n : Nat} {ds : List Char} (h : Writes width n ds) (hwidth : 0 < width) (rest : List Char) :
    Text.trimStart (ds ++ rest) = ds ++ rest := by
  obtain ⟨c, cs, rfl⟩ := List.exists_cons_of_length_pos (h.length ▸ hwidth)
  exact trimStart_of_isDigit (h.digits c List.mem_cons_self)

/-! ## Reading numbers and signs -/

section
variable {least most n : Nat} {ds : List Char} (h : Writes most n ds) (hleast : least ≤ most)
include h hleast

theorem digits_writes (rest : List Char) : digits least most (ds ++ rest) = some (n, rest) := by
  unfold digits
  dsimp only
  rw [h.takeWhile_take, h.value, if_neg (by rw [h.length]; omega), List.drop_left]

theorem digits_writes_end : digits least most ds = some (n, []) := by
  have hread := digits_writes h hleast []
  rwa [List.append_nil] at hread

end

theorem character_cons (c : Char) (cs : List Char) : character c (c :: cs) = some cs := if_pos rfl

/-- At most nine places after the point are so many digits of the second. -/
theorem fraction_writes {width n : Nat} {ds rest : List Char} (hwidth : 0 < width ∧ width ≤ 9) (h : Writes width n ds)
    (hrest : ∀ c ∈ rest.head?, c.isDigit = false) :
    fraction ('.' :: (ds ++ rest)) = some (n * Nat.pow 10 (9 - width), rest) := by
  have htail : ∀ k : Nat, (rest.take k).takeWhile Char.isDigit = [] ∧ rest.dropWhile Char.isDigit = rest := by
    intro k
    cases rest with
    | nil => simp
    | cons c cs =>
      have hc := hrest c rfl
      exact ⟨by cases k <;> simp [hc], by simp [hc]⟩
  have htake : ((ds ++ rest).take 9).takeWhile Char.isDigit = ds := by
    rw [List.take_append, List.take_of_length_le (by rw [h.length]; omega), List.takeWhile_append_of_pos h.digits,
      (htail _).1, List.append_nil]
  have hfilled : ds.isEmpty = false := by
    rw [List.isEmpty_eq_false_iff, ne_eq, List.eq_nil_iff_length_eq_zero, h.length]
    omega
  unfold fraction
  simp only [htake, hfilled, Bool.false_eq_true, if_false, h.value, h.length]
  rw [List.drop_left' h.length, (htail 0).2]

/-- How the offset of a clock is written: a letter for universal time, or a sign, hours and minutes. -/
inductive ZoneText : Int → List Char → Prop
  | universal : ZoneText 0 ['Z']
  | ahead {hours minutes : Nat} {hs ms : List Char} : Writes 2 hours hs → Writes 2 minutes ms → minutes < 60 →
      ZoneText (hours * 3600 + minutes * 60 : Nat) ('+' :: (hs ++ ':' :: ms))
  | behind {hours minutes : Nat} {hs ms : List Char} : Writes 2 hours hs → Writes 2 minutes ms → minutes < 60 →
      ZoneText (-(hours * 3600 + minutes * 60 : Nat)) ('-' :: (hs ++ ':' :: ms))

theorem ZoneText.solid {zone : Int} {cs : List Char} (h : ZoneText zone cs) : Solid cs := by
  cases h with
  | universal => exact .cons (by decide) fun _ hc => absurd hc List.not_mem_nil
  | ahead hh hm | behind hh hm =>
    exact .cons (by decide) ((solid_writes hh).append (.cons (by decide) (solid_writes hm)))

theorem ZoneText.head?_not_digit {zone : Int} {cs : List Char} (h : ZoneText zone cs) : ∀ c ∈ cs.head?, c.isDigit = false := by
  intro c hc
  cases h <;>
    · obtain rfl := Option.some.inj hc
      decide

/-! ## Stamps -/

section
variable {year month day hour minute second nanos : Nat} {zone : Int} {ys ms ds hs is ss rest after : List Char}
  (hyear : Writes 4 year ys) (hmonth : Writes 2 month ms) (hday : Writes 2 day ds) (hhour : Writes 2 hour hs)
  (hminute : Writes 2 minute is) (hsecond : Writes 2 second ss)
include hyear hmonth hday hhour hminute hsecond

/-- **A stamp is read as the numbers that it is written with.** -/
theorem rfc3339?_writes (hfraction : fraction rest = some (nanos, after)) (hzone : ZoneText zone after) :
    rfc3339? (ys ++ '-' :: (ms ++ '-' :: (ds ++ 'T' :: (hs ++ ':' :: (is ++ ':' :: (ss ++ rest)))))) =
      moment? ⟨year, month, day⟩ ⟨hour, minute, second, nanos⟩ zone := by
  unfold rfc3339?
  rw [digits_writes hyear (le_refl 4)]
  dsimp only [Option.bind_eq_bind, Option.bind_some]
  rw [character_cons, Option.bind_some, digits_writes hmonth (le_refl 2)]
  dsimp only [Option.bind_some]
  rw [character_cons, Option.bind_some, digits_writes hday (le_refl 2)]
  dsimp only [Option.bind_some]
  rw [if_pos (.inl rfl), digits_writes hhour (le_refl 2)]
  dsimp only [Option.bind_some]
  rw [character_cons, Option.bind_some, digits_writes hminute (le_refl 2)]
  dsimp only [Option.bind_some]
  rw [character_cons, Option.bind_some, digits_writes hsecond (le_refl 2)]
  dsimp only [Option.bind_some]
  rw [hfraction]
  cases hzone with
  | universal => rfl
  | ahead hhours hminutes hlt | behind hhours hminutes hlt =>
    simp [Calendar.offset, digits_writes hhours (le_refl 2), character_cons, digits_writes_end hminutes (le_refl 2),
      Nat.not_le.2 hlt]

/-- **A stamp without blanks is the date that its numbers make**, whatever the other forms would make of it. -/
theorem ofText?_writes {m : Moment} (hfraction : fraction rest = some (nanos, after)) (hzone : ZoneText zone after)
    (hsolid : Solid rest) (hm : moment? ⟨year, month, day⟩ ⟨hour, minute, second, nanos⟩ zone = some m) :
    ofText? (ys ++ '-' :: (ms ++ '-' :: (ds ++ 'T' :: (hs ++ ':' :: (is ++ ':' :: (ss ++ rest)))))) = some m := by
  have hread := rfc3339?_writes hyear hmonth hday hhour hminute hsecond hfraction hzone
  have htext := (solid_writes hminute).append (.cons (by decide : Text.isBlank ':' = false)
    ((solid_writes hsecond).append hsolid))
  have htime := (solid_writes hday).append (.cons (by decide : Text.isBlank 'T' = false)
    ((solid_writes hhour).append (.cons (by decide : Text.isBlank ':' = false) htext)))
  have hstamp := (solid_writes hyear).append (.cons (by decide : Text.isBlank '-' = false)
    ((solid_writes hmonth).append (.cons (by decide : Text.isBlank '-' = false) htime)))
  unfold ofText?
  dsimp only
  rw [hstamp.trim, hread, hm]
  rfl

end

/-! ## What is taken -/

section
variable {cs rest : List Char} {n : Nat}

theorem length_of_digits {least most : Nat} (h : digits least most cs = some (n, rest)) :
    rest.length + least ≤ cs.length := by
  unfold digits at h
  dsimp only at h
  split at h
  · cases h
  · rename_i hleast
    obtain ⟨-, rfl⟩ := Prod.mk.inj (Option.some.inj h)
    have htaken : ((cs.take most).takeWhile Char.isDigit).length ≤ cs.length :=
      (List.takeWhile_prefix _).length_le.trans (List.length_take_le' most cs)
    rw [List.length_drop]
    omega

theorem length_of_character {c : Char} (h : character c cs = some rest) : rest.length + 1 = cs.length := by
  unfold character at h
  split at h
  · split at h
    · rw [← Option.some.inj h, List.length_cons]
    · cases h
  · cases h

theorem length_of_fraction {nanos : Nat} (h : fraction cs = some (nanos, rest)) : rest.length ≤ cs.length := by
  unfold fraction at h
  split at h
  · rename_i cs
    dsimp only at h
    split at h
    · cases h
    · obtain ⟨-, rfl⟩ := Prod.mk.inj (Option.some.inj h)
      exact (List.dropWhile_suffix _).length_le.trans ((List.drop_suffix _ _).length_le.trans (Nat.le_succ _))
  · obtain ⟨-, rfl⟩ := Prod.mk.inj (Option.some.inj h)
    exact le_refl _

/-- **Offsets are whole minutes**, and a sign at least stands for one. -/
theorem of_offset {minusSign : Bool} {separator : List Char → Option (List Char)} {zone : Int}
    (h : offset minusSign separator cs = some (zone, rest)) : zone % 60 = 0 ∧ cs ≠ [] := by
  -- Hours and minutes behind a sign.
  have hread : ∀ (negative : Bool) (cs : List Char), ((digits 2 2 cs).bind fun hours => (separator hours.2).bind fun cs =>
      (digits 2 2 cs).bind fun minutes => if minutes.1 ≥ 60 then none else
        some (if negative then -((hours.1 : Int) * 3600 + minutes.1 * 60) else (hours.1 : Int) * 3600 + minutes.1 * 60,
          minutes.2)) = some (zone, rest) → zone % 60 = 0 := by
    intro negative cs h
    simp only [Option.bind_eq_some_iff] at h
    obtain ⟨hours, -, cs', -, minutes, -, h⟩ := h
    split at h
    · cases h
    · obtain ⟨rfl, -⟩ := Prod.mk.inj (Option.some.inj h)
      split <;> omega
  unfold offset at h
  simp only [Option.bind_eq_bind] at h
  split at h
  · exact ⟨hread false _ h, List.cons_ne_nil _ _⟩
  · exact ⟨hread true _ h, List.cons_ne_nil _ _⟩
  · split at h
    · exact ⟨hread true _ h, List.cons_ne_nil _ _⟩
    · cases h
  · cases h

theorem offset_of_moment? {date : Date} {clock : Clock} {zone : Int} {m : Moment} (h : moment? date clock zone = some m) :
    m.offset = zone ∧ -daySeconds < zone ∧ zone < daySeconds := by
  unfold moment? at h
  split at h
  · rename_i hexists
    obtain rfl := Option.some.inj h
    rw [Bool.and_eq_true, Bool.and_eq_true, decide_eq_true_eq, decide_eq_true_eq] at hexists
    exact ⟨rfl, hexists.1.2, hexists.2⟩
  · cases h

/-- Offsets that are read: whole minutes, and less than a day. -/
def Moment.HasReadOffset (m : Moment) : Prop := m.offset % 60 = 0 ∧ -daySeconds < m.offset ∧ m.offset < daySeconds

theorem hasReadOffset_of_moment? {date : Date} {clock : Clock} {zone : Int} {m : Moment}
    (h : moment? date clock zone = some m) (hzone : zone % 60 = 0) : m.HasReadOffset := by
  obtain ⟨rfl, hrange⟩ := offset_of_moment? h
  exact ⟨hzone, hrange⟩

/-- **A stamp has twenty characters at least**, an offset among them. -/
theorem of_rfc3339? {m : Moment} (h : rfc3339? cs = some m) : 20 ≤ cs.length ∧ m.HasReadOffset := by
  unfold rfc3339? at h
  dsimp only [Option.bind_eq_bind] at h
  obtain ⟨⟨year, cs₁⟩, hyear, h⟩ := Option.bind_eq_some_iff.1 h
  obtain ⟨cs₂, hdash, h⟩ := Option.bind_eq_some_iff.1 h
  obtain ⟨⟨month, cs₃⟩, hmonth, h⟩ := Option.bind_eq_some_iff.1 h
  obtain ⟨cs₄, hdash', h⟩ := Option.bind_eq_some_iff.1 h
  obtain ⟨⟨day, cs₅⟩, hday, h⟩ := Option.bind_eq_some_iff.1 h
  have hdate : cs₅.length + 10 ≤ cs.length := by
    have hlengths := And.intro (length_of_digits hyear) (length_of_character hdash)
    have hlengths' := And.intro (length_of_digits hmonth) (length_of_character hdash')
    have hlength := length_of_digits hday
    dsimp only at hlengths hlengths' hlength
    omega
  clear hyear hdash hmonth hdash' hday
  cases cs₅ with
  | nil => cases h
  | cons c cs₆ =>
    dsimp only at h
    by_cases hletter : c = 'T' ∨ c = 't' ∨ c = ' '
    · rw [if_pos hletter, Option.bind_some] at h
      obtain ⟨⟨hour, cs₇⟩, hhour, h⟩ := Option.bind_eq_some_iff.1 h
      obtain ⟨cs₈, hcolon, h⟩ := Option.bind_eq_some_iff.1 h
      obtain ⟨⟨minute, cs₉⟩, hminute, h⟩ := Option.bind_eq_some_iff.1 h
      obtain ⟨cs₁₀, hcolon', h⟩ := Option.bind_eq_some_iff.1 h
      obtain ⟨⟨second, cs₁₁⟩, hsecond, h⟩ := Option.bind_eq_some_iff.1 h
      obtain ⟨⟨nanos, cs₁₂⟩, hfraction, h⟩ := Option.bind_eq_some_iff.1 h
      have hzone : cs₁₂ ≠ [] ∧ m.HasReadOffset := by
        dsimp only at h
        split at h
        · rw [Option.bind_some] at h
          split at h
          · exact ⟨List.cons_ne_nil _ _, hasReadOffset_of_moment? h rfl⟩
          · cases h
        · rw [Option.bind_some] at h
          split at h
          · exact ⟨List.cons_ne_nil _ _, hasReadOffset_of_moment? h rfl⟩
          · cases h
        · obtain ⟨⟨zone, cs₁₃⟩, hoffset, h⟩ := Option.bind_eq_some_iff.1 h
          obtain ⟨hwhole, hne⟩ := of_offset hoffset
          split at h
          · exact ⟨hne, hasReadOffset_of_moment? h hwhole⟩
          · cases h
      have hlengths := And.intro (length_of_digits hhour) (length_of_character hcolon)
      have hlengths' := And.intro (length_of_digits hminute) (length_of_character hcolon')
      have hlengths'' := And.intro (length_of_digits hsecond) (length_of_fraction hfraction)
      have hlast := List.length_pos_iff.2 hzone.1
      dsimp only at hlengths hlengths' hlengths''
      rw [List.length_cons] at hdate
      exact ⟨by omega, hzone.2⟩
    · rw [if_neg hletter] at h
      cases h

end

theorem of_zone {cs rest : List Char} {offset : Int} (h : zone cs = some (offset, rest)) : offset % 60 = 0 := by
  unfold zone at h
  dsimp only at h
  split at h
  · exact (of_offset h).1
  · obtain ⟨hours, -, heq⟩ := Option.map_eq_some_iff.1 h
    obtain ⟨rfl, -⟩ := Prod.mk.inj heq
    omega

theorem hasReadOffset_of_rfc2822? {cs : List Char} {m : Moment} (h : rfc2822? cs = some m) : m.HasReadOffset := by
  have hstep : ∀ {α : Type} {x : Option α} {f : α → Option Moment}, x.bind f = some m → ∃ a, f a = some m := fun h =>
    (Option.bind_eq_some_iff.1 h).imp fun _ => And.right
  unfold rfc2822? at h
  dsimp only [Option.bind_eq_bind] at h
  -- Each part is read or the text is no date; the name of the day may be missing, and so may the seconds.
  split at h
  all_goals
    iterate 10 obtain ⟨_, h⟩ := hstep h
    split at h
  all_goals
    iterate 2 obtain ⟨_, h⟩ := hstep h
    obtain ⟨offset, hzone, h⟩ := Option.bind_eq_some_iff.1 h
    split at h
    · cases h
    · split at h
      · cases h
      · exact hasReadOffset_of_moment? h (of_zone hzone)

theorem hasReadOffset_of_ofText? {cs : List Char} {m : Moment} (h : ofText? cs = some m) : m.HasReadOffset := by
  unfold ofText? at h
  dsimp only at h
  rcases Option.or_eq_some_iff.1 h with hstamp | ⟨-, h⟩
  · exact (of_rfc3339? hstamp).2
  rcases Option.or_eq_some_iff.1 h with hletter | ⟨-, h⟩
  · exact hasReadOffset_of_rfc2822? hletter
  obtain ⟨items, -, hform⟩ := List.exists_of_findSome?_eq_some h
  obtain ⟨f, -, hmoment⟩ := Option.bind_eq_some_iff.1 hform
  exact hasReadOffset_of_moment? hmoment rfl

theorem hasReadOffset_of_offset_zero {m : Moment} (h : m.offset = 0) : m.HasReadOffset := by
  rw [Moment.HasReadOffset, h]
  decide

theorem hasReadOffset_of_ofMillis {ms : Int} {m : Moment} (h : ofMillis ms = .ok m) : m.HasReadOffset := by
  unfold ofMillis Moment.ofMillis at h
  dsimp only at h
  by_cases hday : isSupportedDay (ms / 1000 / daySeconds) = true
  · rw [if_pos hday] at h
    obtain rfl := Except.ok.inj h
    exact hasReadOffset_of_offset_zero rfl
  · rw [if_neg hday] at h
    cases h

/-- **Every date that is read has such an offset**, if the current moment is told in universal time. -/
theorem hasReadOffset_of_ofDatum {now m : Moment} {value : Datum} (hnow : now.offset = 0) (h : ofDatum now value = .ok m) :
    m.HasReadOffset := by
  cases value with
  | null =>
    obtain rfl := Except.ok.inj h
    exact hasReadOffset_of_offset_zero hnow
  | int n | float x => exact hasReadOffset_of_ofMillis h
  | text s =>
    unfold ofDatum at h
    dsimp only at h
    split at h
    · rename_i heq
      obtain rfl := Except.ok.inj h
      exact hasReadOffset_of_ofText? heq
    · cases h
  | _ => cases h

theorem ofDatum_of_text {now m : Moment} {text : String} (h : ofText? text.toList = some m) :
    ofDatum now (.text text) = .ok m := by
  unfold ofDatum
  dsimp only
  rw [h]

end Folio.Calendar
