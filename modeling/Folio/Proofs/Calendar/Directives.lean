import Folio.Proofs.Calendar.Formats
import Folio.Proofs.Calendar.Masking
import Folio.Proofs.Calendar.Stamps
/-!
# Masks and patterns

Fourteen parts of a date are written by a token of a mask and by a directive of a pattern (`Part`).  A text of such parts with
separators between is read piece by piece in both languages (`tokens_fill`, `directives_fill`), and a part has the same text
in both, but for an offset with seconds: a mask leaves them out and a pattern rounds them to the minute.  No date that is
read has such an offset (`masks_agree_with_patterns`).
-/
namespace Folio.Calendar

/-- A part of a date that a mask and a pattern can ask for. -/
inductive Part where
  | longYear | shortYear | month | shortMonth | longMonth | day | shortDay | longDay | hour | dialHour | minute | second
  | halfDay | offset
deriving DecidableEq, Repr

namespace Part

def mask : Part → String
  | .longYear => "yyyy" | .shortYear => "yy"
  | .month => "mm" | .shortMonth => "mmm" | .longMonth => "mmmm"
  | .day => "dd" | .shortDay => "ddd" | .longDay => "dddd"
  | .hour => "HH" | .dialHour => "hh" | .minute => "MM" | .second => "ss" | .halfDay => "TT" | .offset => "o"

def pattern : Part → String
  | .longYear => "%Y" | .shortYear => "%y"
  | .month => "%m" | .shortMonth => "%b" | .longMonth => "%B"
  | .day => "%d" | .shortDay => "%a" | .longDay => "%A"
  | .hour => "%H" | .dialHour => "%I" | .minute => "%M" | .second => "%S" | .halfDay => "%p" | .offset => "%z"

def token : Part → Token
  | .longYear => .longYear | .shortYear => .shortYear
  | .month => .month 2 | .shortMonth => .month 3 | .longMonth => .month 4
  | .day => .day 2 | .shortDay => .day 3 | .longDay => .day 4
  | .hour => .hour true | .dialHour => .dialHour true | .minute => .minute true | .second => .second true
  | .halfDay => .halfDay true true | .offset => .offset false

def directive : Part → Directive
  | .longYear => .number .year .zeros | .shortYear => .number .yearOfCentury .zeros
  | .month => .number .month .zeros | .shortMonth => .shortMonth | .longMonth => .longMonth
  | .day => .number .day .zeros | .shortDay => .shortDay | .longDay => .longDay
  | .hour => .number .hour .zeros | .dialHour => .number .dialHour .zeros | .minute => .number .minute .zeros
  | .second => .number .second .zeros | .halfDay => .halfDay true | .offset => .offset false

end Part

/-- What neither language gives a meaning to: no letter, no quote and no percent sign. -/
def isSeparator (c : Char) : Bool := !c.isAlpha && c != '\'' && c != '"' && c != '%'

/-- A part, and what follows it. -/
structure Piece where
  part : Part
  separator : String
  filled : separator.toList ≠ []
  separates : separator.toList.all isSeparator = true

theorem Piece.isSeparator {p : Piece} {c : Char} (h : c ∈ p.separator.toList) : isSeparator c = true :=
  List.all_eq_true.1 p.separates c h

/-- Pieces with a text in each part's place. -/
def fill (text : Part → String) (ps : List Piece) : String := String.join (ps.map fun p => text p.part ++ p.separator)

theorem fill_toList (text : Part → String) (ps : List Piece) :
    (fill text ps).toList = ps.flatMap fun p => (text p.part).toList ++ p.separator.toList := by
  simp [fill, String.toList_join, List.flatMap_map]

theorem fill_cons (text : Part → String) (p : Piece) (ps : List Piece) :
    (fill text (p :: ps)).toList = (text p.part).toList ++ (p.separator.toList ++ (fill text ps).toList) := by
  rw [fill_toList, fill_toList, List.flatMap_cons, List.append_assoc]

/-! ## Separators -/

section
variable {c : Char} {cs : List Char}

theorem of_isSeparator (h : isSeparator c = true) : c.isAlpha = false ∧ ¬ IsQuote c ∧ c ≠ '%' := by
  simp only [isSeparator, Bool.and_eq_true, Bool.not_eq_true', bne_iff_ne] at h
  exact ⟨h.1.1.1, fun hquote => hquote.elim h.1.1.2 h.1.2, h.2⟩

theorem not_isQuote_of_isAlpha (h : c.isAlpha = true) : ¬ IsQuote c := by
  rintro (rfl | rfl) <;> cases h

theorem openQuote_eq_none (h : ∀ c ∈ cs, ¬ IsQuote c) : openQuote cs = none := by
  induction cs with
  | nil => rfl
  | cons c cs ih => rw [openQuote_cons (h c List.mem_cons_self), ih fun d hd => h d (List.mem_cons_of_mem c hd)]

theorem isAlpha_of_ofRun {n : Nat} {t : Token} (h : Token.ofRun c n = some t) : c.isAlpha = true := by
  have hall : ∀ e ∈ tokenRuns, e.1.isAlpha = true := by decide
  exact hall (c, n, t) (mem_tokenRuns_iff.2 h)

theorem front_separator (h : isSeparator c = true) (cs : List Char) : Token.front c cs = (.literal [c], 1) := by
  have hnone : Token.longest? c (run c 4 (c :: cs)) = none := by
    rw [Option.eq_none_iff_forall_ne_some]
    rintro ⟨t, n⟩ ht
    have hletter := isAlpha_of_ofRun (longest?_eq_some ht).1
    rw [(of_isSeparator h).1] at hletter
    cases hletter
  unfold Token.front
  rw [if_neg fun hquote => (of_isSeparator h).2.1 hquote.1, hnone]
  rfl

theorem tokens_separators (h : ∀ c ∈ cs, isSeparator c = true) : tokens cs = cs.map fun c => .literal [c] := by
  induction cs with
  | nil => rw [tokens, List.map_nil]
  | cons c cs ih =>
    rw [tokens, front_separator (h c List.mem_cons_self)]
    dsimp only
    rw [Nat.sub_self, List.drop_zero, ih fun d hd => h d (List.mem_cons_of_mem c hd), List.map_cons]

theorem directives_separators (h : ∀ c ∈ cs, isSeparator c = true) (fuel : Nat) (rest : List Char) :
    directives (cs.length + fuel) (cs ++ rest) = (directives fuel rest).map (cs.map Directive.literal ++ ·) := by
  induction cs with
  | nil => simp
  | cons c cs ih =>
    have hpercent := (of_isSeparator (h c List.mem_cons_self)).2.2
    have hstep : directives (cs.length + fuel + 1) (c :: (cs ++ rest)) =
        (directives (cs.length + fuel) (cs ++ rest)).map (.literal c :: ·) := by
      rw [directives]
      exact hpercent
    rw [List.cons_append, List.length_cons, Nat.add_right_comm, hstep, ih fun d hd => h d (List.mem_cons_of_mem c hd),
      Option.map_map]
    rfl

end

/-! ## Pieces -/

theorem Part.letters_mask (p : Part) : p.mask.toList ≠ [] ∧ ∀ c ∈ p.mask.toList, c.isAlpha = true :=
  ⟨by cases p <;> decide, List.all_eq_true.1 (by cases p <;> decide)⟩

theorem Part.tokens_mask (p : Part) : tokens p.mask.toList = [p.token] := by cases p <;> decide +kernel

/-- A directive is told by the letter behind the percent sign. -/
theorem Part.directives_pattern (p : Part) (fuel : Nat) (rest : List Char) :
    directives (fuel + 1) (p.pattern.toList ++ rest) = (directives fuel rest).map (p.directive :: ·) := by
  cases p <;> rfl

theorem head?_fill_mask (ps : List Piece) : ∀ c ∈ (fill Part.mask ps).toList.head?, c.isAlpha = true := by
  cases ps with
  | nil => intro c hc; cases hc
  | cons p ps =>
    obtain ⟨hne, hletters⟩ := p.part.letters_mask
    intro c hc
    rw [fill_cons, List.head?_append_of_ne_nil _ hne] at hc
    exact hletters c (List.mem_of_mem_head? hc)

/-- **A mask of pieces is read piece by piece**: a separator stands between two runs of letters. -/
theorem tokens_fill (ps : List Piece) : tokens (fill Part.mask ps).toList =
    ps.flatMap fun p => p.part.token :: p.separator.toList.map fun c => .literal [c] := by
  induction ps with
  | nil => rw [show (fill Part.mask []).toList = [] from rfl, tokens, List.flatMap_nil]
  | cons p ps ih =>
    obtain ⟨hne, hletters⟩ := p.part.letters_mask
    have hback := head?_fill_mask ps
    have hclosed : openQuote p.part.mask.toList = none ∧ openQuote p.separator.toList = none :=
      ⟨openQuote_eq_none fun c hc => not_isQuote_of_isAlpha (hletters c hc),
        openQuote_eq_none fun c hc => (of_isSeparator (p.isSeparator hc)).2.1⟩
    rw [fill_cons, tokens_append _ hclosed.1, tokens_append _ hclosed.2, p.part.tokens_mask,
      tokens_separators fun _ => p.isSeparator, ih, List.flatMap_cons, List.cons_append, List.nil_append, List.cons_append]
    -- No letter goes on across a separator: not from one piece to the next, and not from a part to what follows it.
    · intro c hc hhead
      have hletter := hback c hhead
      rw [(of_isSeparator (p.isSeparator (List.mem_of_getLast? hc))).1] at hletter
      cases hletter
    · intro c hc hhead
      have hletter := hletters c (List.mem_of_getLast? hc)
      rw [List.head?_append_of_ne_nil _ p.filled] at hhead
      rw [(of_isSeparator (p.isSeparator (List.mem_of_mem_head? hhead))).1] at hletter
      cases hletter

/-- **A pattern of pieces is read piece by piece.** -/
theorem directives_fill (ps : List Piece) {fuel : Nat} (hfuel : (fill Part.pattern ps).toList.length ≤ fuel) :
    directives fuel (fill Part.pattern ps).toList =
      some (ps.flatMap fun p => p.part.directive :: p.separator.toList.map .literal) := by
  induction ps generalizing fuel with
  | nil => cases fuel <;> rfl
  | cons p ps ih =>
    -- A directive has two characters and takes one step.
    have hlength : p.part.pattern.toList.length = 2 := by cases p.part <;> rfl
    rw [fill_cons, List.length_append, List.length_append, hlength] at hfuel
    obtain ⟨fuel, rfl⟩ := Nat.exists_eq_add_of_le (by omega : p.separator.toList.length + 1 ≤ fuel)
    rw [fill_cons, Nat.add_right_comm, p.part.directives_pattern, directives_separators fun _ => p.isSeparator,
      ih (by omega)]
    simp

/-! ## Formats -/

theorem namedMask?_fill (text : Part → String) {ps : List Piece} (hne : ps ≠ []) :
    (namedMask? (fill text ps)).getD (fill text ps) = fill text ps := by
  obtain ⟨p, ps, rfl⟩ := List.exists_cons_of_ne_nil hne
  obtain ⟨c, hc⟩ := List.exists_mem_of_ne_nil _ p.filled
  have hmem : c ∈ (fill text (p :: ps)).toList := by
    rw [fill_cons]
    exact List.mem_append_right _ (List.mem_append_left _ hc)
  rw [namedMask?_eq_none hmem (of_isSeparator (p.isSeparator hc)).1, Option.getD_none]

theorem percent_not_mem_fill (ps : List Piece) : '%' ∉ (fill Part.mask ps).toList := by
  rw [fill_toList]
  intro hmem
  obtain ⟨p, -, hmem⟩ := List.mem_flatMap.1 hmem
  rcases List.mem_append.1 hmem with hmem | hmem
  · exact absurd (p.part.letters_mask.2 '%' hmem) (by decide)
  · exact (of_isSeparator (p.isSeparator hmem)).2.2 rfl

/-- No part is asked for by the letters that ask for universal time. -/
theorem universalRequest_fill (ps : List Piece) :
    universalRequest (fill Part.mask ps).toList = (false, (fill Part.mask ps).toList) := by
  cases ps with
  | nil => rfl
  | cons p ps =>
    rw [fill_cons]
    cases p.part <;> rfl

section
variable (m : Moment) {ps : List Piece} (hne : ps ≠ [])
include hne

theorem format_fill_mask : format m (fill Part.mask ps) = .ok (fill (fun p => p.token.text false m) ps) := by
  have hpercent : (fill Part.mask ps).toList.contains '%' = false := by simpa using percent_not_mem_fill ps
  rw [format_of_mask m _ (namedMask?_fill Part.mask hne) hpercent (universalRequest_fill ps)]
  congr 1
  apply String.toList_inj.1
  rw [toList_applyMask (tokens_fill ps), fill_toList, List.flatMap_assoc]
  congr 1
  funext p
  have hliteral : ∀ c, ((Token.literal [c]).text false m).toList = [c] := fun c => String.toList_ofList
  simp [List.flatMap_map, hliteral]

theorem format_fill_pattern : format m (fill Part.pattern ps) = .ok (fill (fun p => p.directive.text m) ps) := by
  have hpercent : (fill Part.pattern ps).toList.contains '%' = true := by
    obtain ⟨p, ps, rfl⟩ := List.exists_cons_of_ne_nil hne
    rw [fill_cons]
    cases p.part <;> simp [Part.pattern]
  unfold format applyPattern
  dsimp only
  rw [namedMask?_fill Part.pattern hne, hpercent, if_pos rfl, directives_fill ps (le_refl _), Option.map_some]
  dsimp only
  congr 1
  apply String.toList_inj.1
  rw [String.toList_join, List.flatMap_map, fill_toList, List.flatMap_assoc]
  congr 1
  funext p
  have hliteral : ∀ c, ((Directive.literal c).text m).toList = [c] := String.toList_singleton
  simp [List.flatMap_map, hliteral]

end

/-! ## Texts of parts -/

/-- A mask leaves the seconds of an offset out, and a pattern rounds them to the minute. -/
theorem offset_texts (m : Moment) :
    Part.offset.token.text false m = signedMinutes "" (m.offset < 0) (m.offset.natAbs / 60) ∧
    Part.offset.directive.text m = signedMinutes "" (m.offset < 0) ((m.offset.natAbs + 30) / 60) := by
  refine ⟨minuteOffset_eq false m.offset, ?_⟩
  show Moment.offsetText "" m.offset = _
  simp [Moment.offsetText, Moment.twoDigits, signedMinutes]

section
variable {m : Moment}

/-- **A part has one text in both languages**, unless it is the offset. -/
theorem Part.text_eq (hyear : 0 ≤ m.date.year ∧ m.date.year ≤ 9999) (hleap : m.nanos < nanosPerSecond) {p : Part}
    (hp : p ≠ .offset) : p.token.text false m = p.directive.text m := by
  cases p with
  | longYear =>
    show Number.padded 4 m.date.year = fillYear .zeros m.date.year
    rw [fillYear, if_pos (by omega)]
    rfl
  | second =>
    have hsecond : m.fullSecond = m.second := by rw [Moment.fullSecond, Nat.div_eq_of_lt hleap, Nat.add_zero]
    show Number.padded 2 m.second = Number.padded 2 m.fullSecond
    rw [hsecond]
  | halfDay =>
    show halfDayText m.isAfternoon true true = if m.isAfternoon then _ else _
    cases m.isAfternoon <;> rfl
  | offset => exact absurd rfl hp
  | _ => rfl

section
variable (hoffset : -daySeconds < m.offset ∧ m.offset < daySeconds)
include hoffset

theorem Part.offset_text_eq_iff :
    Part.offset.token.text false m = Part.offset.directive.text m ↔ m.offset.natAbs % 60 < 30 := by
  unfold daySeconds at hoffset
  rw [(offset_texts m).1, (offset_texts m).2, signedMinutes_inj (by omega) (by omega)]
  omega

theorem Part.text_length (hyear : 0 ≤ m.date.year ∧ m.date.year ≤ 9999) (hleap : m.nanos < nanosPerSecond) (p : Part) :
    (p.token.text false m).toList.length = (p.directive.text m).toList.length := by
  unfold daySeconds at hoffset
  by_cases hp : p = .offset
  · rw [hp, (offset_texts m).1, (offset_texts m).2, signedMinutes_length (by omega), signedMinutes_length (by omega)]
  · rw [p.text_eq hyear hleap hp]

end
end

theorem fill_eq_iff {text text' : Part → String} (hlength : ∀ p, (text p).toList.length = (text' p).toList.length)
    (ps : List Piece) : fill text ps = fill text' ps ↔ ∀ p ∈ ps, text p.part = text' p.part := by
  induction ps with
  | nil => exact ⟨fun _ => List.forall_mem_nil _, fun _ => rfl⟩
  | cons p ps ih =>
    rw [List.forall_mem_cons, ← ih, ← String.toList_inj, ← String.toList_inj, ← String.toList_inj, fill_cons, fill_cons]
    constructor
    · intro heq
      obtain ⟨hpart, hrest⟩ := List.append_inj heq (hlength p.part)
      exact ⟨hpart, List.append_cancel_left hrest⟩
    · rintro ⟨hpart, hrest⟩
      rw [hpart, hrest]

/-- **Masks and patterns agree.**  Take a date in the years 0 to 9999 that is no leap second, and one or more parts with
separators behind them.  The mask of the parts and the pattern of the parts are both formats; of a date that is read they
write the same.  In general they do so unless the offset is among the parts and its seconds round it to the next minute. -/
theorem masks_agree_with_patterns {m : Moment} (hyear : 0 ≤ m.date.year ∧ m.date.year ≤ 9999)
    (hleap : m.nanos < nanosPerSecond) {ps : List Piece} (hne : ps ≠ []) :
    ∃ masked patterned, format m (fill Part.mask ps) = .ok masked ∧ format m (fill Part.pattern ps) = .ok patterned ∧
      (∀ now value, now.offset = 0 → ofDatum now value = .ok m → masked = patterned) ∧
      (-daySeconds < m.offset → m.offset < daySeconds →
        (masked = patterned ↔ (∀ p ∈ ps, p.part ≠ .offset) ∨ m.offset.natAbs % 60 < 30)) := by
  have hiff : -daySeconds < m.offset → m.offset < daySeconds →
      (fill (fun p => p.token.text false m) ps = fill (fun p => p.directive.text m) ps ↔
        (∀ p ∈ ps, p.part ≠ .offset) ∨ m.offset.natAbs % 60 < 30) := by
    intro hfirst hlast
    rw [fill_eq_iff (Part.text_length ⟨hfirst, hlast⟩ hyear hleap)]
    by_cases hseconds : m.offset.natAbs % 60 < 30
    · have hall : ∀ p : Part, p.token.text false m = p.directive.text m := by
        intro p
        by_cases hp : p = .offset
        · rw [hp]
          exact (Part.offset_text_eq_iff ⟨hfirst, hlast⟩).2 hseconds
        · exact p.text_eq hyear hleap hp
      exact ⟨fun _ => .inr hseconds, fun _ p _ => hall p.part⟩
    · constructor
      · intro heq
        refine .inl fun p hp hoffset => hseconds ?_
        have hpart := heq p hp
        rw [hoffset] at hpart
        exact (Part.offset_text_eq_iff ⟨hfirst, hlast⟩).1 hpart
      · rintro (hnone | hseconds')
        · exact fun p hp => p.part.text_eq hyear hleap (hnone p hp)
        · exact absurd hseconds' hseconds
  refine ⟨_, _, format_fill_mask m hne, format_fill_pattern m hne, ?_, hiff⟩
  intro now value hnow hread
  -- Whole minutes leave no seconds to round.
  obtain ⟨hwhole, hfirst, hlast⟩ := hasReadOffset_of_ofDatum hnow hread
  exact (hiff hfirst hlast).2 (.inr (by omega))

/-- Five minutes after a midnight on the last day of a year, behind universal time by five hours and a half. -/
theorem masks_agree_with_patterns_midnight :
    ofDatum .epoch (.text "2023-12-31T00:05:09-05:30") = .ok ⟨1704000909, 0, -19800⟩ ∧
    ∃ text, format ⟨1704000909, 0, -19800⟩ "ddd, dd hh:MM TT - o." = .ok text ∧
      format ⟨1704000909, 0, -19800⟩ "%a, %d %I:%M %p - %z." = .ok text := by
  have hread : ofDatum .epoch (.text "2023-12-31T00:05:09-05:30") = .ok ⟨1704000909, 0, -19800⟩ :=
    ofDatum_of_text (by decide +kernel)
  let ps : List Piece := [⟨.shortDay, ", ", by decide, by decide⟩, ⟨.day, " ", by decide, by decide⟩,
    ⟨.dialHour, ":", by decide, by decide⟩, ⟨.minute, " ", by decide, by decide⟩, ⟨.halfDay, " - ", by decide, by decide⟩,
    ⟨.offset, ".", by decide, by decide⟩]
  have htexts : fill Part.mask ps = "ddd, dd hh:MM TT - o." ∧ fill Part.pattern ps = "%a, %d %I:%M %p - %z." := by
    decide +kernel
  obtain ⟨masked, patterned, hmask, hpattern, hsame, -⟩ :=
    @masks_agree_with_patterns ⟨1704000909, 0, -19800⟩ (by decide +kernel) (by decide) ps (List.cons_ne_nil _ _)
  rw [htexts.1] at hmask
  rw [htexts.2] at hpattern
  exact ⟨hread, masked, hmask, hsame .epoch _ rfl hread ▸ hpattern⟩

/-- **An offset with seconds is written in two ways.**  Of forty-five seconds the mask leaves out all and the pattern makes a
minute. -/
theorem masks_differ_at_seconds :
    let m : Moment := ⟨0, 0, 45⟩
    let ps : List Piece := [⟨.offset, ".", by decide, by decide⟩]
    (0 ≤ m.date.year ∧ m.date.year ≤ 9999) ∧ m.nanos < nanosPerSecond ∧
      (-daySeconds < m.offset ∧ m.offset < daySeconds) ∧ ps ≠ [] ∧
      format m (fill Part.mask ps) = .ok "+0000." ∧ format m (fill Part.pattern ps) = .ok "+0001." := by
  intro m ps
  have hne : ps ≠ [] := List.cons_ne_nil _ _
  have hmask : fill (fun p => p.token.text false m) ps = "+0000." := by decide +kernel
  have hpattern : fill (fun p => p.directive.text m) ps = "+0001." := by decide +kernel
  refine ⟨by decide +kernel, by decide, by decide, hne, ?_, ?_⟩
  · rw [format_fill_mask m hne, hmask]
  · rw [format_fill_pattern m hne, hpattern]

end Folio.Calendar
