import Folio.Calendar.Mask
import Mathlib.Data.List.Basic
import Mathlib.Tactic.IntervalCases
/-!
# A mask is read by its longest tokens

A mask is cut from left to right: at each place the longest stretch that stands for something is cut off, a token of the table
(`documented`) or a quoted stretch, and where no such stretch begins a single character that stands for itself (`Cuts`).
There is one way to do so, it uses up every character, and the texts of the pieces make the output.  A place sees what
follows only as far as its own token goes on, so a mask may be cut in two wherever no quote is open and no letter is
repeated across the cut (`mask_longest_tokens`).

What the reader does at a place is said once (`front_cases`).
-/
namespace Folio.Calendar

/-! ## The tokens of a mask -/

/-- The table of tokens, with the texts that they stand for. -/
def documented (universal : Bool) (m : Moment) : List (String × String) :=
  [("d", toString m.date.day), ("dd", Number.padded 2 m.date.day),
    ("ddd", short (dayName m.weekday)), ("dddd", dayName m.weekday),
    ("m", toString m.date.month), ("mm", Number.padded 2 m.date.month),
    ("mmm", short (monthName m.date.month)), ("mmmm", monthName m.date.month),
    ("yy", Number.padded 2 (m.date.year % 100)), ("yyyy", Number.padded 4 m.date.year),
    ("h", toString m.dialHour), ("hh", Number.padded 2 m.dialHour),
    ("H", toString m.hour), ("HH", Number.padded 2 m.hour),
    ("M", toString m.minute), ("MM", Number.padded 2 m.minute),
    ("s", toString m.second), ("ss", Number.padded 2 m.second),
    ("l", Number.padded 3 (millisOf m)), ("L", Number.padded 2 (millisOf m / 10 : Nat)),
    ("t", if m.isAfternoon then "p" else "a"), ("tt", if m.isAfternoon then "pm" else "am"),
    ("T", if m.isAfternoon then "P" else "A"), ("TT", if m.isAfternoon then "PM" else "AM"),
    ("o", minuteOffset false m.offset), ("p", minuteOffset true m.offset),
    ("S", ordinalSuffix m.date.day),
    ("Z", if universal || m.offset == 0 then "UTC" else "GMT" ++ minuteOffset false m.offset),
    ("N", toString (m.weekday + 1)),
    ("W", toString (isoWeek m.date).2), ("WW", Number.padded 2 (isoWeek m.date).2)]

def IsQuote (c : Char) : Prop := c = '\'' ∨ c = '"'

/-- A stretch that stands for something: a token of the table, or what is between two quotes of one kind. -/
inductive Stands (universal : Bool) (m : Moment) : List Char → String → Prop where
  | token {letters text : String} (h : (letters, text) ∈ documented universal m) :
    Stands universal m letters.toList text
  | quoted {quote : Char} {inside : List Char} (hquote : IsQuote quote) (hinside : quote ∉ inside) :
    Stands universal m (quote :: (inside ++ [quote])) (String.ofList inside)

/-- What is cut off at the front of a mask: the longest stretch that stands for something, or a character where no such
stretch begins. -/
inductive Front (universal : Bool) (m : Moment) : List Char → List Char → String → Prop where
  | token {mask lexeme : List Char} {text : String} (stands : Stands universal m lexeme text)
      (first : lexeme <+: mask)
      (longest : ∀ other text', Stands universal m other text' → other <+: mask → other.length ≤ lexeme.length) :
    Front universal m mask lexeme text
  | itself {c : Char} {cs : List Char} (none : ∀ other text', Stands universal m other text' → ¬ other <+: c :: cs) :
    Front universal m (c :: cs) [c] (String.ofList [c])

/-- A mask cut into pieces from left to right. -/
inductive Cuts (universal : Bool) (m : Moment) : List Char → List (List Char × String) → Prop where
  | nil : Cuts universal m [] []
  | cons {mask lexeme rest : List Char} {text : String} {pieces : List (List Char × String)}
      (front : Front universal m mask lexeme text) (split : mask = lexeme ++ rest) (others : Cuts universal m rest pieces) :
    Cuts universal m mask ((lexeme, text) :: pieces)

/-- The quote that is open behind a character. -/
def quoteAfter (open? : Option Char) (c : Char) : Option Char :=
  match open? with
  | some quote => if c = quote then none else some quote
  | none => if c = '\'' ∨ c = '"' then some c else none

/-- The quote that is open at the end of a mask. -/
def openQuote (mask : List Char) : Option Char := mask.foldl quoteAfter none

variable {universal : Bool} {m : Moment} {c : Char} {cs : List Char} {n : Nat} {t : Token}

/-! ## Runs of a letter -/

/-- The letters that make a token, how many of them, and the token. -/
def tokenRuns : List (Char × Nat × Token) :=
  [('d', 1, .day 1), ('d', 2, .day 2), ('d', 3, .day 3), ('d', 4, .day 4),
    ('m', 1, .month 1), ('m', 2, .month 2), ('m', 3, .month 3), ('m', 4, .month 4),
    ('y', 2, .shortYear), ('y', 4, .longYear), ('h', 1, .dialHour false), ('h', 2, .dialHour true),
    ('H', 1, .hour false), ('H', 2, .hour true), ('M', 1, .minute false), ('M', 2, .minute true),
    ('s', 1, .second false), ('s', 2, .second true), ('l', 1, .millis), ('L', 1, .centis),
    ('t', 1, .halfDay false false), ('t', 2, .halfDay true false), ('T', 1, .halfDay false true),
    ('T', 2, .halfDay true true), ('o', 1, .offset false), ('p', 1, .offset true), ('S', 1, .ordinalSuffix),
    ('Z', 1, .zone), ('N', 1, .isoWeekday), ('W', 1, .isoWeek false), ('W', 2, .isoWeek true)]

theorem documented_eq (universal : Bool) (m : Moment) : documented universal m =
    tokenRuns.map fun (c, n, t) => (String.ofList (List.replicate n c), t.text universal m) := by
  have hhalf : ∀ long capital, Token.text universal m (.halfDay long capital) =
      if m.isAfternoon then halfDayText true long capital else halfDayText false long capital := by
    intro long capital
    show halfDayText m.isAfternoon long capital = _
    cases m.isAfternoon <;> rfl
  simp only [tokenRuns, List.map_cons, List.map_nil, hhalf]
  rfl

theorem ofRun_bounds (h : Token.ofRun c n = some t) : 1 ≤ n ∧ n ≤ 4 ∧ ¬ IsQuote c := by
  have hquote : ¬ IsQuote c := by
    rintro (rfl | rfl) <;> simp [Token.ofRun] at h
  refine ⟨?_, ?_, hquote⟩
  all_goals
    unfold Token.ofRun Token.ofRun.one Token.ofRun.two at h
    split at h <;> grind

theorem mem_tokenRuns_iff : (c, n, t) ∈ tokenRuns ↔ Token.ofRun c n = some t := by
  constructor
  · have hall : ∀ e ∈ tokenRuns, Token.ofRun e.1 e.2.1 = some e.2.2 := by decide
    exact hall (c, n, t)
  · intro h
    obtain ⟨hone, hfour, -⟩ := ofRun_bounds h
    unfold Token.ofRun at h
    split at h
    all_goals
      interval_cases n
    all_goals
      cases h <;> decide

theorem run_cons_self (c : Char) (most : Nat) (cs : List Char) : run c (most + 1) (c :: cs) = run c most cs + 1 := by
  simp [run]

theorem run_cons_of_ne {d : Char} (h : d ≠ c) (most : Nat) : run c most (d :: cs) = 0 := by
  cases most <;> simp [run, h]

/-- **A run counts the letters that stand in front.** -/
theorem replicate_prefix_iff : ∀ {n most : Nat} {cs : List Char}, n ≤ most →
    (List.replicate n c <+: cs ↔ n ≤ run c most cs)
  | 0, _, _, _ => by simp
  | n + 1, most + 1, [], _ => by simp [run, List.replicate_succ]
  | n + 1, most + 1, d :: cs, h => by
    rw [List.replicate_succ, List.cons_prefix_cons]
    by_cases hd : d = c
    · rw [hd, run_cons_self, replicate_prefix_iff (Nat.le_of_succ_le_succ h)]
      simp
    · rw [run_cons_of_ne hd]
      simp [Ne.symm hd]

theorem longest?_eq_some : ∀ {most : Nat}, Token.longest? c most = some (t, n) →
    Token.ofRun c n = some t ∧ n ≤ most ∧ ∀ k t', k ≤ most → Token.ofRun c k = some t' → k ≤ n
  | 0, h => by cases h
  | most + 1, h => by
    rw [Token.longest?] at h
    split at h
    · rename_i t' hrun
      obtain ⟨rfl, rfl⟩ := Prod.mk.inj (Option.some.inj h)
      exact ⟨hrun, le_refl _, fun k t' hk _ => hk⟩
    · rename_i hnone
      obtain ⟨hrun, hle, hlongest⟩ := longest?_eq_some h
      refine ⟨hrun, by omega, fun k t' hk hk' => hlongest k t' ?_ hk'⟩
      have hne : k ≠ most + 1 := by
        rintro rfl
        rw [hnone] at hk'
        cases hk'
      omega

theorem longest?_eq_none : ∀ {most : Nat}, Token.longest? c most = none →
    ∀ k t', k ≤ most → Token.ofRun c k ≠ some t'
  | 0, _, k, t', hk, h => by
    have := (ofRun_bounds h).1
    omega
  | most + 1, h, k, t', hk, hk' => by
    rw [Token.longest?] at h
    split at h
    · cases h
    · rename_i hnone
      have hne : k ≠ most + 1 := by
        rintro rfl
        rw [hnone] at hk'
        cases hk'
      exact longest?_eq_none h k t' (by omega) hk'

/-! ## One place of a mask -/

theorem takeWhile_quote {inside rest : List Char} (h : c ∉ inside) :
    (inside ++ c :: rest).takeWhile (· != c) = inside := by
  have hinside : ∀ d ∈ inside, (d != c) = true := fun d hd => bne_iff_ne.2 fun hdc => h (hdc ▸ hd)
  rw [List.takeWhile_append_of_pos hinside, List.takeWhile_cons_of_neg (by simp), List.append_nil]

/-- **What is read at a place**: a quoted stretch; where no quote is closed, the longest run of the letter that makes a token;
and where there is no such run, the character itself. -/
theorem front_cases (c : Char) (cs : List Char) :
    (∃ inside rest, IsQuote c ∧ c ∉ inside ∧ cs = inside ++ c :: rest ∧
      Token.front c cs = (.literal inside, inside.length + 2)) ∨
    (IsQuote c → c ∉ cs) ∧
      ((∃ n t, Token.ofRun c n = some t ∧ List.replicate n c <+: c :: cs ∧
        (∀ k t', Token.ofRun c k = some t' → List.replicate k c <+: c :: cs → k ≤ n) ∧ Token.front c cs = (t, n)) ∨
      (∀ k t', Token.ofRun c k = some t' → ¬ List.replicate k c <+: c :: cs) ∧
        Token.front c cs = (.literal [c], 1)) := by
  by_cases hquoted : IsQuote c ∧ c ∈ cs
  · obtain ⟨hquote, hmem⟩ := hquoted
    obtain ⟨inside, rest, rfl, hinside⟩ := List.eq_append_cons_of_mem hmem
    refine .inl ⟨inside, rest, hquote, hinside, rfl, ?_⟩
    unfold Token.front
    rw [if_pos ⟨hquote, List.contains_iff_mem.2 hmem⟩, takeWhile_quote hinside]
  · refine .inr ⟨fun hquote hmem => hquoted ⟨hquote, hmem⟩, ?_⟩
    have hfront : Token.front c cs = (Token.longest? c (run c 4 (c :: cs))).getD (.literal [c], 1) := by
      unfold Token.front
      exact if_neg fun h => hquoted ⟨h.1, List.contains_iff_mem.1 h.2⟩
    have hrun : ∀ k t', Token.ofRun c k = some t' → (List.replicate k c <+: c :: cs ↔ k ≤ run c 4 (c :: cs)) :=
      fun k t' hk => replicate_prefix_iff (ofRun_bounds hk).2.1
    cases hlongest : Token.longest? c (run c 4 (c :: cs)) with
    | some found =>
      obtain ⟨t, n⟩ := found
      obtain ⟨ht, hle, hmost⟩ := longest?_eq_some hlongest
      refine .inl ⟨n, t, ht, (hrun n t ht).2 hle, fun k t' hk hprefix => ?_, by rw [hfront, hlongest]; rfl⟩
      exact hmost k t' ((hrun k t' hk).1 hprefix) hk
    | none =>
      refine .inr ⟨fun k t' hk hprefix => ?_, by rw [hfront, hlongest]; rfl⟩
      exact longest?_eq_none hlongest k t' ((hrun k t' hk).1 hprefix) hk

/-! ## Pieces -/

/-- What stands for something, by the letters of tokens. -/
theorem stands_iff {lexeme : List Char} {text : String} : Stands universal m lexeme text ↔
    (∃ c n t, Token.ofRun c n = some t ∧ lexeme = List.replicate n c ∧ text = t.text universal m) ∨
    ∃ quote inside, IsQuote quote ∧ quote ∉ inside ∧ lexeme = quote :: (inside ++ [quote]) ∧
      text = String.ofList inside := by
  constructor
  · rintro (h | ⟨hquote, hinside⟩)
    · rw [documented_eq] at h
      obtain ⟨⟨c, n, t⟩, hmem, heq⟩ := List.mem_map.1 h
      obtain ⟨rfl, rfl⟩ := Prod.mk.inj heq
      exact .inl ⟨c, n, t, mem_tokenRuns_iff.1 hmem, String.toList_ofList, rfl⟩
    · exact .inr ⟨_, _, hquote, hinside, rfl, rfl⟩
  · rintro (⟨c, n, t, ht, rfl, rfl⟩ | ⟨quote, inside, hquote, hinside, rfl, rfl⟩)
    · have hmem : (String.ofList (List.replicate n c), t.text universal m) ∈ documented universal m := by
        rw [documented_eq]
        exact List.mem_map.2 ⟨(c, n, t), mem_tokenRuns_iff.2 ht, rfl⟩
      have hstands := Stands.token hmem
      rwa [String.toList_ofList] at hstands
    · exact .quoted hquote hinside

theorem Stands.ne_nil {lexeme : List Char} {text : String} (h : Stands universal m lexeme text) : lexeme ≠ [] := by
  rcases stands_iff.1 h with ⟨c, n, t, ht, rfl, -⟩ | ⟨quote, inside, -, -, rfl, -⟩
  · have hn := (ofRun_bounds ht).1
    rw [ne_eq, List.replicate_eq_nil_iff]
    omega
  · exact List.cons_ne_nil _ _

/-- A stretch stands for one text. -/
theorem Stands.unique {lexeme : List Char} {text text' : String} (h : Stands universal m lexeme text)
    (h' : Stands universal m lexeme text') : text = text' := by
  have hapart : ∀ {c n t quote inside}, Token.ofRun c n = some t → IsQuote quote →
      List.replicate n c ≠ quote :: (inside ++ [quote]) := by
    intro c n t quote inside ht hquote heq
    have hmem : quote ∈ List.replicate n c := heq ▸ List.mem_cons_self
    exact (ofRun_bounds ht).2.2 (List.eq_of_mem_replicate hmem ▸ hquote)
  rcases stands_iff.1 h with ⟨c, n, t, ht, rfl, rfl⟩ | ⟨quote, inside, hquote, -, rfl, rfl⟩
  · rcases stands_iff.1 h' with ⟨d, k, u, hu, heq, rfl⟩ | ⟨quote, inside, hquote, -, heq, -⟩
    · have hlength : n = k := by simpa using congrArg List.length heq
      subst hlength
      have hn := (ofRun_bounds ht).1
      obtain rfl : c = d := (List.replicate_right_inj (by omega)).1 heq
      rw [Option.some.inj (ht.symm.trans hu)]
    · exact absurd heq (hapart ht hquote)
  · rcases stands_iff.1 h' with ⟨d, k, u, hu, heq, -⟩ | ⟨quote', inside', -, -, heq, rfl⟩
    · exact absurd heq.symm (hapart hu hquote)
    · obtain ⟨rfl, heq⟩ := List.cons.inj heq
      rw [List.append_cancel_right heq]

/-- One stretch is cut off at a place. -/
theorem Front.unique {mask lexeme lexeme' : List Char} {text text' : String} (h : Front universal m mask lexeme text)
    (h' : Front universal m mask lexeme' text') : lexeme = lexeme' ∧ text = text' := by
  cases h with
  | token stands first longest =>
    cases h' with
    | token stands' first' longest' =>
      have hlength := le_antisymm (longest' _ _ stands first) (longest _ _ stands' first')
      obtain rfl := (List.prefix_of_prefix_length_le first first' hlength.le).eq_of_length hlength
      exact ⟨rfl, stands.unique stands'⟩
    | itself none => exact absurd first (none _ _ stands)
  | itself none =>
    cases h' with
    | token stands first => exact absurd first (none _ _ stands)
    | itself => exact ⟨rfl, rfl⟩

theorem Front.ne_nil {mask lexeme : List Char} {text : String} (h : Front universal m mask lexeme text) : lexeme ≠ [] := by
  cases h with
  | token stands => exact stands.ne_nil
  | itself => exact List.cons_ne_nil _ _

/-- **There is one way to cut a mask.** -/
theorem Cuts.unique {mask : List Char} {pieces pieces' : List (List Char × String)} (h : Cuts universal m mask pieces)
    (h' : Cuts universal m mask pieces') : pieces = pieces' := by
  induction h generalizing pieces' with
  | nil =>
    cases h' with
    | nil => rfl
    | cons front split => exact absurd (List.append_eq_nil_iff.1 split.symm).1 front.ne_nil
  | cons front split others ih =>
    cases h' with
    | nil => exact absurd (List.append_eq_nil_iff.1 split.symm).1 front.ne_nil
    | cons front' split' others' =>
      obtain ⟨rfl, rfl⟩ := front.unique front'
      obtain rfl := List.append_cancel_left (split.symm.trans split')
      rw [ih others']

theorem Cuts.flatten {mask : List Char} {pieces : List (List Char × String)} (h : Cuts universal m mask pieces) :
    (pieces.map (·.1)).flatten = mask := by
  induction h with
  | nil => rfl
  | cons _ split _ ih => rw [List.map_cons, List.flatten_cons, ih, split]

/-- A run of letters or a quoted stretch in front is one of the letter in front. -/
theorem stands_cons {text : String} {lexeme : List Char} (h : Stands universal m lexeme text) (hfirst : lexeme <+: c :: cs) :
    (∃ n t, Token.ofRun c n = some t ∧ lexeme = List.replicate n c) ∨
    ∃ inside rest, IsQuote c ∧ c ∉ inside ∧ lexeme = c :: (inside ++ [c]) ∧ cs = inside ++ c :: rest := by
  rcases stands_iff.1 h with ⟨d, n, t, ht, rfl, -⟩ | ⟨quote, inside, hquote, hinside, rfl, -⟩
  · obtain ⟨k, rfl⟩ := Nat.exists_eq_add_of_le' (ofRun_bounds ht).1
    rw [List.replicate_succ] at hfirst
    obtain ⟨rfl, -⟩ := List.cons_prefix_cons.1 hfirst
    exact .inl ⟨k + 1, t, ht, rfl⟩
  · obtain ⟨rfl, rest, hrest⟩ := List.cons_prefix_cons.1 hfirst
    refine .inr ⟨inside, rest, hquote, hinside, rfl, ?_⟩
    rw [← hrest, List.append_assoc, List.singleton_append]

/-- **What is read at a place is what is cut off there.** -/
theorem front_cut (universal : Bool) (m : Moment) (c : Char) (cs : List Char) :
    Front universal m (c :: cs) ((c :: cs).take (Token.front c cs).2) ((Token.front c cs).1.text universal m) ∧
      1 ≤ (Token.front c cs).2 := by
  rcases front_cases c cs with ⟨inside, rest, hquote, hinside, rfl, hfront⟩ |
    ⟨hopen, ⟨n, t, ht, hprefix, hmost, hfront⟩ | ⟨hnone, hfront⟩⟩
  · rw [hfront]
    have htake : (c :: (inside ++ c :: rest)).take (inside.length + 2) = c :: (inside ++ [c]) := by
      rw [show c :: (inside ++ c :: rest) = (c :: (inside ++ [c])) ++ rest by simp]
      exact List.take_left' (by simp)
    refine ⟨?_, by simp⟩
    rw [htake]
    refine .token (.quoted hquote hinside) (by simp) fun other text' hother hfirst => ?_
    rcases stands_cons hother hfirst with ⟨k, u, hu, -⟩ | ⟨inside', rest', -, hinside', rfl, hrest'⟩
    · exact absurd hquote (ofRun_bounds hu).2.2
    · have hread : (inside ++ c :: rest).takeWhile (· != c) = inside := takeWhile_quote hinside
      rw [← hread, hrest', takeWhile_quote hinside']
  · rw [hfront]
    have htake : (c :: cs).take n = List.replicate n c := by
      rw [List.prefix_iff_eq_take.1 hprefix, List.length_replicate]
    refine ⟨?_, (ofRun_bounds ht).1⟩
    rw [htake]
    refine .token (stands_iff.2 (.inl ⟨c, n, t, ht, rfl, rfl⟩)) hprefix fun other text' hother hfirst => ?_
    rcases stands_cons hother hfirst with ⟨k, u, hu, rfl⟩ | ⟨inside, rest, hquote, -, rfl, rfl⟩
    · simpa using hmost k u hu hfirst
    · exact absurd (List.mem_append_right _ List.mem_cons_self) (hopen hquote)
  · rw [hfront]
    refine ⟨.itself fun other text' hother hfirst => ?_, le_refl _⟩
    rcases stands_cons hother hfirst with ⟨k, u, hu, rfl⟩ | ⟨inside, rest, hquote, -, rfl, rfl⟩
    · exact hnone k u hu hfirst
    · exact absurd (List.mem_append_right _ List.mem_cons_self) (hopen hquote)

theorem exists_cuts (universal : Bool) (m : Moment) (mask : List Char) :
    ∃ pieces, Cuts universal m mask pieces ∧ pieces.map (·.2) = (tokens mask).map (Token.text universal m) := by
  induction mask using tokens.induct with
  | case1 => exact ⟨[], .nil, by rw [tokens]; rfl⟩
  | case2 c cs t n hfront ih =>
    obtain ⟨pieces, hpieces, htexts⟩ := ih
    obtain ⟨hcut, hpos⟩ := front_cut universal m c cs
    rw [hfront] at hcut hpos
    have hsplit : c :: cs = (c :: cs).take n ++ cs.drop (n - 1) := by
      obtain ⟨k, rfl⟩ := Nat.exists_eq_add_of_le' hpos
      rw [List.take_succ_cons, Nat.add_sub_cancel, List.cons_append, List.take_append_drop]
    refine ⟨_, .cons hcut hsplit hpieces, ?_⟩
    rw [tokens, hfront, List.map_cons, List.map_cons, htexts]

/-! ## Masks in two parts -/

theorem openQuote_cons (hc : ¬ IsQuote c) (cs : List Char) : openQuote (c :: cs) = openQuote cs :=
  congrArg (cs.foldl quoteAfter) (if_neg hc)

theorem openQuote_letters (hc : ¬ IsQuote c) (rest : List Char) :
    ∀ k : Nat, openQuote (List.replicate k c ++ rest) = openQuote rest
  | 0 => rfl
  | k + 1 => by rw [List.replicate_succ, List.cons_append, openQuote_cons hc, openQuote_letters hc rest k]

theorem foldl_quoteAfter_inside {inside : List Char} (h : c ∉ inside) :
    inside.foldl quoteAfter (some c) = some c := by
  induction inside with
  | nil => rfl
  | cons d inside ih =>
    rw [List.mem_cons, not_or] at h
    have hd : quoteAfter (some c) d = some c := if_neg (Ne.symm h.1)
    rw [List.foldl_cons, hd, ih h.2]

theorem openQuote_quote (hc : IsQuote c) (cs : List Char) : openQuote (c :: cs) = cs.foldl quoteAfter (some c) :=
  congrArg (cs.foldl quoteAfter) (if_pos hc)

theorem openQuote_quoted (hc : IsQuote c) {inside : List Char} (h : c ∉ inside) (rest : List Char) :
    openQuote (c :: (inside ++ c :: rest)) = openQuote rest := by
  have hclosed : quoteAfter (some c) c = none := if_pos rfl
  rw [openQuote_quote hc, List.foldl_append, foldl_quoteAfter_inside h, List.foldl_cons, hclosed]
  rfl

/-- A quote that is closed stands again. -/
theorem mem_of_openQuote (hc : IsQuote c) (h : openQuote (c :: cs) = none) : c ∈ cs := by
  by_contra hmem
  rw [openQuote_quote hc, foldl_quoteAfter_inside hmem] at h
  cases h

/-- **Behind a token no quote is open** if none is open at the end. -/
theorem openQuote_drop (h : openQuote (c :: cs) = none) :
    openQuote (cs.drop ((Token.front c cs).2 - 1)) = none ∧ (Token.front c cs).2 ≤ cs.length + 1 := by
  rcases front_cases c cs with ⟨inside, rest, hquote, hinside, rfl, hfront⟩ |
    ⟨hopen, ⟨n, t, ht, hprefix, -, hfront⟩ | ⟨-, hfront⟩⟩
  · rw [openQuote_quoted hquote hinside] at h
    rw [hfront]
    refine ⟨?_, by simp⟩
    rw [show inside ++ c :: rest = (inside ++ [c]) ++ rest by simp, List.drop_left' (by simp)]
    exact h
  · obtain ⟨hpos, -, hquote⟩ := ofRun_bounds ht
    obtain ⟨k, rfl⟩ := Nat.exists_eq_add_of_le' hpos
    rw [List.replicate_succ, List.cons_prefix_cons] at hprefix
    obtain ⟨-, rest, rfl⟩ := hprefix
    rw [hfront]
    refine ⟨?_, by simp⟩
    rw [Nat.add_sub_cancel, List.drop_left' List.length_replicate]
    rwa [openQuote_cons hquote, openQuote_letters hquote] at h
  · have hquote : ¬ IsQuote c := fun hquote => hopen hquote (mem_of_openQuote hquote h)
    rw [hfront]
    exact ⟨(openQuote_cons hquote cs).symm.trans h, by simp⟩

theorem run_append {back : List Char} : ∀ {most : Nat} {d : Char} {front : List Char},
    (∀ e, (d :: front).getLast? = some e → back.head? ≠ some e) → run c most (d :: front ++ back) = run c most (d :: front)
  | 0, _, _, _ => by simp [run]
  | most + 1, d, front, h => by
    by_cases hd : d = c
    · rw [hd, List.cons_append, run_cons_self, run_cons_self, Nat.add_right_cancel_iff]
      cases front with
      | nil =>
        have hback := h d rfl
        cases back with
        | nil => rfl
        | cons b back =>
          have hb : b ≠ c := by simpa [hd] using hback
          rw [List.nil_append, run_cons_of_ne hb]
          simp [run]
      | cons e front => exact run_append (by rwa [List.getLast?_cons_cons] at h)
    · rw [List.cons_append, run_cons_of_ne hd, run_cons_of_ne hd]

theorem front_append {back : List Char} (hopen : openQuote (c :: cs) = none)
    (hlast : ∀ e, (c :: cs).getLast? = some e → back.head? ≠ some e) : Token.front c (cs ++ back) = Token.front c cs := by
  unfold Token.front
  by_cases hquote : IsQuote c
  · have hmem := mem_of_openQuote hquote hopen
    obtain ⟨inside, rest, rfl, hinside⟩ := List.eq_append_cons_of_mem hmem
    rw [if_pos ⟨hquote, by simp⟩, if_pos ⟨hquote, by simp⟩, List.append_assoc, List.cons_append, takeWhile_quote hinside,
      takeWhile_quote hinside]
  · rw [if_neg fun h => hquote h.1, if_neg fun h => hquote h.1, ← List.cons_append, run_append hlast]

/-- **A mask may be cut in two** where no quote is open and no letter goes on. -/
theorem tokens_append {back : List Char} (front : List Char) (hopen : openQuote front = none)
    (hlast : ∀ d, front.getLast? = some d → back.head? ≠ some d) : tokens (front ++ back) = tokens front ++ tokens back := by
  induction front using tokens.induct with
  | case1 => rw [List.nil_append, tokens, List.nil_append]
  | case2 c cs t n hfront ih =>
    obtain ⟨hrest, hlength⟩ := openQuote_drop hopen
    rw [hfront] at hrest hlength
    have hdrop : (cs ++ back).drop (n - 1) = cs.drop (n - 1) ++ back := List.drop_append_of_le_length (by omega)
    have hlast' : ∀ d, (cs.drop (n - 1)).getLast? = some d → back.head? ≠ some d := by
      intro d hd
      rw [List.getLast?_drop] at hd
      split at hd
      · cases hd
      · refine hlast d ?_
        cases cs with
        | nil => cases hd
        | cons e cs => rwa [List.getLast?_cons_cons]
    rw [List.cons_append, tokens, tokens, front_append hopen hlast, hfront]
    dsimp only
    rw [hdrop, ih hrest hlast', List.cons_append]

/-- A year of three letters is a short year and a letter; a quote that is never closed stands for itself. -/
example : tokens "yyyd'd\"'\"".toList =
    [.shortYear, .literal ['y'], .day 1, .literal ['d', '"'], .literal ['"']] := by
  decide +kernel

end Folio.Calendar
