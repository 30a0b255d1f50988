import Folio.Markdown.Html
/-!
# A paragraph of one line without markup

A line in which no character has a meaning for Markdown is one paragraph, and its text is the line itself, written so that
HTML shows it (`IsSimple.toHtml_eq`).  Underscores may stand in it within words: such runs neither open nor close a stretch,
but they are read apart from the text around them and joined to it again in the end (`resolve_texts`).
-/
namespace Folio.Markdown

/-- Characters that mean something to Markdown, in front of a line or within it. -/
def marks : List Char :=
  ['\n', '\r', '\x00', '\t', '\x60', '\\', '&', '<', '>', '[', ']', '!', '*', '+', '-', '~', '=', '#', '.', ':', '@']

def isWordPart (c : Char) : Bool := c == '_' || c.isAlphanum

/-- Every underscore stands between letters, digits and underscores; `before` says whether one of these stands in front. -/
def Joined : Bool → List Char → Prop
  | _, [] => True
  | before, c :: cs => (c = '_' → before = true ∧ cs.head?.any isWordPart = true) ∧ Joined (isWordPart c) cs

theorem joined_append_of_not_mem {ys : List Char} (hys : ∀ before, Joined before ys) : ∀ {xs : List Char}, '_' ∉ xs →
    ∀ before, Joined before (xs ++ ys)
  | [], _, before => hys before
  | c :: xs, h, before => by
    rw [List.mem_cons, not_or] at h
    exact ⟨fun hc => absurd hc.symm h.1, joined_append_of_not_mem hys h.2 (isWordPart c)⟩

/-- Underscores in a word that does not end with one. -/
theorem joined_append_of_word {ys : List Char} (hys : ∀ before, Joined before ys) : ∀ {xs : List Char},
    xs.all isWordPart = true → xs.getLast? ≠ some '_' → Joined true (xs ++ ys)
  | [], _, _ => hys true
  | [c], _, hlast => ⟨fun hc => absurd (congrArg some hc) hlast, hys (isWordPart c)⟩
  | c :: d :: xs, hall, hlast => by
    rw [List.all_cons, Bool.and_eq_true] at hall
    have hrest := joined_append_of_word hys hall.2 (by rwa [List.getLast?_cons_cons] at hlast)
    have hnext := hall.2
    rw [List.all_cons, Bool.and_eq_true] at hnext
    refine ⟨fun _ => ⟨rfl, hnext.1⟩, ?_⟩
    rw [hall.1]
    exact hrest

/-- A line that is a paragraph without markup. -/
structure IsSimple (cs : List Char) : Prop where
  quiet : ∀ c ∈ cs, c ∉ marks
  underscores : Joined false cs
  front : ∃ c rest, cs = c :: rest ∧ c ≠ ' ' ∧ c ≠ '\uFEFF'
  last : ∀ c ∈ cs.getLast?, isAsciiBlank c = false
  /-- It does not begin like an item of a numbered list. -/
  unnumbered : (cs.dropWhile Char.isDigit).head? ≠ some ')'

/-! ## Blocks -/

theorem unifyBreaks_cons {c : Char} (h : c ∉ marks) (cs : List Char) : unifyBreaks (c :: cs) = c :: unifyBreaks cs := by
  have hreturn : c ≠ '\r' := by
    rintro rfl
    exact h (by decide)
  have hnull : c ≠ '\x00' := by
    rintro rfl
    exact h (by decide)
  rw [unifyBreaks]
  · exact fun _ heq _ => hreturn heq
  · exact hreturn
  · exact hnull

theorem unifyBreaks_quiet {tail : List Char} : ∀ {cs : List Char}, (∀ c ∈ cs, c ∉ marks) →
    unifyBreaks (cs ++ tail) = cs ++ unifyBreaks tail
  | [], _ => rfl
  | c :: cs, h => by
    rw [List.cons_append, unifyBreaks_cons (h c List.mem_cons_self),
      unifyBreaks_quiet fun d hd => h d (List.mem_cons_of_mem c hd), List.cons_append]

theorem stretches_quiet : ∀ {cs : List Char}, (∀ c ∈ cs, c ∉ marks) →
    stretches cs = [cs] ∧ stretches (cs ++ ['\n']) = [cs, []]
  | [], _ => ⟨rfl, rfl⟩
  | c :: cs, h => by
    obtain ⟨halone, hbroken⟩ := stretches_quiet fun d hd => h d (List.mem_cons_of_mem c hd)
    have hc : (c == '\n') = false := by
      rw [beq_eq_false_iff_ne]
      rintro rfl
      exact h _ List.mem_cons_self (by decide)
    rw [List.cons_append, stretches, stretches, hc, halone, hbroken]
    exact ⟨rfl, rfl⟩

theorem drop_takeWhile_length (p : Char → Bool) (cs : List Char) : cs.drop (cs.takeWhile p).length = cs.dropWhile p :=
  calc cs.drop (cs.takeWhile p).length
      = (cs.takeWhile p ++ cs.dropWhile p).drop (cs.takeWhile p).length := by rw [List.takeWhile_append_dropWhile]
    _ = cs.dropWhile p := List.drop_left

section
variable {cs : List Char} (h : IsSimple cs)
include h

theorem IsSimple.marker?_eq_none : marker? cs = none := by
  have hnumber := h.unnumbered
  unfold marker?
  dsimp only
  rw [drop_takeWhile_length]
  cases hrest : cs.dropWhile Char.isDigit with
  | nil => rfl
  | cons c rest =>
    have hc : c ∉ marks := h.quiet c ((List.dropWhile_suffix Char.isDigit).subset (hrest ▸ List.mem_cons_self))
    rw [hrest, List.head?_cons, ne_eq, Option.some.injEq] at hnumber
    simp only [marks, List.mem_cons, List.not_mem_nil, or_false, not_or] at hc
    simp [hc, hnumber]

theorem IsSimple.content_eq : (Line.start cs).content = cs ∧ (Line.start cs).isBlank = false := by
  obtain ⟨c, rest, rfl, hspace, -⟩ := h.front
  have hc := h.quiet c List.mem_cons_self
  simp only [marks, List.mem_cons, List.not_mem_nil, or_false, not_or] at hc
  have hcontent : (Line.start (c :: rest)).content = c :: rest := by
    refine List.dropWhile_cons_of_neg ?_
    simp [isIndentChar, hspace, hc]
  exact ⟨hcontent, congrArg List.isEmpty hcontent⟩

/-- The first character begins no block. -/
theorem IsSimple.start?_eq_none : start? .default (.container false) (.start cs) = none := by
  have hmarker := h.marker?_eq_none
  have hjoined := h.underscores
  have hcontent := h.content_eq.1
  obtain ⟨c, rest, rfl, hspace, -⟩ := h.front
  have hc := h.quiet c List.mem_cons_self
  have hline : c ≠ '_' := fun heq => Bool.false_ne_true (hjoined.1 heq).1
  simp only [marks, List.mem_cons, List.not_mem_nil, or_false, not_or] at hc
  have hindent : (Line.start (c :: rest)).indent = 0 := by
    unfold Line.indent Line.start indentAt
    split
    · rename_i heq
      exact absurd (List.cons.inj heq).1 hspace
    · rename_i heq
      exact absurd (List.cons.inj heq).1 hc.2.2.2.1
    · rfl
  have hquote : quoted? (.start (c :: rest)) = none := by
    unfold quoted?
    rw [hindent, hcontent]
    simp [hc]
  have hheading : heading? (c :: rest) = none := by
    simp [heading?, hc]
  have hfence : fence? (.start (c :: rest)) = none := by
    unfold fence?
    rw [hcontent]
    simp [hc]
  have hhtml : htmlBlock? false (c :: rest) = none := by
    unfold htmlBlock?
    split
    · rename_i heq
      exact absurd (List.cons.inj heq).1 hc.2.2.2.2.2.2.2.1
    · rfl
  have hrule : isRule (c :: rest) = false := by
    simp [isRule, isIndentChar, hc, hspace, hline]
  have hnote : note? (.start (c :: rest)) = none := by
    unfold note?
    rw [hcontent]
    split
    · rename_i heq
      exact absurd (List.cons.inj heq).1 (by simp [hc])
    · rfl
  have hitem : item? false (.start (c :: rest)) = none := by
    unfold item?
    rw [hcontent, hmarker]
    rfl
  unfold start?
  rw [hindent, hcontent, hquote, hheading, hfence, hrule, hnote]
  show (((htmlBlock? false (c :: rest)).map _).or ((item? false (.start (c :: rest))).or none)) = none
  rw [hhtml, hitem]
  rfl

theorem IsSimple.readLine_eq :
    (Reader.start .default).readLine cs = ⟨.default, [], some (.paragraph [cs] false), [], [], []⟩ := by
  obtain ⟨hcontent, hblank⟩ := h.content_eq
  have hstart : start? (Reader.start .default).options ((Reader.start .default).setting false) (.start cs) = none :=
    h.start?_eq_none
  show (Reader.start .default).place 0 false false (.start cs) = _
  unfold Reader.place
  rw [hstart]
  dsimp only
  rw [hblank]
  show (Reader.start .default).addText (.start cs) = _
  unfold Reader.addText
  rw [hblank, if_neg Bool.false_ne_true, hcontent]
  rfl

theorem IsSimple.finish_paragraph : (Leaf.paragraph [cs] false).finish = ([], some ⟨.paragraph cs, false⟩) := by
  obtain ⟨c, rest, hcs, hspace, -⟩ := h.front
  have hc := h.quiet c (hcs ▸ List.mem_cons_self)
  have hjoined : joined [cs] = cs := by
    simp [joined, literal]
  have hlabel : label? cs = none := by
    unfold label?
    rw [hcs]
    split
    · rename_i heq
      exact absurd ((List.cons.inj heq).1 ▸ hc) (by decide)
    · rfl
  have hdefinitions : definitions cs.length cs = ([], cs) := by
    rw [hcs, List.length_cons, definitions, ← hcs]
    unfold definition?
    rw [hlabel]
    rfl
  have hfilled : cs.all isAsciiBlank = false := by
    obtain ⟨d, hd⟩ : ∃ d, cs.getLast? = some d := by
      rw [hcs]
      exact ⟨_, List.getLast?_cons⟩
    exact List.all_eq_false.2 ⟨d, List.mem_of_getLast? hd, by rw [h.last d hd]; exact Bool.false_ne_true⟩
  unfold Leaf.finish
  dsimp only
  rw [hjoined, hdefinitions]
  dsimp only
  rw [hfilled]
  rfl

/-- **A line without markup is read as one paragraph.** -/
theorem IsSimple.readBlocks_eq {tail : List Char} (htail : tail = [] ∨ tail = ['\n']) :
    readBlocks .default (cs ++ tail) = ⟨.default, [], none, [⟨.paragraph cs, false⟩], [], []⟩ := by
  have hclose : (Reader.mk .default [] (some (.paragraph [cs] false)) [] [] []).closeLeaf =
      ⟨.default, [], none, [⟨.paragraph cs, false⟩], [], []⟩ := by
    unfold Reader.closeLeaf
    dsimp only
    rw [h.finish_paragraph]
    rfl
  have hfinish : ∀ isBroken, (Reader.mk .default [] (some (.paragraph [cs] false)) [] [] []).finish isBroken =
      ⟨.default, [], none, [⟨.paragraph cs, false⟩], [], []⟩ := by
    intro isBroken
    unfold Reader.finish
    cases isBroken <;>
      · dsimp only
        rw [hclose]
        rfl
  obtain ⟨halone, hbroken⟩ := stretches_quiet h.quiet
  have hunified : unifyBreaks (cs ++ tail) = cs ++ tail := by
    rw [unifyBreaks_quiet h.quiet]
    rcases htail with rfl | rfl <;> rfl
  have hbom : ((cs ++ tail).head? == some '\uFEFF') = false := by
    obtain ⟨c, rest, rfl, -, hbom⟩ := h.front
    simp [hbom]
  have hempty : cs.isEmpty = false := by
    obtain ⟨c, rest, rfl, -, -⟩ := h.front
    rfl
  unfold readBlocks
  rw [hbom, if_neg Bool.false_ne_true]
  dsimp only
  rw [hunified]
  rcases htail with rfl | rfl
  · rw [List.append_nil, halone]
    show ((if cs.isEmpty then [] else [cs]).foldl Reader.readLine (.start .default)).finish cs.isEmpty = _
    rw [hempty, if_neg Bool.false_ne_true]
    show ((Reader.start .default).readLine cs).finish false = _
    rw [h.readLine_eq, hfinish]
  · rw [hbroken]
    show ((Reader.start .default).readLine cs).finish true = _
    rw [h.readLine_eq, hfinish]

end

/-! ## Running text -/

/-- Texts, newest first, as pieces. -/
def textPieces (newest : List (List Char)) : List Piece := newest.map fun t => .inline (.text t)

/-- A text as an inline, if there is any. -/
def textOf (cs : List Char) : List Inline := if cs.isEmpty then [] else [.text cs]

theorem cons_textOf (t cs : List Char) : Inline.cons (.text t) (textOf cs) = textOf (t ++ cs) := by
  cases t with
  | nil => rfl
  | cons c t => cases cs <;> simp [textOf, Inline.cons]

theorem arrange_texts (newest : List (List Char)) : ∀ cs : List Char,
    (newest.map Inline.text).foldl (fun is i => Inline.cons i is) (textOf cs) =
      textOf (newest.reverse.flatten ++ cs) := by
  induction newest with
  | nil => exact fun _ => rfl
  | cons t newest ih =>
    intro cs
    rw [List.map_cons, List.foldl_cons, cons_textOf, ih, List.reverse_cons, List.flatten_append, List.append_assoc]
    simp

theorem pairRuns_texts (before : List Inline) : ∀ texts : List (List Char),
    pairRuns false ⟨[], before⟩ (textPieces texts) = ⟨[], (texts.map Inline.text).reverse ++ before⟩
  | [] => rfl
  | t :: texts => by
    show pairRuns false ⟨[], .text t :: before⟩ (textPieces texts) = _
    rw [pairRuns_texts (.text t :: before) texts, List.map_cons, List.reverse_cons, List.append_assoc]
    rfl

/-- **Texts read apart are one text.** -/
theorem resolve_texts (newest : List (List Char)) : resolve (textPieces newest) = textOf newest.reverse.flatten := by
  have hreverse : (textPieces newest).reverse = textPieces newest.reverse := List.map_reverse.symm
  have harranged := arrange_texts newest []
  unfold resolve Inline.arrange Pairing.settle
  rw [hreverse, show Pairing.empty = ⟨[], []⟩ from rfl, pairRuns_texts]
  rw [List.append_nil, ← List.map_reverse, List.reverse_reverse]
  simpa [textOf] using harranged

/-- All that was read is text. -/
structure Scan.Spells (s : Scan) (read : List Char) : Prop where
  past : s.past = read.reverse
  pieces : ∃ newest, s.pieces = textPieces newest ∧ newest.reverse.flatten ++ s.words.reverse = read

namespace Scan.Spells

variable {s : Scan} {read : List Char} (h : s.Spells read)
include h

theorem all_eq : ∃ newest, s.all = textPieces newest ∧ newest.reverse.flatten = read := by
  obtain ⟨newest, hpieces, hread⟩ := h.pieces
  unfold Scan.all
  cases hwords : s.words with
  | nil =>
    rw [hwords, List.reverse_nil, List.append_nil] at hread
    exact ⟨newest, hpieces, hread⟩
  | cons c words =>
    refine ⟨s.words.reverse :: newest, ?_, ?_⟩
    · rw [hpieces, hwords]
      rfl
    · rw [List.reverse_cons, List.flatten_append, List.flatten_singleton, hread]

/-- A character without a meaning is one more of the text. -/
theorem word (c : Char) : Scan.Spells { s with words := c :: s.words, past := c :: s.past } (read ++ [c]) where
  past := by
    dsimp only
    rw [h.past, List.reverse_append]
    rfl
  pieces := by
    obtain ⟨newest, hpieces, hread⟩ := h.pieces
    refine ⟨newest, hpieces, ?_⟩
    rw [← hread, List.reverse_cons, List.append_assoc]

/-- So is a text that is read apart. -/
theorem apart (t : List Char) : Scan.Spells { s.add (.inline (.text t)) with past := t.reverse ++ s.past } (read ++ t) where
  past := by
    dsimp only
    rw [h.past, List.reverse_append]
  pieces := by
    obtain ⟨newest, hall, hread⟩ := h.all_eq
    refine ⟨t :: newest, congrArg (Piece.inline (.text t) :: ·) hall, ?_⟩
    show (t :: newest).reverse.flatten ++ [] = _
    rw [List.append_nil, List.reverse_cons, List.flatten_append, List.flatten_singleton, hread]

end Scan.Spells

theorem isSign_of_isAlphanum {c : Char} (h : c.isAlphanum = true) : isSign c = false := by
  have hrange := Text.range_of_isAlphanum h
  unfold isSign isAsciiSign
  rw [if_pos (by omega)]
  simp only [Bool.or_eq_false_iff, Bool.and_eq_false_iff, decide_eq_false_iff_not]
  omega

section
variable {cx : Context} (hcx : cx.options = .default) {s : Scan} {read : List Char}
include hcx

/-- No address begins where there is no point. -/
theorem special?_quiet {c : Char} {cs : List Char} (hquiet : ∀ d ∈ c :: cs, d ∉ marks) (hc : c ≠ '_') :
    special? cx s c cs = none := by
  have hmark := hquiet c List.mem_cons_self
  have hwww : wwwAddress? s.past.head? (c :: cs) = none := by
    have hfront : "www.".toList.isPrefixOf (c :: cs) = false := by
      rw [Bool.eq_false_iff]
      intro h
      exact hquiet '.' ((List.isPrefixOf_iff_prefix.1 h).subset (by decide)) (by decide)
    unfold wwwAddress?
    rw [hfront]
    simp
  unfold special?
  split
  all_goals first
    | exact absurd hmark (by decide)
    | exact absurd rfl hc
    | rw [hcx]; rfl
    | rw [hwww]; exact ite_self none
    | rfl

omit hcx in
/-- A run of underscores within a word is text. -/
theorem special?_underscores {k : Nat} {a b : Char} {rest : List Char} (hbefore : s.past.head? = some b)
    (hb : b.isAlphanum = true) (hafter : rest.head? = some a) (ha : a.isAlphanum = true) :
    special? cx s '_' (List.replicate k '_' ++ rest) =
      some (s.add (.inline (.text (List.replicate (k + 1) '_'))), rest) := by
  have hrest : rest.takeWhile (· == '_') = [] := by
    obtain ⟨rest, rfl⟩ := List.head?_eq_some_iff.1 hafter
    refine List.takeWhile_cons_of_neg ?_
    rw [beq_iff_eq]
    rintro rfl
    cases ha
  have hrun : ((List.replicate k '_' ++ rest).takeWhile (· == '_')).length + 1 = k + 1 := by
    rw [List.takeWhile_append_of_pos (by simp), hrest]
    simp
  have hbetween : Run.between b '_' (k + 1) a = ⟨'_', k + 1, false, false⟩ := by
    simp [Run.between, Text.isBlank_of_isAlphanum ha, Text.isBlank_of_isAlphanum hb, isSign_of_isAlphanum ha, isSign_of_isAlphanum hb]
  unfold special?
  dsimp only
  rw [hrun, Nat.add_sub_cancel, List.drop_left' List.length_replicate]
  unfold Scan.openRun
  rw [hbefore, hafter]
  simp only [Option.getD_some, hbetween]
  rfl

omit hcx in
theorem exists_run : ∀ cs : List Char, ∃ k rest, cs = List.replicate k '_' ++ rest ∧ rest.head? ≠ some '_'
  | [] => ⟨0, [], rfl, by simp⟩
  | c :: cs => by
    by_cases hc : c = '_'
    · obtain ⟨k, rest, rfl, hrest⟩ := exists_run cs
      exact ⟨k + 1, rest, by rw [hc, List.replicate_succ, List.cons_append], hrest⟩
    · exact ⟨0, c :: cs, rfl, by simpa using hc⟩

omit hcx in
/-- Behind a run of underscores the word goes on. -/
theorem joined_run {rest : List Char} (hrest : rest.head? ≠ some '_') : ∀ k : Nat,
    Joined true (List.replicate k '_' ++ rest) → (List.replicate k '_' ++ rest).head?.any isWordPart = true →
    Joined true rest ∧ ∃ a, rest.head? = some a ∧ a.isAlphanum = true
  | 0, hjoined, hafter => by
    refine ⟨hjoined, ?_⟩
    obtain ⟨a, ha, hpart⟩ := (Option.any_eq_true _ _).1 hafter
    refine ⟨a, ha, (Bool.or_eq_true_iff.1 hpart).resolve_left fun hline => hrest ?_⟩
    rw [← beq_iff_eq.1 hline]
    exact ha
  | k + 1, hjoined, _ => joined_run hrest k hjoined.2 (hjoined.1 rfl).2

/-- **Every character of a line without markup is text.** -/
theorem scanWith_simple : ∀ (fuel : Nat) (cs read : List Char) (s : Scan), s.Spells read → cs.length ≤ fuel →
    (∀ c ∈ cs, c ∉ marks) → Joined (read.getLast?.any isWordPart) cs →
    (cs.head? = some '_' → read.getLast? ≠ some '_') → (scanWith cx fuel s cs).Spells (read ++ cs)
  | fuel, [], read, s, hs, _, _, _, _ => by
    rw [List.append_nil]
    cases fuel <;> exact hs
  | fuel + 1, c :: cs, read, s, hs, hfuel, hquiet, hjoined, hlast => by
    rw [List.length_cons] at hfuel
    by_cases hc : c = '_'
    · -- The whole run is taken at once.
      subst hc
      obtain ⟨hbefore, hafter⟩ := hjoined.1 rfl
      obtain ⟨b, hb, hpart⟩ := (Option.any_eq_true _ _).1 hbefore
      have hletter : b.isAlphanum = true := (Bool.or_eq_true_iff.1 hpart).resolve_left fun hline =>
        hlast rfl (beq_iff_eq.1 hline ▸ hb)
      have hpast : s.past.head? = some b := by rw [hs.past, List.head?_reverse, hb]
      obtain ⟨k, rest, rfl, hrest⟩ := exists_run cs
      obtain ⟨hgoes, a, ha, hnext⟩ := joined_run hrest k hjoined.2 hafter
      have hpassed : passed ('_' :: (List.replicate k '_' ++ rest)) rest = (List.replicate (k + 1) '_').reverse := by
        have hlength : ('_' :: (List.replicate k '_' ++ rest)).length - rest.length = (List.replicate (k + 1) '_').length := by
          simp
          omega
        unfold passed
        rw [hlength, ← List.cons_append, ← List.replicate_succ, List.take_left]
      have hread : read ++ '_' :: (List.replicate k '_' ++ rest) = (read ++ List.replicate (k + 1) '_') ++ rest := by
        rw [List.append_assoc, List.replicate_succ, List.cons_append]
      have hend : (read ++ List.replicate (k + 1) '_').getLast? = some '_' := by
        rw [List.replicate_succ', ← List.append_assoc, List.getLast?_concat]
      rw [scanWith, special?_underscores hpast hletter ha hnext]
      dsimp only
      rw [hpassed, hread]
      refine scanWith_simple fuel rest _ _ (hs.apart _) ?_ (fun d hd => hquiet d ?_) ?_ fun h => absurd h hrest
      · rw [List.length_append] at hfuel
        omega
      · exact List.mem_cons_of_mem _ (List.mem_append_right _ hd)
      · rw [hend]
        exact hgoes
    · have hread : read ++ c :: cs = (read ++ [c]) ++ cs := by rw [List.append_assoc, List.singleton_append]
      rw [scanWith, special?_quiet hcx hquiet hc, hread]
      refine scanWith_simple fuel cs (read ++ [c]) _ (hs.word c) (by omega)
        (fun d hd => hquiet d (List.mem_cons_of_mem c hd)) ?_ fun _ => ?_
      · rw [List.getLast?_concat]
        exact hjoined.2
      · rw [List.getLast?_concat, ne_eq, Option.some.injEq]
        exact hc

end

/-- There is no mail address without its sign. -/
theorem linkMail_quiet (depth : Int) : ∀ (cs newest : List Char), (∀ c ∈ cs, c ∉ marks) →
    linkMail depth newest 0 cs = textOf (newest.reverse ++ cs)
  | [], newest, _ => by
    rw [linkMail, List.append_nil]
    cases newest <;> simp [textOf]
  | c :: cs, newest, h => by
    have hsign : (c == '@') = false := by
      rw [beq_eq_false_iff_ne]
      rintro rfl
      exact h _ List.mem_cons_self (by decide)
    have ih := fun depth => linkMail_quiet depth cs (c :: newest) fun d hd => h d (List.mem_cons_of_mem c hd)
    rw [List.reverse_cons, List.append_assoc, List.singleton_append] at ih
    rw [linkMail, hsign]
    exact ih _

section
variable {cs : List Char} (h : IsSimple cs)
include h

theorem IsSimple.readInlines_eq (targets : Targets) : readInlines ⟨.default, targets⟩ cs = [.text cs] := by
  obtain ⟨c, rest, hcs, -⟩ := h.front
  have hempty : Scan.Spells .empty [] := ⟨rfl, [], rfl, rfl⟩
  have hend : (cs.reverse.dropWhile isAsciiBlank).reverse = cs := by
    have hlast := h.last
    rw [← List.head?_reverse] at hlast
    have hkept : cs.reverse.dropWhile isAsciiBlank = cs.reverse := by
      cases hreverse : cs.reverse with
      | nil => rfl
      | cons d ds =>
        rw [hreverse] at hlast
        exact List.dropWhile_cons_of_neg (by rw [hlast d rfl]; exact Bool.false_ne_true)
    rw [hkept, List.reverse_reverse]
  have hoptions : (Context.mk .default targets).options = .default := rfl
  have hspells := scanWith_simple hoptions cs.length cs [] .empty hempty (Nat.le_refl _) h.quiet h.underscores (by simp)
  rw [List.nil_append] at hspells
  obtain ⟨newest, hall, hread⟩ := hspells.all_eq
  have hresolved : resolve (scanWith ⟨.default, targets⟩ cs.length .empty cs).all = [.text cs] := by
    rw [hall, resolve_texts, hread, hcs]
    rfl
  unfold readInlines
  dsimp only
  rw [hend, hresolved]
  show linkMail 0 [] 0 cs ++ [] = _
  rw [linkMail_quiet 0 cs [] h.quiet, List.append_nil, hcs]
  rfl

/-- **The HTML of a line without markup.** -/
theorem IsSimple.toHtml_eq {tail : List Char} (htail : tail = [] ∨ tail = ['\n']) :
    toHtml .default (String.ofList (cs ++ tail)) =
      String.ofList ("<p>".toList ++ (escape cs ++ "</p>\n".toList)) := by
  have hread : read .default (cs ++ tail) = ⟨[.paragraph [.text cs]], []⟩ := by
    have hblock : Block.read ⟨.default, []⟩ (.paragraph cs) ⟨[], [], []⟩ = ([.paragraph [.text cs]], ⟨[], [], []⟩) := by
      rw [Block.read, readText, h.readInlines_eq]
      rfl
    have hall : readAll ⟨.default, []⟩ (blocksOf [⟨.paragraph cs, false⟩]) ⟨[], [], []⟩ =
        ([.paragraph [.text cs]], ⟨[], [], []⟩) := by
      have hblocks : blocksOf [⟨.paragraph cs, false⟩] = [.paragraph cs] := rfl
      rw [hblocks, readAll, hblock]
      dsimp only
      rw [readAll]
      rfl
    unfold read
    dsimp only
    rw [h.readBlocks_eq htail]
    dsimp only
    rw [hall]
    rfl
  unfold toHtml
  rw [String.toList_ofList, hread]
  unfold Document.write
  dsimp only
  rw [writeBlocks, writeBlocks, Block.write, if_neg Bool.false_ne_true, if_pos List.isEmpty_nil, writeInlines, writeInlines,
    Inline.write]
  unfold Page.put Page.putChars Page.freshLine
  simp only [List.append_nil, List.reverse_append, List.reverse_reverse, List.append_assoc]

end

/-! ## Text that is written otherwise -/

theorem escapeChar_of_not_mem {c : Char} (h : c ∉ ['&', '<', '>', '"']) : escapeChar c = [c] := by
  simp only [List.mem_cons, List.not_mem_nil, or_false, not_or] at h
  obtain ⟨hand, hless, hmore, hquote⟩ := h
  unfold escapeChar
  split
  all_goals first
    | contradiction
    | rfl

theorem escape_eq_self {cs : List Char} (h : ∀ c ∈ cs, c ∉ ['&', '<', '>', '"']) : escape cs = cs := by
  induction cs with
  | nil => rfl
  | cons c cs ih =>
    obtain ⟨hc, hcs⟩ := List.forall_mem_cons.1 h
    have hrest := ih hcs
    unfold escape at hrest ⊢
    rw [List.flatMap_cons, escapeChar_of_not_mem hc, hrest]
    rfl

/-- Behind what stands in front of the first double quote there is a reference. -/
theorem escape_of_quote {cs : List Char} (h : ∀ c ∈ cs, c ∉ ['&', '<', '>']) (hquote : '"' ∈ cs) :
    ∃ rest, escape cs = cs.takeWhile (· != '"') ++ '&' :: rest := by
  induction cs with
  | nil => cases hquote
  | cons c cs ih =>
    obtain ⟨hc, hcs⟩ := List.forall_mem_cons.1 h
    by_cases heq : c = '"'
    · subst heq
      exact ⟨"quot;".toList ++ escape cs, rfl⟩
    · obtain ⟨rest, hrest⟩ := ih hcs ((List.mem_cons.1 hquote).resolve_left (Ne.symm heq))
      refine ⟨rest, ?_⟩
      have hplain : c ∉ ['&', '<', '>', '"'] := by
        simp only [List.mem_cons, List.not_mem_nil, or_false, not_or] at hc ⊢
        exact ⟨hc.1, hc.2.1, hc.2.2, heq⟩
      unfold escape at hrest ⊢
      rw [List.flatMap_cons, escapeChar_of_not_mem hplain, hrest]
      simp [heq]

end Folio.Markdown
